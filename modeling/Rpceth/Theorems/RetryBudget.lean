import Rpceth.Theorems.RequestLoop

/-! What `maxRetries` buys: a larger budget continues the run of a smaller one where its last attempt failed, and
    changes nothing else. -/

namespace Rpceth
open Lib

def MethodPolicy.withRetries (policy : MethodPolicy) (retries : Nat) : MethodPolicy :=
  { policy with maxRetries := retries }

/-- Every attempt of the budget has failed. -/
def LoopRun.Spent (run : LoopRun) (budget : Nat) : Prop :=
  (∃ e, run.ending = .exhausted e) ∧ (contacts run.trace).length = budget

/-- The run of a larger budget: the same, or more of it where the smaller budget was spent. -/
structure LoopRun.Extends (longer shorter : LoopRun) (budget : Nat) : Prop where
  starts : shorter.trace <+: longer.trace
  same : longer = shorter ∨ shorter.Spent budget

theorem LoopRun.Extends.refl (run : LoopRun) (budget : Nat) : run.Extends run budget where
  starts := List.prefix_rfl
  same := .inl rfl

/-- The same failed attempt in front of both. -/
theorem LoopRun.Extends.failure {longer shorter : LoopRun} {budget : Nat} (h : longer.Extends shorter budget)
    {p : ProviderId} {message : String} {delay : List Event} (hdelay : contacts delay = []) :
    LoopRun.Extends
      ⟨[.onRequestStart p, .forward p (.error message), .onFailure p] ++ delay ++ longer.trace, longer.ending⟩
      ⟨[.onRequestStart p, .forward p (.error message), .onFailure p] ++ delay ++ shorter.trace, shorter.ending⟩
      (budget + 1) where
  starts := (List.prefix_append_right_inj _).mpr h.starts
  same := by
    rcases h.same with rfl | ⟨hend, hlen⟩
    · exact .inl rfl
    · refine .inr ⟨hend, ?_⟩
      rw [contacts_append, contacts_append, hdelay, List.append_nil, List.length_append, hlen, Nat.add_comm]
      rfl

section
variable {tower : Tower} {env : Env} {chain : ChainRuntime} {byId : HashMap ProviderId ProviderHandle}
  {ctx : RequestContext} {policy : MethodPolicy}

/-- No selection looks at the budget. -/
theorem selectProvider_withRetries (retries : Nat) (tried : Finset ProviderId) (n : Nat) :
    selectProvider env chain byId ctx tried (policy.withRetries retries) n =
      selectProvider env chain byId ctx tried policy n := rfl

/-- Before the last attempt the delay is the same, however many attempts follow. -/
theorem backoffDelay_more {attempt maxAttempts : Nat} (h : attempt + 1 < maxAttempts) (extra : Nat)
    (backoff : Option tower.Backoff) :
    backoffDelay tower attempt (maxAttempts + extra) backoff = backoffDelay tower attempt maxAttempts backoff := by
  unfold backoffDelay
  rw [if_pos h, if_pos (Nat.lt_of_lt_of_le h (Nat.le_add_right _ _))]

/-- With as many attempts made, the loop with the larger budget extends the other. -/
theorem attempts_extends {retries maxAttempts remaining : Nat} (hle : remaining ≤ maxAttempts) (extra : Nat)
    (st : LoopState tower) :
    (attempts tower env chain byId ctx (policy.withRetries retries) (maxAttempts + extra) (remaining + extra)
      st).Extends (attempts tower env chain byId ctx policy maxAttempts remaining st) remaining := by
  induction remaining generalizing st with
  | zero => exact ⟨List.nil_prefix, .inr ⟨⟨_, rfl⟩, rfl⟩⟩
  | succ remaining ih =>
    have hattempt : maxAttempts + extra - (remaining + extra + 1) = maxAttempts - (remaining + 1) := by omega
    rw [Nat.add_right_comm, attempts, attempts, selectProvider_withRetries]
    split
    · exact .refl _ _
    · rename_i provider n hsel
      have htimeout : (policy.withRetries retries).timeout = policy.timeout := rfl
      simp only [htimeout, hattempt]
      split
      · exact .refl _ _
      · exact .refl _ _
      · rename_i message _
        cases remaining with
        | zero =>
          -- the smaller budget ends behind this attempt, without a delay
          have hlast : backoffDelay tower (maxAttempts - (0 + 1)) maxAttempts st.backoff = ([], st.backoff) :=
            if_neg (by omega)
          rw [hlast]
          refine ⟨?_, .inr ⟨⟨_, rfl⟩, rfl⟩⟩
          simp only [attempts, List.append_nil, List.append_assoc]
          exact List.prefix_append _ _
        | succ remaining =>
          rw [backoffDelay_more (by omega)]
          exact (ih (by omega) _).failure (backoffDelay_silent _ _ _).1

/-- Each contact is with a provider of the chain that was not tried before. -/
theorem attempts_contacts (hids : ∀ p handle, byId.lookup p = some handle → handle.id = p)
    (hpool : chain.providers = chain.loadBalancer.pool.ids) (maxAttempts remaining : Nat) (st : LoopState tower) :
    (contacts (attempts tower env chain byId ctx policy maxAttempts remaining st).trace).length ≤
      (chain.providers \ st.tried).card := by
  induction remaining generalizing st with
  | zero => exact Nat.zero_le _
  | succ remaining ih =>
    rw [attempts]
    split
    · exact Nat.zero_le _
    · rename_i provider n hsel
      obtain ⟨hin, htried, -⟩ := selectProvider_mem hids hpool (congrArg Prod.fst hsel)
      have huntried : provider.id ∈ chain.providers \ st.tried := Finset.mem_sdiff.mpr ⟨hin, htried⟩
      dsimp only
      split
      · exact Nat.zero_le _
      · exact Finset.card_pos.mpr ⟨_, huntried⟩
      · rename_i message _
        rw [contacts_append, contacts_append, (backoffDelay_silent _ _ _).1, List.append_nil, List.length_append,
          Nat.add_comm, ← Finset.card_erase_add_one huntried, ← Finset.sdiff_insert]
        exact Nat.succ_le_succ (ih _)

end

/-- A larger retry budget over a chain of the server, with everything that the loop reads as it was: the loop does
    all that it did, in the same order and after the same delays. It does something more only if all attempts of the
    smaller budget were made and failed, so never if the smaller budget is above the number of providers. A request
    for which no backoff can be made makes none with the larger budget, either. -/
theorem retries_extend (tower : Tower) (env : Env) (decode : String → String) (globs : Globs) (config : ProxyConfig)
    (state : ProxyState) (hstate : ProxyState.new decode globs config = .ok state) (key : ChainKey)
    (chain : ChainRuntime) (hchain : state.chains.lookup key = some chain) (ctx : RequestContext)
    (policy : MethodPolicy) (retries : Nat) (hretries : policy.maxRetries ≤ retries) :
    (requestLoop tower env chain state.providersById ctx policy = none ↔
      requestLoop tower env chain state.providersById ctx (policy.withRetries retries) = none) ∧
    ∀ run, requestLoop tower env chain state.providersById ctx policy = some run →
      ∃ longer, requestLoop tower env chain state.providersById ctx (policy.withRetries retries) = some longer ∧
        longer.Extends run (max policy.maxRetries 1) ∧
        (chain.providers.card < max policy.maxRetries 1 → longer = run) := by
  obtain ⟨extra, hextra⟩ : ∃ extra, max retries 1 = max policy.maxRetries 1 + extra :=
    ⟨max retries 1 - max policy.maxRetries 1, by omega⟩
  have hstart : ∀ backoff : Option tower.Backoff,
      let st : LoopState tower := { tried := ∅, lastError := none, backoff, reading := 0 }
      let run := attempts tower env chain state.providersById ctx policy (max policy.maxRetries 1)
        (max policy.maxRetries 1) st
      let longer := attempts tower env chain state.providersById ctx (policy.withRetries retries) (max retries 1)
        (max retries 1) st
      longer.Extends run (max policy.maxRetries 1) ∧
        (chain.providers.card < max policy.maxRetries 1 → longer = run) := by
    intro backoff st run longer
    have hextends : longer.Extends run (max policy.maxRetries 1) := by
      unfold longer run
      rw [hextra]
      exact attempts_extends (Nat.le_refl _) extra st
    refine ⟨hextends, fun hcard => hextends.same.resolve_right fun hspent => ?_⟩
    have hlen : (contacts run.trace).length ≤ (chain.providers \ ∅).card :=
      attempts_contacts (fun _ _ hp => lookup_providersById hstate hp) (providers_eq_pool hstate hchain) _ _ st
    rw [hspent.2, Finset.sdiff_empty] at hlen
    exact absurd hcard (Nat.not_lt.mpr hlen)
  unfold requestLoop
  have hbackoff : (policy.withRetries retries).backoff = policy.backoff := rfl
  rw [hbackoff]
  cases policy.backoff with
  | none =>
    refine ⟨⟨fun h => (nomatch h), fun h => (nomatch h)⟩, fun run hrun => ?_⟩
    obtain rfl := Option.some.inj hrun
    exact ⟨_, rfl, hstart none⟩
  | some b =>
    refine ⟨by simp only [Option.map_eq_none_iff], fun run hrun => ?_⟩
    obtain ⟨backoff, hmake, rfl⟩ := Option.map_eq_some_iff.mp hrun
    exact ⟨_, Option.map_eq_some_iff.mpr ⟨backoff, hmake, rfl⟩, hstart (some backoff)⟩

/-- One attempt fails on the first provider. A budget of three goes on to the second one, which answers. -/
theorem retries_extend_small :
    ∃ state chain run longer, ProxyState.new id literalGlobs (retryingConfig 1 ["a", "b", "c"]) = .ok state ∧
      state.chains.lookup ⟨"default"⟩ = some chain ∧
      requestLoop doublingTower failoverEnv chain state.providersById {} (retryingPolicy 1) = some run ∧
      requestLoop doublingTower failoverEnv chain state.providersById {} ((retryingPolicy 1).withRetries 3) =
        some longer ∧
      (contacts run.trace).map Prod.fst = [⟨"a"⟩] ∧ (contacts longer.trace).map Prod.fst = [⟨"a"⟩, ⟨"b"⟩] ∧
      longer.Extends run 1 := by
  obtain ⟨longer, hlonger, hextends, -⟩ := (retries_extend doublingTower failoverEnv id literalGlobs
    (retryingConfig 1 ["a", "b", "c"]) _ rfl ⟨"default"⟩ _ rfl {} (retryingPolicy 1) 3 (by decide)).2 _ rfl
  refine ⟨_, _, _, longer, rfl, rfl, rfl, hlonger, by decide +kernel, ?_, hextends⟩
  obtain rfl := Option.some.inj hlonger
  decide +kernel

end Rpceth
