import Rpceth.Theorems.ChainRouting
import Rpceth.Theorems.Failover

/-! The trace of the request loop: which providers it contacts, what it tells the circuit breaker, and what it
    reports, whatever the environment does between its steps. -/

namespace Rpceth
open Lib

/-! ### The chains of a state -/

section State
variable {decode : String → String} {globs : Globs} {config : ProxyConfig} {state : ProxyState}

theorem lookup_providersById (h : ProxyState.new decode globs config = .ok state) {p : ProviderId}
    {handle : ProviderHandle} (hp : state.providersById.lookup p = some handle) : handle.id = p := by
  rw [proxyState_providersById h] at hp
  obtain ⟨handle', -, hid, rfl⟩ := HashMap.exists_of_lookup_collect hp
  exact hid

/-- The set of providers of a chain is the set of the ids in the pool of its load balancer. -/
theorem providers_eq_pool (h : ProxyState.new decode globs config = .ok state) {key : ChainKey} {chain : ChainRuntime}
    (hchain : state.chains.lookup key = some chain) : chain.providers = chain.loadBalancer.pool.ids := by
  obtain ⟨registry, aliases, tolerance, providers, -, rfl, -⟩ := proxyState_chain h hchain
  rfl

end State

/-! ### Traces -/

/-- The provider that a forward goes to, and how it ends. -/
def Event.contact : Event → Option (ProviderId × Except String ProviderResponse)
  | .forward p result => some (p, result)
  | _ => none

def Event.onBreaker : Event → Bool
  | .onRequestStart _ | .onSuccess _ | .onFailure _ => true
  | _ => false

def contacts (trace : List Event) : List (ProviderId × Except String ProviderResponse) :=
  trace.filterMap Event.contact

def breakerCalls (trace : List Event) : List Event := trace.filter Event.onBreaker

theorem contacts_append (l l' : List Event) : contacts (l ++ l') = contacts l ++ contacts l' :=
  List.filterMap_append

theorem breakerCalls_append (l l' : List Event) : breakerCalls (l ++ l') = breakerCalls l ++ breakerCalls l' :=
  List.filter_append ..

/-- The calls of the breaker that a contact comes with. -/
def callsOf : ProviderId × Except String ProviderResponse → List Event
  | (p, .ok _) => [.onRequestStart p, .onSuccess p]
  | (p, .error _) => [.onRequestStart p, .onFailure p]

/-- The error that a contact ends with. -/
def contactError : ProviderId × Except String ProviderResponse → Option String
  | (_, .ok _) => none
  | (_, .error message) => some message

/-- What a loop that starts with the providers in `tried` and an earlier error does. -/
structure LoopSpec (providers tried : Finset ProviderId) (budget : Nat) (earlier : Option String) (run : LoopRun) :
    Prop where
  distinct : ((contacts run.trace).map Prod.fst).Nodup
  inChain : ∀ c ∈ contacts run.trace, c.1 ∈ providers ∧ c.1 ∉ tried
  length : (contacts run.trace).length ≤ budget
  failed : ∀ c ∈ (contacts run.trace).dropLast, (contactError c).isSome
  calls : breakerCalls run.trace = (contacts run.trace).flatMap callsOf
  ending : (∃ response p, run.ending = .success response ∧ (contacts run.trace).getLast? = some (p, .ok response)) ∨
    (∀ c ∈ contacts run.trace, (contactError c).isSome) ∧
      run.ending = .exhausted (((contacts run.trace).getLast?.bind contactError).or earlier)

section Loop
variable {tower : Tower} {env : Env} {chain : ChainRuntime} {byId : HashMap ProviderId ProviderHandle}
  {ctx : RequestContext} {policy : MethodPolicy}

theorem selectAvailable_mem {excluded : Finset ProviderId} {n : Nat} {h : ProviderHandle}
    (hsel : (selectAvailable env chain policy excluded n).1 = some h) :
    h.id ∈ chain.loadBalancer.pool.ids ∧ h.id ∉ excluded := by
  obtain ⟨hpool, hex, -⟩ := Source.search_sound excluded n hsel
  exact ⟨hpool, hex⟩

/-- A selected provider is one of the chain and has not been tried, and the override is one of the chain. -/
theorem selectProvider_mem (hids : ∀ p handle, byId.lookup p = some handle → handle.id = p)
    (hpool : chain.providers = chain.loadBalancer.pool.ids) {tried : Finset ProviderId} {n : Nat}
    {h : ProviderHandle} (hsel : (selectProvider env chain byId ctx tried policy n).1 = some h) :
    h.id ∈ chain.providers ∧ h.id ∉ tried ∧
      ∀ p ∈ ctx.providerOverride, p ∉ tried → p ∈ chain.providers := by
  have hover : ∀ p ∈ ctx.providerOverride, p ∉ tried → p ∈ chain.providers :=
    fun p hp htried => untriedOverride_inChain hsel (mem_untriedOverride.mpr ⟨hp, htried⟩)
  rcases selectProvider_cases env chain byId ctx tried policy n with
    ⟨p, -, -, hresult⟩ | ⟨p, handle, huntried, hin, hlookup, -, hresult⟩ | ⟨m, -, -, -, hresult⟩
  · rw [hresult] at hsel
    cases hsel
  · rw [hresult] at hsel
    cases hsel
    rw [hids p _ hlookup]
    exact ⟨hin, (mem_untriedOverride.mp huntried).2, hover⟩
  · rw [hresult] at hsel
    obtain ⟨hmem, hex⟩ := selectAvailable_mem hsel
    exact ⟨hpool ▸ hmem, (notMem_excludedAtFirst.mp hex).2, hover⟩

theorem backoffDelay_silent (attempt maxAttempts : Nat) (backoff : Option tower.Backoff) :
    contacts (backoffDelay tower attempt maxAttempts backoff).1 = [] ∧
      breakerCalls (backoffDelay tower attempt maxAttempts backoff).1 = [] := by
  unfold backoffDelay
  split
  · cases backoff <;> exact ⟨rfl, rfl⟩
  · exact ⟨rfl, rfl⟩

theorem LoopSpec.stopped (providers tried : Finset ProviderId) (budget : Nat) (earlier : Option String) :
    LoopSpec providers tried budget earlier ⟨[], .exhausted earlier⟩ where
  distinct := List.nodup_nil
  inChain _ hc := absurd hc List.not_mem_nil
  length := Nat.zero_le _
  failed _ hc := absurd hc List.not_mem_nil
  calls := rfl
  ending := .inr ⟨fun _ hc => absurd hc List.not_mem_nil, rfl⟩

theorem LoopSpec.success {providers tried : Finset ProviderId} {budget : Nat} {earlier : Option String}
    {p : ProviderId} (hp : p ∈ providers) (htried : p ∉ tried) (response : ProviderResponse) :
    LoopSpec providers tried (budget + 1) earlier
      ⟨[.onRequestStart p, .forward p (.ok response), .onSuccess p], .success response⟩ where
  distinct := List.nodup_singleton _
  inChain c hc := by
    rw [List.mem_singleton.mp hc]
    exact ⟨hp, htried⟩
  length := Nat.succ_le_succ (Nat.zero_le _)
  failed _ hc := absurd hc List.not_mem_nil
  calls := rfl
  ending := .inl ⟨response, p, rfl, rfl⟩

/-- A failed attempt in front of the rest of the loop, which has the provider among those tried. -/
theorem LoopSpec.failure {providers tried : Finset ProviderId} {budget : Nat} {earlier : Option String}
    {p : ProviderId} {message : String} {delay : List Event} {rest : LoopRun} (hp : p ∈ providers)
    (htried : p ∉ tried) (hdelay : contacts delay = [] ∧ breakerCalls delay = [])
    (h : LoopSpec providers (insert p tried) budget (some message) rest) :
    LoopSpec providers tried (budget + 1) earlier
      ⟨[.onRequestStart p, .forward p (.error message), .onFailure p] ++ delay ++ rest.trace, rest.ending⟩ := by
  have hcontacts : contacts ([.onRequestStart p, .forward p (.error message), .onFailure p] ++ delay ++ rest.trace) =
      (p, .error message) :: contacts rest.trace := by
    rw [contacts_append, contacts_append, hdelay.1]
    rfl
  have hcalls : breakerCalls ([.onRequestStart p, .forward p (.error message), .onFailure p] ++ delay ++ rest.trace) =
      [.onRequestStart p, .onFailure p] ++ breakerCalls rest.trace := by
    rw [breakerCalls_append, breakerCalls_append, hdelay.2]
    rfl
  refine ⟨?_, ?_, ?_, ?_, ?_, ?_⟩ <;> simp only [hcontacts, hcalls]
  · refine List.nodup_cons.mpr ⟨fun hmem => ?_, h.distinct⟩
    obtain ⟨c, hc, heq⟩ := List.mem_map.mp hmem
    exact (h.inChain c hc).2 (heq ▸ Finset.mem_insert_self _ _)
  · intro c hc
    rcases List.mem_cons.mp hc with rfl | hc
    · exact ⟨hp, htried⟩
    · obtain ⟨hin, hnot⟩ := h.inChain c hc
      exact ⟨hin, fun hmem => hnot (Finset.mem_insert_of_mem hmem)⟩
  · exact Nat.succ_le_succ h.length
  · intro c hc
    cases hrest : contacts rest.trace with
    | nil =>
      rw [hrest] at hc
      cases hc
    | cons c' l =>
      rw [hrest, List.dropLast_cons_of_ne_nil (List.cons_ne_nil _ _), List.mem_cons, ← hrest] at hc
      rcases hc with rfl | hc
      · rfl
      · exact h.failed c hc
  · rw [h.calls]
    rfl
  · rcases h.ending with ⟨response, q, hend, hlast⟩ | ⟨hall, hend⟩
    · refine .inl ⟨response, q, hend, ?_⟩
      rw [List.getLast?_cons, hlast]
      rfl
    · refine .inr ⟨fun c hc => ?_, ?_⟩
      · rcases List.mem_cons.mp hc with rfl | hc
        · rfl
        · exact hall c hc
      · rw [hend, List.getLast?_cons]
        cases hlast : (contacts rest.trace).getLast? with
        | none => rfl
        | some c =>
          obtain ⟨error, herror⟩ := Option.isSome_iff_exists.mp (hall c (List.mem_of_getLast? hlast))
          simp only [Option.bind_some, Option.getD_some, herror, Option.some_or]

/-- One attempt after the other keeps the specification, with one provider more among those tried. -/
theorem attempts_spec (hids : ∀ p handle, byId.lookup p = some handle → handle.id = p)
    (hpool : chain.providers = chain.loadBalancer.pool.ids)
    (hreturns : ∀ n handle timeout, (forwardToProvider (env.upstream n handle) timeout).isSome)
    (maxAttempts remaining : Nat) (st : LoopState tower) :
    LoopSpec chain.providers st.tried remaining st.lastError
      (attempts tower env chain byId ctx policy maxAttempts remaining st) := by
  induction remaining generalizing st with
  | zero => exact LoopSpec.stopped ..
  | succ remaining ih =>
    rw [attempts]
    split
    · exact LoopSpec.stopped ..
    · rename_i provider n hsel
      obtain ⟨hin, htried, -⟩ := selectProvider_mem hids hpool (congrArg Prod.fst hsel)
      dsimp only
      split
      · rename_i hpending
        have hsome := hreturns n provider (max provider.timeout policy.timeout)
        rw [hpending] at hsome
        cases hsome
      · exact LoopSpec.success hin htried _
      · rename_i message _
        cases hdelay : backoffDelay tower (maxAttempts - (remaining + 1)) maxAttempts st.backoff with
        | mk delay backoff =>
          have hsilent := backoffDelay_silent (maxAttempts - (remaining + 1)) maxAttempts st.backoff
          rw [hdelay] at hsilent
          exact LoopSpec.failure hin htried hsilent
            (ih { tried := insert provider.id st.tried, lastError := some message, backoff, reading := n + 1 })

end Loop

/-- The request loop over a chain that was built from a configuration, with a backoff that `make_backoff`
    accepts and upstream calls that return: it ends with a response or with the last error, after it has
    contacted distinct providers of the chain, no more than the budget, and told the breaker of each contact
    when it began and how it ended. With an override outside the chain it contacts none. -/
theorem requestLoop_spec (tower : Tower) (env : Env) (decode : String → String) (globs : Globs) (config : ProxyConfig)
    (state : ProxyState) (hstate : ProxyState.new decode globs config = .ok state) (key : ChainKey)
    (chain : ChainRuntime) (hchain : state.chains.lookup key = some chain) (ctx : RequestContext)
    (policy : MethodPolicy) (hbackoff : ∀ b ∈ policy.backoff, (makeBackoff tower b).isSome)
    (hreturns : ∀ n handle timeout, (forwardToProvider (env.upstream n handle) timeout).isSome) :
    ∃ run, requestLoop tower env chain state.providersById ctx policy = some run ∧
      LoopSpec chain.providers ∅ (max policy.maxRetries 1) none run ∧
      (contacts run.trace).length ≤ chain.providers.card ∧
      ((∃ p ∈ ctx.providerOverride, p ∉ chain.providers) → contacts run.trace = []) := by
  have hids : ∀ p handle, state.providersById.lookup p = some handle → handle.id = p :=
    fun _ _ hp => lookup_providersById hstate hp
  have hpool := providers_eq_pool hstate hchain
  have hloop : ∃ backoff, requestLoop tower env chain state.providersById ctx policy =
      some (attempts tower env chain state.providersById ctx policy (max policy.maxRetries 1)
        (max policy.maxRetries 1) { tried := ∅, lastError := none, backoff, reading := 0 }) := by
    unfold requestLoop
    cases hb : policy.backoff with
    | none => exact ⟨none, rfl⟩
    | some b =>
      obtain ⟨backoff, hmake⟩ := Option.isSome_iff_exists.mp (hbackoff b hb)
      refine ⟨some backoff, ?_⟩
      simp only [hmake, Option.map_some]
  obtain ⟨backoff, hrun⟩ := hloop
  have hspec : LoopSpec chain.providers ∅ (max policy.maxRetries 1) none
      (attempts tower env chain state.providersById ctx policy (max policy.maxRetries 1) (max policy.maxRetries 1)
        { tried := ∅, lastError := none, backoff, reading := 0 }) :=
    attempts_spec hids hpool hreturns _ _ { tried := ∅, lastError := none, backoff, reading := 0 }
  refine ⟨_, hrun, hspec, ?_, ?_⟩
  · rw [← List.length_map (f := Prod.fst), ← List.toFinset_card_of_nodup hspec.distinct]
    refine Finset.card_le_card fun p hp => ?_
    obtain ⟨c, hc, rfl⟩ := List.mem_map.mp (List.mem_toFinset.mp hp)
    exact (hspec.inChain c hc).1
  · rintro ⟨p, hp, hout⟩
    have hpos : max policy.maxRetries 1 = (max policy.maxRetries 1 - 1) + 1 := by omega
    rw [hpos, attempts]
    split
    · rfl
    · rename_i provider n hsel
      have hin := (selectProvider_mem hids hpool (congrArg Prod.fst hsel)).2.2 p hp (Finset.notMem_empty p)
      exact absurd hin hout

/-- A tower that doubles the delay. -/
def doublingTower : Tower where
  Backoff := Duration
  make min max _ := if min ≤ max ∧ 0 < max then some min else none
  nextBackoff delay := (delay, 2 * delay)

/-- Providers of these names, a budget of so many attempts, and the built-in backoff. -/
def retryingConfig (maxRetries : UInt8) (names : List String) : ProxyConfig :=
  { smallConfig with
    maxRetries
    providers := names.map fun name => { id := ⟨name⟩, url := "https://" ++ name ++ ".example" }
    methods := { default := { backoff := some {} } } }

/-- The policy of every method in it. -/
def retryingPolicy (maxRetries : Nat) : MethodPolicy :=
  { plainPolicy with timeout := Duration.fromMillis 5000, maxRetries, backoff := some .builtin }

/-- The provider `a` refuses every connection, and the others answer at once. -/
def refusedByFirst (handle : ProviderHandle) : Exchange :=
  if handle.id = ⟨"a"⟩ then ⟨.failed 0 "connection refused", .never⟩
  else ⟨.arrived 0 ⟨200, "200 OK"⟩ [], .complete 0 []⟩

def failoverEnv : Env := { quietEnv ∅ with upstream := fun _ => refusedByFirst }

/-- The first provider refuses the connection, and the second one, contacted next, answers. -/
theorem requestLoop_spec_small :
    ∃ state chain run, ProxyState.new id literalGlobs (retryingConfig 3 ["a", "b", "c"]) = .ok state ∧
      state.chains.lookup ⟨"default"⟩ = some chain ∧
      requestLoop doublingTower failoverEnv chain state.providersById {} (retryingPolicy 3) = some run ∧
      LoopSpec chain.providers ∅ 3 none run ∧ (contacts run.trace).map Prod.fst = [⟨"a"⟩, ⟨"b"⟩] := by
  have hbackoff : ∀ b ∈ (retryingPolicy 3).backoff, (makeBackoff doublingTower b).isSome := by
    intro b hb
    cases hb
    rfl
  have hreturns : ∀ n handle timeout, (forwardToProvider (failoverEnv.upstream n handle) timeout).isSome := by
    intro n handle timeout
    show (forwardToProvider (refusedByFirst handle) timeout).isSome
    unfold refusedByFirst
    split
    · simp [forwardToProvider]
    · simp [forwardToProvider, StatusCode.isSuccess]
  obtain ⟨run, hrun, hspec, -⟩ := requestLoop_spec doublingTower failoverEnv id literalGlobs
    (retryingConfig 3 ["a", "b", "c"]) _ rfl ⟨"default"⟩ _ rfl {} (retryingPolicy 3) hbackoff hreturns
  refine ⟨_, _, run, rfl, rfl, hrun, hspec, ?_⟩
  obtain rfl := Option.some.inj hrun
  decide +kernel

end Rpceth
