import Rpceth.Theorems.Selection

/-! When the request loop waits. It decides to wait after a failed attempt if the budget allows another one, and
    finds out only afterwards whether there is a provider for it. -/

namespace Rpceth
open Lib

/-! ### Traces -/

def Event.isStart : Event → Bool
  | .onRequestStart _ => true
  | _ => false

def Event.isDelay : Event → Bool
  | .delay _ => true
  | _ => false

/-- Every delay is followed by an attempt, and there is one delay less than there are attempts. -/
structure DelaysBetween (trace : List Event) : Prop where
  followed : ∀ d rest, (.delay d :: rest) <:+ trace → ∃ p, Event.onRequestStart p ∈ rest
  count : trace.countP Event.isDelay = trace.countP Event.isStart - 1

theorem delaysBetween_of_quiet {trace : List Event} (hstart : trace.countP Event.isStart ≤ 1)
    (hdelay : ∀ e ∈ trace, e.isDelay = false) : DelaysBetween trace where
  followed d rest hsuffix := by
    have hfalse := hdelay _ (hsuffix.subset List.mem_cons_self)
    cases hfalse
  count := by
    have hzero : trace.countP Event.isDelay = 0 := List.countP_eq_zero.mpr fun e he => by simp [hdelay e he]
    omega

/-- What a failed attempt does. -/
def failedAttempt (p : ProviderId) (message : String) : List Event :=
  [.onRequestStart p, .forward p (.error message), .onFailure p]

/-- A failed attempt and a delay in front of the rest of a trace. -/
theorem delaysBetween_failure {p : ProviderId} {message : String} {d : Duration} {rest : List Event} :
    DelaysBetween (failedAttempt p message ++ [.delay d] ++ rest) ↔
      (∃ q, Event.onRequestStart q ∈ rest) ∧ DelaysBetween rest := by
  have hstarts : (failedAttempt p message ++ [Event.delay d] ++ rest).countP Event.isStart =
      rest.countP Event.isStart + 1 := by
    simp [failedAttempt, List.countP_cons, Event.isStart]
  have hdelays : (failedAttempt p message ++ [Event.delay d] ++ rest).countP Event.isDelay =
      rest.countP Event.isDelay + 1 := by
    simp [failedAttempt, List.countP_cons, Event.isDelay]
  constructor
  · rintro ⟨hfollowed, hcount⟩
    have hafter : (.delay d :: rest) <:+ failedAttempt p message ++ [.delay d] ++ rest := by
      rw [List.append_assoc]
      exact List.suffix_append _ _
    refine ⟨hfollowed d rest hafter, fun d' rest' hsuffix => ?_, ?_⟩
    · exact hfollowed d' rest' (hsuffix.trans (List.suffix_append _ _))
    · rw [hstarts, hdelays] at hcount
      omega
  · rintro ⟨⟨q, hq⟩, hfollowed, hcount⟩
    refine ⟨fun d' rest' hsuffix => ?_, ?_⟩
    · simp only [failedAttempt, List.cons_append, List.nil_append, List.suffix_cons_iff, List.cons.injEq,
        reduceCtorEq, false_and, false_or] at hsuffix
      rcases hsuffix with ⟨-, rfl⟩ | hsuffix
      · exact ⟨q, hq⟩
      · exact hfollowed d' rest' hsuffix
    · have hpos : 0 < rest.countP Event.isStart := List.countP_pos_iff.mpr ⟨_, hq, rfl⟩
      rw [hstarts, hdelays]
      omega

/-! ### The loop -/

section Loop
variable (tower : Tower) (env : Env) (chain : ChainRuntime) (byId : HashMap ProviderId ProviderHandle)
  (ctx : RequestContext) (policy : MethodPolicy)

/-- The state after a failed attempt, with `remaining` attempts to go. -/
def LoopState.afterFailure {tower : Tower} (st : LoopState tower) (maxAttempts remaining : Nat)
    (provider : ProviderHandle) (message : String) (n : Nat) : LoopState tower where
  tried := insert provider.id st.tried
  lastError := some message
  backoff := (backoffDelay tower (maxAttempts - (remaining + 1)) maxAttempts st.backoff).2
  reading := n + 1

/-- What the loop asks for in a state. -/
def nextProvider {tower : Tower} (st : LoopState tower) : Option ProviderHandle × Nat :=
  selectProvider env chain byId ctx st.tried policy st.reading

/-- An attempt on this provider, selected before the `n`-th reading, ends with this error. -/
def FailsWith (provider : ProviderHandle) (n : Nat) (message : String) : Prop :=
  ∃ t, forwardToProvider (env.upstream n provider) (max provider.timeout policy.timeout) = some (t, .error message)

/-- From a state with some attempts to go, one failed attempt or more lead to another one. -/
inductive FailsTo {tower : Tower} (maxAttempts : Nat) : Nat → LoopState tower → Nat → LoopState tower → Prop
  | once {remaining st provider n message} : nextProvider env chain byId ctx policy st = (some provider, n) →
      FailsWith env policy provider n message →
      FailsTo maxAttempts (remaining + 1) st remaining (st.afterFailure maxAttempts remaining provider message n)
  | more {remaining st provider n message r st'} : nextProvider env chain byId ctx policy st = (some provider, n) →
      FailsWith env policy provider n message →
      FailsTo maxAttempts remaining (st.afterFailure maxAttempts remaining provider message n) r st' →
      FailsTo maxAttempts (remaining + 1) st r st'

variable {tower env chain byId ctx policy} {maxAttempts remaining r n : Nat} {st st' : LoopState tower}
  {provider : ProviderHandle} {message : String}

theorem failsTo_iff (hnext : nextProvider env chain byId ctx policy st = (some provider, n))
    (hfails : FailsWith env policy provider n message) :
    FailsTo env chain byId ctx policy maxAttempts (remaining + 1) st r st' ↔
      r = remaining ∧ st' = st.afterFailure maxAttempts remaining provider message n ∨
      FailsTo env chain byId ctx policy maxAttempts remaining
        (st.afterFailure maxAttempts remaining provider message n) r st' := by
  obtain ⟨t, hforward⟩ := hfails
  -- The next provider and the error of the attempt on it are determined.
  have same : ∀ {provider' n' message'}, nextProvider env chain byId ctx policy st = (some provider', n') →
      FailsWith env policy provider' n' message' → provider' = provider ∧ n' = n ∧ message' = message := by
    rintro provider' n' message' hnext' ⟨t', hforward'⟩
    rw [hnext] at hnext'
    cases hnext'
    rw [hforward] at hforward'
    cases hforward'
    exact ⟨rfl, rfl, rfl⟩
  constructor
  · intro h
    cases h with
    | once hnext' hfails' =>
      obtain ⟨rfl, rfl, rfl⟩ := same hnext' hfails'
      exact .inl ⟨rfl, rfl⟩
    | more hnext' hfails' hrest =>
      obtain ⟨rfl, rfl, rfl⟩ := same hnext' hfails'
      exact .inr hrest
  · rintro (⟨rfl, rfl⟩ | hrest)
    · exact .once hnext ⟨t, hforward⟩
    · exact .more hnext ⟨t, hforward⟩ hrest

/-- The loop finds no provider, or ends with its attempt on one, or goes on after a failed one. -/
theorem attempts_cases (tower : Tower) (env : Env) (chain : ChainRuntime) (byId : HashMap ProviderId ProviderHandle)
    (ctx : RequestContext) (policy : MethodPolicy) (maxAttempts remaining : Nat) (st : LoopState tower) :
    (nextProvider env chain byId ctx policy st).1 = none ∧
      (attempts tower env chain byId ctx policy maxAttempts (remaining + 1) st).trace = [] ∨
    (∃ provider n, nextProvider env chain byId ctx policy st = (some provider, n) ∧
      (∀ message, ¬FailsWith env policy provider n message) ∧
      ∃ rest, (attempts tower env chain byId ctx policy maxAttempts (remaining + 1) st).trace =
        .onRequestStart provider.id :: rest ∧ ∀ e ∈ rest, e.isStart = false ∧ e.isDelay = false) ∨
    ∃ provider n message, nextProvider env chain byId ctx policy st = (some provider, n) ∧
      FailsWith env policy provider n message ∧
      (attempts tower env chain byId ctx policy maxAttempts (remaining + 1) st).trace =
        failedAttempt provider.id message ++
          (backoffDelay tower (maxAttempts - (remaining + 1)) maxAttempts st.backoff).1 ++
          (attempts tower env chain byId ctx policy maxAttempts remaining
            (st.afterFailure maxAttempts remaining provider message n)).trace := by
  unfold nextProvider FailsWith
  rw [attempts]
  rcases selectProvider env chain byId ctx st.tried policy st.reading with ⟨_ | provider, n⟩
  · exact .inl ⟨rfl, rfl⟩
  right
  rcases hforward : forwardToProvider (env.upstream n provider) (max provider.timeout policy.timeout) with
    _ | ⟨t, message | response⟩
  · refine .inl ⟨provider, n, rfl, ?_, [], by simp [hforward], by simp⟩
    rintro message ⟨t, h⟩
    rw [hforward] at h
    cases h
  · exact .inr ⟨provider, n, message, rfl, ⟨t, hforward⟩, by simp [hforward, LoopState.afterFailure, failedAttempt]⟩
  · refine .inl ⟨provider, n, rfl, ?_, [.forward provider.id (.ok response), .onSuccess provider.id],
      by simp [hforward], by simp [Event.isStart, Event.isDelay]⟩
    rintro message ⟨t', h⟩
    rw [hforward] at h
    cases h

/-- With attempts to go, the loop makes one exactly if there is a provider. -/
theorem exists_start_iff :
    (∃ q, Event.onRequestStart q ∈ (attempts tower env chain byId ctx policy maxAttempts (remaining + 1) st).trace) ↔
      (nextProvider env chain byId ctx policy st).1.isSome := by
  rcases attempts_cases tower env chain byId ctx policy maxAttempts remaining st with
    ⟨hnone, htrace⟩ | ⟨provider, n, hnext, -, rest, htrace, -⟩ | ⟨provider, n, message, hnext, -, htrace⟩
  · simp [hnone, htrace]
  · rw [htrace, hnext]
    exact iff_of_true ⟨provider.id, List.mem_cons_self⟩ rfl
  · rw [htrace, hnext]
    exact iff_of_true ⟨provider.id, List.mem_cons_self⟩ rfl

theorem backoffDelay_last (h : ¬r + 1 < maxAttempts) (backoff : Option tower.Backoff) :
    backoffDelay tower r maxAttempts backoff = ([], backoff) := if_neg h

theorem backoffDelay_some (h : r + 1 < maxAttempts) (b : tower.Backoff) :
    backoffDelay tower r maxAttempts (some b) = ([.delay (tower.nextBackoff b).1], some (tower.nextBackoff b).2) :=
  if_pos h

/-- With a backoff, the loop waits only between attempts exactly if each failed attempt that leaves some to go also
    leaves a provider for the next one. -/
theorem attempts_delays (hle : remaining ≤ maxAttempts) (hbackoff : st.backoff.isSome) :
    DelaysBetween (attempts tower env chain byId ctx policy maxAttempts remaining st).trace ↔
      ∀ r st', FailsTo env chain byId ctx policy maxAttempts remaining st r st' → 0 < r →
        (nextProvider env chain byId ctx policy st').1.isSome := by
  induction remaining generalizing st with
  | zero =>
    refine iff_of_true (delaysBetween_of_quiet (Nat.zero_le 1) (List.forall_mem_nil _)) ?_
    intro r st' h
    cases h
  | succ remaining ih =>
    rcases attempts_cases tower env chain byId ctx policy maxAttempts remaining st with
      ⟨hnone, htrace⟩ | ⟨provider, n, hnext, hno, rest, htrace, hquiet⟩ | ⟨provider, n, message, hnext, hfails, htrace⟩
    · rw [htrace]
      refine iff_of_true (delaysBetween_of_quiet (Nat.zero_le 1) (List.forall_mem_nil _)) ?_
      intro r st' h
      cases h with
      | once hnext | more hnext =>
        rw [hnext] at hnone
        cases hnone
    · have hstarts : rest.countP Event.isStart = 0 := List.countP_eq_zero.mpr fun e he => by simp [hquiet e he]
      rw [htrace]
      refine iff_of_true (delaysBetween_of_quiet ?_ ?_) ?_
      · rw [List.countP_cons, hstarts]
        exact Nat.le_refl 1
      · exact List.forall_mem_cons.mpr ⟨rfl, fun e he => (hquiet e he).2⟩
      · intro r st' h
        cases h with
        | once hnext' hfails | more hnext' hfails =>
          rw [hnext] at hnext'
          cases hnext'
          exact absurd hfails (hno _)
    · obtain ⟨b, hb⟩ := Option.isSome_iff_exists.mp hbackoff
      have hreach : ∀ r st', FailsTo env chain byId ctx policy maxAttempts (remaining + 1) st r st' ↔
          r = remaining ∧ st' = st.afterFailure maxAttempts remaining provider message n ∨
          FailsTo env chain byId ctx policy maxAttempts remaining
            (st.afterFailure maxAttempts remaining provider message n) r st' := fun _ _ => failsTo_iff hnext hfails
      simp only [hreach]
      rw [htrace]
      cases remaining with
      -- The last attempt of the budget is not waited after.
      | zero =>
        rw [backoffDelay_last (by omega)]
        refine iff_of_true (delaysBetween_of_quiet (Nat.le_refl 1) ?_) ?_
        · simp [attempts, failedAttempt, Event.isDelay]
        · rintro r st' (⟨rfl, -⟩ | h) hpos
          · exact absurd hpos (Nat.lt_irrefl 0)
          · cases h
      | succ remaining =>
        have hwait : maxAttempts - (remaining + 1 + 1) + 1 < maxAttempts := by omega
        have hbackoff' : (st.afterFailure maxAttempts (remaining + 1) provider message n).backoff.isSome := by
          show (backoffDelay tower _ maxAttempts st.backoff).2.isSome
          rw [hb, backoffDelay_some hwait]
          rfl
        rw [hb, backoffDelay_some hwait, delaysBetween_failure, exists_start_iff, ih (by omega) hbackoff']
        constructor
        · rintro ⟨hsome, hrest⟩ r st' (⟨rfl, rfl⟩ | h) hpos
          · exact hsome
          · exact hrest r st' h hpos
        · intro h
          exact ⟨h _ _ (.inl ⟨rfl, rfl⟩) (Nat.succ_pos _), fun r st' hrest => h r st' (.inr hrest)⟩

/-- A failed attempt keeps `P`, so `P` is left by any number of them. -/
theorem FailsTo.induct {P : Nat → LoopState tower → Prop}
    (step : ∀ remaining st provider n message, nextProvider env chain byId ctx policy st = (some provider, n) →
      FailsWith env policy provider n message → P (remaining + 1) st →
      P remaining (st.afterFailure maxAttempts remaining provider message n))
    (h : FailsTo env chain byId ctx policy maxAttempts remaining st r st') (hP : P remaining st) : P r st' := by
  induction h with
  | once hnext hfails => exact step _ _ _ _ _ hnext hfails hP
  | more hnext hfails _ ih => exact ih (step _ _ _ _ _ hnext hfails hP)

theorem failsTo_lt (h : FailsTo env chain byId ctx policy maxAttempts remaining st r st') : r < remaining := by
  induction h with
  | once _ _ => exact Nat.lt_succ_self _
  | more _ _ _ ih => exact Nat.lt_succ_of_lt ih

theorem failsTo_first (h : FailsTo env chain byId ctx policy maxAttempts remaining st r st') :
    ∃ provider n, nextProvider env chain byId ctx policy st = (some provider, n) := by
  cases h with
  | once hnext _ => exact ⟨_, _, hnext⟩
  | more hnext _ _ => exact ⟨_, _, hnext⟩

end Loop

/-! ### Providers that are left -/

/-- What the chains of a state and its table agree on. -/
structure ChainRuntime.InTable (chain : ChainRuntime) (byId : HashMap ProviderId ProviderHandle) : Prop where
  ids : ∀ p handle, byId.lookup p = some handle → handle.id = p
  providers : chain.providers = chain.loadBalancer.pool.ids
  handles : ∀ h ∈ chain.loadBalancer.pool.providers, byId.lookup h.id = some h

theorem inTable_of_chain {decode : String → String} {globs : Globs} {config : ProxyConfig} {state : ProxyState}
    (hvalid : validate config = .ok ()) (hstate : ProxyState.new decode globs config = .ok state) {key : ChainKey}
    {chain : ChainRuntime} (hchain : state.chains.lookup key = some chain) : chain.InTable state.providersById where
  ids _ _ hp := lookup_providersById hstate hp
  providers := providers_eq_pool hstate hchain
  handles h hh := by
    obtain ⟨_, _, _, _, -, rfl, ⟨-, -, rfl⟩ | ⟨_, -, -, rfl⟩⟩ := proxyState_chain hstate hchain
    · rw [proxyState_providersById hstate]
      refine HashMap.lookup_collect_of_nodup ?_ (List.mem_map.mpr ⟨h, hh, rfl⟩)
      have hnodup := (validateProviders_eq_ok.mp (validate_eq_ok hvalid).providers).2.1
      rw [List.map_map, List.map_map]
      exact hnodup
    · obtain ⟨p, -, hlookup⟩ := List.mem_filterMap.mp hh
      rw [lookup_providersById hstate hlookup]
      exact hlookup

/-- The state in which the loop begins. -/
def LoopState.start {tower : Tower} (backoff : tower.Backoff) : LoopState tower where
  tried := ∅
  lastError := none
  backoff := some backoff
  reading := 0

section
variable {tower : Tower} (env : Env) (chain : ChainRuntime) (byId : HashMap ProviderId ProviderHandle)
  (ctx : RequestContext) (policy : MethodPolicy) (backoff : tower.Backoff)

/-- At the `n`-th reading the provider may be selected if it has not been tried: the request overrides to no provider
    outside the chain, the circuit is available, and the provider is the override or passes the health filter. -/
structure Selectable (n : Nat) (p : ProviderId) : Prop where
  inChain : p ∈ chain.providers
  override : ∀ o ∈ ctx.providerOverride, o ∈ chain.providers
  available : env.isAvailable n p = true
  passes : p ∉ ctx.providerOverride → (chain.loadBalancer.healthFilter (env.reads n) (some policy)).passes p = true

instance (n : Nat) (p : ProviderId) : Decidable (Selectable env chain ctx policy n p) :=
  decidable_of_iff (p ∈ chain.providers ∧ (∀ o ∈ ctx.providerOverride, o ∈ chain.providers) ∧
      env.isAvailable n p = true ∧ (p ∉ ctx.providerOverride →
        (chain.loadBalancer.healthFilter (env.reads n) (some policy)).passes p = true))
    ⟨fun h => ⟨h.1, h.2.1, h.2.2.1, h.2.2.2⟩, fun h => ⟨h.inChain, h.override, h.available, h.passes⟩⟩

def selectableAtFirst : Finset ProviderId := chain.providers.filter fun p => Selectable env chain ctx policy 0 p

/-- An attempt on the provider at the `n`-th reading fails. -/
def AttemptFails (n : Nat) (p : ProviderId) : Prop :=
  ∃ handle message, byId.lookup p = some handle ∧ FailsWith env policy handle n message

/-- The providers are as many as the attempts, or an attempt on one of them never fails. -/
def EnoughAmong (providers : Finset ProviderId) : Prop :=
  policy.maxRetries ≤ max 1 providers.card ∨ ∃ p ∈ providers, ∀ n, ¬AttemptFails env byId policy n p

/-- In this state the request selects a provider, with so many attempts to go. -/
def Begins (remaining : Nat) (st : LoopState tower) : Prop :=
  0 < remaining ∧ (remaining = max policy.maxRetries 1 ∧ st = .start backoff ∨
    FailsTo env chain byId ctx policy (max policy.maxRetries 1) (max policy.maxRetries 1) (.start backoff) remaining st)

/-- The selection that begins in this state makes the `m`-th reading. -/
def Reads (st : LoopState tower) (m : Nat) : Prop :=
  st.reading ≤ m ∧ m < (nextProvider env chain byId ctx policy st).2

/-- Until the request has tried it, the provider can be selected. -/
def StaysSelectable (p : ProviderId) : Prop :=
  ∀ remaining st, Begins env chain byId ctx policy backoff remaining st → p ∉ st.tried →
    ∀ m, Reads env chain byId ctx policy st m → Selectable env chain ctx policy m p

/-- Of the providers that the request has not tried, it reads what it could read at first, and an upstream always
    answers the same. The circuit of a provider that it has tried may change, and the cursor of the round robin and
    the random numbers are free. -/
structure Undisturbed : Prop where
  selectable : ∀ remaining st, Begins env chain byId ctx policy backoff remaining st → ∀ p, p ∉ st.tried →
    ∀ m, Reads env chain byId ctx policy st m →
      (Selectable env chain ctx policy m p ↔ Selectable env chain ctx policy 0 p)
  upstream : ∀ n handle, env.upstream n handle = env.upstream 0 handle

end

section Left
variable {tower : Tower} {env : Env} {chain : ChainRuntime} {byId : HashMap ProviderId ProviderHandle}
  {ctx : RequestContext} {policy : MethodPolicy} {maxAttempts remaining r n : Nat} {st st' : LoopState tower}
  {provider : ProviderHandle} {backoff : tower.Backoff} {providers : Finset ProviderId}

theorem mem_selectableAtFirst {p : ProviderId} :
    p ∈ selectableAtFirst env chain ctx policy ↔ Selectable env chain ctx policy 0 p := by
  rw [selectableAtFirst, Finset.mem_filter]
  exact ⟨And.right, fun h => ⟨h.inChain, h⟩⟩

theorem nextProvider_override (htable : chain.InTable byId) (htried : st.tried ⊆ chain.providers)
    (hnext : nextProvider env chain byId ctx policy st = (some provider, n)) :
    ∀ o ∈ ctx.providerOverride, o ∈ chain.providers := by
  intro o ho
  by_cases h : o ∈ st.tried
  · exact htried h
  · exact (selectProvider_mem htable.ids htable.providers (congrArg Prod.fst hnext)).2.2 o ho h

/-- What is selected has not been tried, is the provider of its id, and could be selected at one of the readings. -/
theorem nextProvider_selectable (htable : chain.InTable byId) (htried : st.tried ⊆ chain.providers)
    (hnext : nextProvider env chain byId ctx policy st = (some provider, n)) :
    provider.id ∉ st.tried ∧ byId.lookup provider.id = some provider ∧
      ∃ m, Reads env chain byId ctx policy st m ∧ Selectable env chain ctx policy m provider.id := by
  have hover := nextProvider_override htable htried hnext
  have hsel : (selectProvider env chain byId ctx st.tried policy st.reading).1 = some provider :=
    congrArg Prod.fst hnext
  obtain ⟨hin, huntried, -⟩ := selectProvider_mem htable.ids htable.providers hsel
  unfold Reads nextProvider
  rcases selectProvider_cases env chain byId ctx st.tried policy st.reading with
    ⟨p, -, -, hresult⟩ | ⟨p, handle, huntried', -, hlookup, havailable, hresult⟩ | ⟨m, hle, -, -, hresult⟩
  · rw [hresult] at hsel
    cases hsel
  · rw [hresult] at hsel ⊢
    cases hsel
    obtain rfl := htable.ids p _ hlookup
    refine ⟨huntried, hlookup, st.reading, ⟨Nat.le_refl _, Nat.lt_succ_self _⟩, hin, hover, havailable, fun hno => ?_⟩
    exact absurd (mem_untriedOverride.mp huntried').1 hno
  · rw [hresult] at hsel ⊢
    obtain ⟨m', excluded, hm, hlt, -, hdraw, havailable⟩ := Source.search_drawn _ _ hsel
    obtain ⟨hpool, -, hpass⟩ := LoadBalancer.select_eq_some hdraw
    exact ⟨huntried, htable.handles _ hpool, m', ⟨Nat.le_trans hle hm, hlt⟩, hin, hover, havailable, fun _ => hpass⟩

/-- While a provider is left that can be selected at all readings of the selection, one is selected. -/
theorem nextProvider_of_left (htable : chain.InTable byId) (hpolicy : policy.Finite)
    (hover : ∀ o ∈ ctx.providerOverride, o ∈ chain.providers) {p : ProviderId} (huntried : p ∉ st.tried)
    (hleft : ∀ m, Reads env chain byId ctx policy st m → Selectable env chain ctx policy m p) :
    (nextProvider env chain byId ctx policy st).1.isSome := by
  unfold Reads nextProvider at hleft
  unfold nextProvider
  rcases selectProvider_cases env chain byId ctx st.tried policy st.reading with
    ⟨o, huntried', hout, -⟩ | ⟨o, handle, -, -, -, -, hresult⟩ | ⟨m, hle, -, hloop, hresult⟩
  · exact absurd (hover o (mem_untriedOverride.mp huntried').1) hout
  · rw [hresult]
    rfl
  · rw [hresult] at hleft ⊢
    have hlast : m < (selectAvailable env chain policy (excludedAtFirst ctx st.tried) m).2 := Source.search_asks _ m
    have hnow := hleft st.reading ⟨Nat.le_refl _, Nat.lt_of_le_of_lt hle hlast⟩
    obtain ⟨handle, hpool, rfl⟩ : ∃ handle ∈ chain.loadBalancer.pool.providers, handle.id = p := by
      have hin := hnow.inChain
      rw [htable.providers] at hin
      exact List.mem_map.mp (List.mem_toFinset.mp hin)
    -- The override would have been taken.
    have hno : handle.id ∉ ctx.providerOverride := by
      intro hover
      rcases (hloop _ (mem_untriedOverride.mpr ⟨hover, huntried⟩)).2 with hunknown | hshut
      · rw [htable.handles _ hpool] at hunknown
        cases hunknown
      · rw [hnow.available] at hshut
        cases hshut
    refine selectAvailable_isSome_of_lasting hpolicy hpool (notMem_excludedAtFirst.mpr ⟨hno, huntried⟩) ?_ ?_
    · exact fun m' hm hlt => (hleft m' ⟨Nat.le_trans hle hm, hlt⟩).available
    · exact fun m' hm hlt => (hleft m' ⟨Nat.le_trans hle hm, hlt⟩).passes hno

/-- Enough for `remaining` attempts: what is left of the providers, or one of them on which no attempt fails. -/
def EnoughLeft (env : Env) (byId : HashMap ProviderId ProviderHandle) (policy : MethodPolicy)
    (providers : Finset ProviderId) (remaining : Nat) (tried : Finset ProviderId) : Prop :=
  remaining ≤ (providers \ tried).card ∨ ∃ p ∈ providers \ tried, ∀ n, ¬AttemptFails env byId policy n p

theorem EnoughLeft.insert {tried : Finset ProviderId} (h : EnoughLeft env byId policy providers (remaining + 1) tried)
    {p : ProviderId} (hfails : AttemptFails env byId policy n p) :
    EnoughLeft env byId policy providers remaining (insert p tried) := by
  rcases h with hcard | ⟨q, hq, hnever⟩
  · left
    rw [Finset.sdiff_insert]
    have hle := Finset.pred_card_le_card_erase (s := providers \ tried) (a := p)
    omega
  · obtain ⟨hmem, huntried⟩ := Finset.mem_sdiff.mp hq
    refine .inr ⟨q, Finset.mem_sdiff.mpr ⟨hmem, fun hnow => ?_⟩, hnever⟩
    rcases Finset.mem_insert.mp hnow with rfl | hnow
    · exact hnever n hfails
    · exact huntried hnow

theorem EnoughLeft.exists_left {tried : Finset ProviderId} (h : EnoughLeft env byId policy providers remaining tried)
    (hpos : 0 < remaining) : ∃ p ∈ providers, p ∉ tried := by
  have hleft : ∃ p, p ∈ providers \ tried := by
    rcases h with hcard | ⟨p, hp, -⟩
    · exact Finset.card_pos.mp (Nat.lt_of_lt_of_le hpos hcard)
    · exact ⟨p, hp⟩
  obtain ⟨p, hp⟩ := hleft
  exact ⟨p, Finset.mem_sdiff.mp hp⟩

/-- A failed attempt tries one provider of the chain, so enough of them for the attempts to go are left after any
    number. -/
theorem failsTo_enough (htable : chain.InTable byId)
    (hfails : FailsTo env chain byId ctx policy maxAttempts remaining st r st') (htried : st.tried ⊆ chain.providers)
    (h : EnoughLeft env byId policy providers remaining st.tried) :
    st'.tried ⊆ chain.providers ∧ EnoughLeft env byId policy providers r st'.tried := by
  refine hfails.induct (P := fun remaining st => st.tried ⊆ chain.providers ∧
    EnoughLeft env byId policy providers remaining st.tried) ?_ ⟨htried, h⟩
  rintro _ st provider n message hnext hfails ⟨hsub, henough⟩
  obtain ⟨-, hlookup, m, -, hselectable⟩ := nextProvider_selectable htable hsub hnext
  exact ⟨Finset.insert_subset hselectable.inChain hsub, henough.insert ⟨provider, message, hlookup, hfails⟩⟩

/-- A provider is selected in this state, and it can only be one of these. -/
def SelectsAmong (env : Env) (chain : ChainRuntime) (byId : HashMap ProviderId ProviderHandle) (ctx : RequestContext)
    (policy : MethodPolicy) (providers : Finset ProviderId) (st : LoopState tower) : Prop :=
  (nextProvider env chain byId ctx policy st).1.isSome ∧ ∀ m p, Reads env chain byId ctx policy st m → p ∉ st.tried →
    Selectable env chain ctx policy m p → p ∈ providers

/-- If one of these providers is selected for every attempt of the budget, and all attempts fail, then there are as
    many of them as there are attempts. -/
theorem card_of_selects (htable : chain.InTable byId) (hfails : ∀ p ∈ providers, ∀ n, AttemptFails env byId policy n p)
    (hsub : st.tried ⊆ chain.providers) (htried : st.tried ⊆ providers)
    (hnow : 0 < remaining → SelectsAmong env chain byId ctx policy providers st)
    (hlater : ∀ r st', FailsTo env chain byId ctx policy maxAttempts remaining st r st' → 0 < r →
      SelectsAmong env chain byId ctx policy providers st') : st.tried.card + remaining ≤ providers.card := by
  induction remaining generalizing st with
  | zero => exact Finset.card_le_card htried
  | succ remaining ih =>
    obtain ⟨hsome, hamong⟩ := hnow (Nat.succ_pos remaining)
    rcases hstep : nextProvider env chain byId ctx policy st with ⟨_ | provider, n⟩
    · rw [hstep] at hsome
      cases hsome
    obtain ⟨huntried, hlookup, m, hreads, hselectable⟩ := nextProvider_selectable htable hsub hstep
    have hmem := hamong m provider.id hreads huntried hselectable
    obtain ⟨handle, message, hlookup', hfail⟩ := hfails _ hmem n
    obtain rfl := Option.some.inj (hlookup.symm.trans hlookup')
    let after := st.afterFailure maxAttempts remaining provider message n
    have hrest : after.tried.card + remaining ≤ providers.card :=
      ih (Finset.insert_subset hselectable.inChain hsub) (Finset.insert_subset hmem htried)
        (hlater _ _ (.once hstep hfail)) fun r st' hreach => hlater r st' (.more hstep hfail hreach)
    have hcard : after.tried.card = st.tried.card + 1 := Finset.card_insert_of_notMem huntried
    omega

/-- With enough providers that can be selected until they are tried, a failed attempt that leaves budget is followed
    by another one. -/
theorem next_of_enough (htable : chain.InTable byId) (hpolicy : policy.Finite)
    (hstays : ∀ p ∈ providers, StaysSelectable env chain byId ctx policy backoff p)
    (henough : EnoughAmong env byId policy providers)
    (hfails : FailsTo env chain byId ctx policy (max policy.maxRetries 1) (max policy.maxRetries 1) (.start backoff)
      r st) (hpos : 0 < r) : (nextProvider env chain byId ctx policy st).1.isSome := by
  have hnone : (LoopState.start backoff).tried ⊆ chain.providers := Finset.empty_subset _
  have hleft : EnoughLeft env byId policy providers (max policy.maxRetries 1) ∅ := by
    unfold EnoughLeft
    rw [Finset.sdiff_empty]
    refine henough.imp_left fun hcard => ?_
    have hlt := failsTo_lt hfails
    omega
  obtain ⟨provider, n, hnext⟩ := failsTo_first hfails
  obtain ⟨p, hp, huntried⟩ := (failsTo_enough htable hfails hnone hleft).2.exists_left hpos
  exact nextProvider_of_left htable hpolicy (nextProvider_override htable hnone hnext) huntried
    (hstays p hp r st ⟨hpos, .inr hfails⟩ huntried)

/-- Without disturbance, another attempt after each failed one takes enough of the providers that could be selected
    at first. -/
theorem enough_of_next (htable : chain.InTable byId) (hpolicy : policy.Finite)
    (hquiet : Undisturbed env chain byId ctx policy backoff)
    (hagain : ∀ r st, FailsTo env chain byId ctx policy (max policy.maxRetries 1) (max policy.maxRetries 1)
      (.start backoff) r st → 0 < r → (nextProvider env chain byId ctx policy st).1.isSome) :
    selectableAtFirst env chain ctx policy = ∅ ∨
      EnoughAmong env byId policy (selectableAtFirst env chain ctx policy) := by
  by_contra hnot
  obtain ⟨hsome, hfew, hsometimes⟩ : (selectableAtFirst env chain ctx policy).Nonempty ∧
      max 1 (selectableAtFirst env chain ctx policy).card < policy.maxRetries ∧
      ∀ p ∈ selectableAtFirst env chain ctx policy, ∃ n, AttemptFails env byId policy n p := by
    simpa [EnoughAmong, Finset.nonempty_iff_ne_empty] using hnot
  have hfails : ∀ p ∈ selectableAtFirst env chain ctx policy, ∀ n, AttemptFails env byId policy n p := by
    intro p hp n
    obtain ⟨m, handle, message, hlookup, t, hforward⟩ := hsometimes p hp
    refine ⟨handle, message, hlookup, t, ?_⟩
    rw [hquiet.upstream n, ← hquiet.upstream m, hforward]
  have hbegins : Begins env chain byId ctx policy backoff (max policy.maxRetries 1) (.start backoff) :=
    ⟨Nat.lt_of_lt_of_le Nat.zero_lt_one (Nat.le_max_right ..), .inl ⟨rfl, rfl⟩⟩
  have hamong : ∀ r st, Begins env chain byId ctx policy backoff r st → ∀ m p, Reads env chain byId ctx policy st m →
      p ∉ st.tried → Selectable env chain ctx policy m p → p ∈ selectableAtFirst env chain ctx policy :=
    fun r st hst m p hm hp hsel => mem_selectableAtFirst.mpr ((hquiet.selectable r st hst p hp m hm).mp hsel)
  obtain ⟨p, hp⟩ := hsome
  have hp := mem_selectableAtFirst.mp hp
  have hfirst : (nextProvider env chain byId ctx policy (.start backoff)).1.isSome :=
    nextProvider_of_left htable hpolicy hp.override (Finset.notMem_empty p) fun m hm =>
      (hquiet.selectable _ _ hbegins p (Finset.notMem_empty p) m hm).mpr hp
  have hle : 0 + max policy.maxRetries 1 ≤ (selectableAtFirst env chain ctx policy).card :=
    card_of_selects htable hfails (Finset.empty_subset _) (Finset.empty_subset _)
      (fun _ => ⟨hfirst, hamong _ _ hbegins⟩)
      fun r st hreach hpos => ⟨hagain r st hreach hpos, hamong r st ⟨hpos, .inr hreach⟩⟩
  omega

end Left

/-- The only chain of the configuration. -/
def retryingChain (maxRetries : UInt8) (names : List String) : ChainRuntime :=
  buildChainRuntime id ⟨"default"⟩ [] .weightedRandom .balanced
    ((retryingConfig maxRetries names).providers.map ProviderConfig.intoHandle) (retryingConfig maxRetries names)
    ⟨Duration.fromMillis 5000, .balanced, maxRetries.toNat, .fin 1, ∅, some .builtin, ∅, ⟨[], []⟩⟩

theorem fails_quietEnv (policy : MethodPolicy) (provider : ProviderHandle) (n : Nat) :
    FailsWith (quietEnv ∅) policy provider n "provider request timed out" := ⟨_, rfl⟩

theorem quietEnv_undisturbed {tower : Tower} (states : HealthStates) (chain : ChainRuntime)
    (byId : HashMap ProviderId ProviderHandle) (ctx : RequestContext) (policy : MethodPolicy)
    (backoff : tower.Backoff) : Undisturbed (quietEnv states) chain byId ctx policy backoff where
  selectable _ _ _ _ _ _ _ := ⟨fun h => ⟨h.inChain, h.override, h.available, h.passes⟩,
    fun h => ⟨h.inChain, h.override, h.available, h.passes⟩⟩
  upstream _ _ := rfl

end Rpceth
