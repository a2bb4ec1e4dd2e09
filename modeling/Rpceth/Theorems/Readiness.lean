import Rpceth.Server.Admin
import Rpceth.Theorems.Selection

/-! What the readiness check answers, and what the answer says about the requests: after `ready` every request is
    tried on some provider, and a chain that is reported without a provider tries none. -/

namespace Rpceth
open Lib

section
variable {order : SetOrder} {available : ChainKey → ProviderId → Bool} {state : ProxyState}

/-! ### The loops -/

/-- The loop over providers that are all known. -/
theorem checkProviders_eq (key : ChainKey) {ids : List ProviderId}
    (hids : ∀ p ∈ ids, (state.chainProviderHandle p).isSome) (c : ChainCheck) :
    ids.foldl (checkProvider available state key) c =
      { ready := c.ready && ids.all (available key)
        issues := c.issues ++ (ids.filter fun p => !available key p).map (providerIssue key.text)
        chainProviders := c.chainProviders ++ ids.filterMap fun p =>
          (state.chainProviderHandle p).map fun handle => providerStatus handle p (available key p)
        availableInChain := c.availableInChain + ids.countP (available key)
        totalInChain := c.totalInChain + ids.length } := by
  induction ids generalizing c with
  | nil => simp
  | cons p ids ih =>
    obtain ⟨handle, hhandle⟩ := Option.isSome_iff_exists.mp (hids p List.mem_cons_self)
    rw [List.foldl_cons, ih fun q hq => hids q (List.mem_cons_of_mem _ hq)]
    cases havailable : available key p <;>
      simp [checkProvider, hhandle, havailable, Nat.add_assoc, Nat.add_comm 1]

/-- The issues of a chain. -/
def issuesOf (order : SetOrder) (available : ChainKey → ProviderId → Bool) (entry : ChainKey × ChainRuntime) :
    List String :=
  ((order.toList entry.2.providers).filter fun p => !available entry.1 p).map (providerIssue entry.1.text) ++
    if ∀ p ∈ entry.2.providers, available entry.1 p = false then [chainIssue entry.1.text] else []

/-- A chain is ready if it has a provider and all are available. -/
def ReadyChain (available : ChainKey → ProviderId → Bool) (entry : ChainKey × ChainRuntime) : Prop :=
  entry.2.providers.Nonempty ∧ ∀ p ∈ entry.2.providers, available entry.1 p = true

theorem issuesOf_eq_nil_iff {entry : ChainKey × ChainRuntime} :
    issuesOf order available entry = [] ↔ ReadyChain available entry := by
  obtain ⟨key, chain⟩ := entry
  simp only [issuesOf, ReadyChain, List.append_eq_nil_iff, List.map_eq_nil_iff, List.filter_eq_nil_iff,
    order.mem_toList, Bool.not_eq_true', Bool.not_eq_false, ite_eq_right_iff, List.cons_ne_nil, imp_false]
  constructor
  · rintro ⟨hall, hsome⟩
    refine ⟨?_, hall⟩
    by_contra hempty
    rw [Finset.not_nonempty_iff_eq_empty] at hempty
    exact hsome fun p hp => absurd hp (hempty ▸ Finset.notMem_empty p)
  · rintro ⟨⟨p, hp⟩, hall⟩
    refine ⟨hall, fun hnone => ?_⟩
    have hfalse := hnone p hp
    rw [hall p hp] at hfalse
    cases hfalse

/-- What the check says of a chain. -/
def statusOf (order : SetOrder) (available : ChainKey → ProviderId → Bool) (state : ProxyState) (key : ChainKey)
    (chain : ChainRuntime) : Json :=
  .object [("chain", .string key.text),
    ("available_providers", .number (toString (chain.providers.filter fun p => available key p).card)),
    ("total_providers", .number (toString chain.providers.card)),
    ("providers", .array ((order.toList chain.providers).filterMap fun p =>
      (state.chainProviderHandle p).map fun handle => providerStatus handle p (available key p)))]

theorem countP_toList (order : SetOrder) (s : Finset ProviderId) (f : ProviderId → Bool) :
    (order.toList s).countP f = (s.filter fun p => f p).card := by
  rw [List.countP_eq_length_filter, ← List.toFinset_card_of_nodup ((order.nodup_toList s).filter _)]
  congr 1
  ext p
  simp [order.mem_toList]

theorem length_toList (order : SetOrder) (s : Finset ProviderId) : (order.toList s).length = s.card := by
  rw [← List.toFinset_card_of_nodup (order.nodup_toList s)]
  congr 1
  ext p
  simp [order.mem_toList]

/-- One more chain, as long as the check is ready exactly if there are no issues. -/
theorem checkChain_eq {key : ChainKey} {chain : ChainRuntime}
    (hids : ∀ p ∈ chain.providers, (state.chainProviderHandle p).isSome) {r : ReadinessCheck}
    (hr : r.ready = r.issues.isEmpty) :
    checkChain order available state r (key, chain) =
      { ready := (r.issues ++ issuesOf order available (key, chain)).isEmpty
        issues := r.issues ++ issuesOf order available (key, chain)
        providerStatuses := r.providerStatuses.insert key.text (statusOf order available state key chain) } := by
  have hready : (order.toList chain.providers).all (available key) =
      ((order.toList chain.providers).filter fun p => !available key p).isEmpty := by
    rw [Bool.eq_iff_iff, List.all_eq_true, List.isEmpty_iff, List.filter_eq_nil_iff]
    simp
  have hnone : (chain.providers.filter fun p => available key p).card = 0 ↔
      ∀ p ∈ chain.providers, available key p = false := by
    simp [Finset.card_eq_zero, Finset.filter_eq_empty_iff]
  unfold checkChain
  dsimp only
  rw [checkProviders_eq key fun p hp => hids p (order.mem_toList.mp hp)]
  simp only [Nat.zero_add, List.nil_append, hr, hready, chainStatus, statusOf, countP_toList, length_toList, issuesOf]
  by_cases hall : ∀ p ∈ chain.providers, available key p = false
  · rw [if_pos (hnone.mpr hall), if_pos hall]
    simp
  · rw [if_neg (mt hnone.mp hall), if_neg hall]
    simp only [List.append_nil, ReadinessCheck.mk.injEq, and_true]
    rw [Bool.eq_iff_iff]
    simp

theorem checkChains_eq {l : List (ChainKey × ChainRuntime)}
    (hids : ∀ entry ∈ l, ∀ p ∈ entry.2.providers, (state.chainProviderHandle p).isSome) {r : ReadinessCheck}
    (hr : r.ready = r.issues.isEmpty) :
    l.foldl (checkChain order available state) r =
      { ready := (r.issues ++ l.flatMap (issuesOf order available)).isEmpty
        issues := r.issues ++ l.flatMap (issuesOf order available)
        providerStatuses := HashMap.insertAll r.providerStatuses
          (l.map fun entry => (entry.1.text, statusOf order available state entry.1 entry.2)) } := by
  induction l generalizing r with
  | nil => simp [← hr]
  | cons entry l ih =>
    rw [List.foldl_cons, checkChain_eq (hids entry List.mem_cons_self) hr,
      ih (fun e he => hids e (List.mem_cons_of_mem _ he)) rfl]
    simp

theorem mem_issuesOf {entry : ChainKey × ChainRuntime} {text : String} :
    text ∈ issuesOf order available entry ↔
      (∃ p ∈ entry.2.providers, available entry.1 p = false ∧ text = providerIssue entry.1.text p) ∨
      (∀ p ∈ entry.2.providers, available entry.1 p = false) ∧ text = chainIssue entry.1.text := by
  simp only [issuesOf, List.mem_append, List.mem_map, List.mem_filter, order.mem_toList, Bool.not_eq_true']
  refine or_congr ?_ ?_
  · refine exists_congr fun p => ⟨?_, ?_⟩
    · rintro ⟨⟨hp, hfalse⟩, rfl⟩
      exact ⟨hp, hfalse, rfl⟩
    · rintro ⟨hp, hfalse, rfl⟩
      exact ⟨⟨hp, hfalse⟩, rfl⟩
  · split
    · rename_i hall
      rw [List.mem_singleton, and_iff_right hall]
    · rename_i hsome
      exact iff_of_false List.not_mem_nil fun h => hsome h.1

end

/-! ### The check of a state -/

section
variable {decode : String → String} {globs : Globs} {config : ProxyConfig} {state : ProxyState} {order : SetOrder}
  {available : ChainKey → ProviderId → Bool}

theorem readinessCheck_eq (hstate : ProxyState.new decode globs config = .ok state) :
    readinessCheck order available state =
      { ready := (state.chains.pairs.flatMap (issuesOf order available)).isEmpty
        issues := state.chains.pairs.flatMap (issuesOf order available)
        providerStatuses := HashMap.collect
          (state.chains.pairs.map fun entry => (entry.1.text, statusOf order available state entry.1 entry.2)) } := by
  refine (checkChains_eq ?_ rfl).trans (by simp [HashMap.collect])
  rintro ⟨key, chain⟩ hentry p hp
  obtain ⟨handle, hhandle, -⟩ := exists_handle hstate (HashMap.mem_pairs.mp hentry) hp
  exact Option.isSome_iff_exists.mpr ⟨handle, hhandle⟩

theorem ready_iff (hstate : ProxyState.new decode globs config = .ok state) :
    (readinessCheck order available state).ready = true ↔
      ∀ key chain, state.chains.lookup key = some chain → ReadyChain available (key, chain) := by
  rw [readinessCheck_eq hstate]
  simp only [List.isEmpty_iff, List.flatMap_eq_nil_iff, issuesOf_eq_nil_iff]
  constructor
  · exact fun h key chain hchain => h (key, chain) (HashMap.mem_pairs.mpr hchain)
  · exact fun h entry hentry => h entry.1 entry.2 (HashMap.mem_pairs.mp hentry)

theorem mem_issues_iff (hstate : ProxyState.new decode globs config = .ok state) {text : String} :
    text ∈ (readinessCheck order available state).issues ↔ ∃ key chain, state.chains.lookup key = some chain ∧
      ((∃ p ∈ chain.providers, available key p = false ∧ text = providerIssue key.text p) ∨
        (∀ p ∈ chain.providers, available key p = false) ∧ text = chainIssue key.text) := by
  rw [readinessCheck_eq hstate]
  simp only [List.mem_flatMap, mem_issuesOf, Prod.exists, HashMap.mem_pairs]

theorem lookup_providerStatuses (hstate : ProxyState.new decode globs config = .ok state) {key : ChainKey}
    {chain : ChainRuntime} (hchain : state.chains.lookup key = some chain) :
    (readinessCheck order available state).providerStatuses.lookup key.text =
      some (statusOf order available state key chain) := by
  rw [readinessCheck_eq hstate]
  refine HashMap.lookup_collect_of_nodup ?_ (List.mem_map.mpr ⟨(key, chain), HashMap.mem_pairs.mpr hchain, rfl⟩)
  have hkeys := HashMap.pairs_keys_nodup state.chains
  have htext : Function.Injective ChainKey.text := by
    rintro ⟨a⟩ ⟨b⟩ rfl
    rfl
  have hmap := hkeys.map htext
  rwa [List.map_map] at hmap ⊢

end

/-- The check answers 200 exactly if every chain has a provider and all circuits were available, and 503 otherwise. It
    names each circuit that was not, and each chain with none that was, and it counts for every chain the providers
    that were available; in whatever order the chains and their providers are iterated. -/
theorem readiness_exact (decode : String → String) (globs : Globs) (config : ProxyConfig) (state : ProxyState)
    (hstate : ProxyState.new decode globs config = .ok state) (order : SetOrder)
    (available : ChainKey → ProviderId → Bool) (timestamp : String) :
    let check := readinessCheck order available state
    let response := readinessHandler order available state timestamp
    (response.status = 200 ∨ response.status = 503) ∧
      (response.status = 200 ↔
        ∀ key chain, state.chains.lookup key = some chain → ReadyChain available (key, chain)) ∧
      (∀ text, text ∈ check.issues ↔ ∃ key chain, state.chains.lookup key = some chain ∧
        ((∃ p ∈ chain.providers, available key p = false ∧ text = providerIssue key.text p) ∨
          (∀ p ∈ chain.providers, available key p = false) ∧ text = chainIssue key.text)) ∧
      ∀ key chain, state.chains.lookup key = some chain →
        check.providerStatuses.lookup key.text = some (statusOf order available state key chain) := by
  intro check response
  have hstatus : response.status = if check.ready then 200 else 503 := rfl
  refine ⟨?_, ?_, fun text => mem_issues_iff hstate, fun key chain hchain => lookup_providerStatuses hstate hchain⟩
  · rw [hstatus]
    split <;> simp
  · have hiff : check.ready = true ↔ _ := ready_iff hstate
    rw [hstatus, ← hiff]
    cases hready : check.ready <;> simp [check, hready] at hready ⊢

/-- Some order of the sets. -/
noncomputable def anyOrder : SetOrder where
  toList s := s.toList
  nodup_toList s := s.nodup_toList
  mem_toList := Finset.mem_toList

/-- One of two circuits is shut: the check names it, counts the other one, and answers 503. -/
theorem readiness_exact_shut : ∃ (state : ProxyState) (chain : ChainRuntime),
    ProxyState.new id literalGlobs (retryingConfig 3 ["a", "b"]) = .ok state ∧
    state.chains.lookup ⟨"default"⟩ = some chain ∧
    let available (_ : ChainKey) (p : ProviderId) : Bool := p.text == "b"
    let check := readinessCheck anyOrder available state
    (readinessHandler anyOrder available state "").status = 503 ∧
      providerIssue "default" ⟨"a"⟩ ∈ check.issues ∧
      check.providerStatuses.lookup "default" = some (statusOf anyOrder available state ⟨"default"⟩ chain) ∧
      (chain.providers.filter fun p => available ⟨"default"⟩ p).card = 1 := by
  refine ⟨_, _, rfl, rfl, ?_⟩
  intro available check
  obtain ⟨hcodes, hready, hissues, hstatuses⟩ := readiness_exact id literalGlobs (retryingConfig 3 ["a", "b"]) _ rfl
    anyOrder available ""
  refine ⟨hcodes.resolve_left fun h => ?_, (hissues _).mpr ⟨⟨"default"⟩, _, rfl, .inl ⟨⟨"a"⟩, ?_, rfl, rfl⟩⟩,
    hstatuses _ _ rfl, by decide⟩
  · have hshut := (hready.mp h ⟨"default"⟩ _ rfl).2 ⟨"a"⟩ (by decide)
    cases hshut
  · decide

/-! ### What it says about the requests -/

theorem chainIssue_inj {a b : String} (h : chainIssue a = chainIssue b) : a = b := by
  have hlist : ("No providers are available for chain " ++ a).toList =
      ("No providers are available for chain " ++ b).toList := congrArg String.toList h
  rw [String.toList_append, String.toList_append] at hlist
  exact String.toList_inj.mp (List.append_cancel_left hlist)

theorem providerIssue_ne_chainIssue (a b : String) (p : ProviderId) : providerIssue a p ≠ chainIssue b := by
  intro h
  have hprovider : (providerIssue a p).toList.head? = some 'P' := by
    simp only [providerIssue, String.toList_append, List.append_assoc]
    rfl
  have hchain : ("No providers are available for chain " ++ b).toList.head? = some 'N' := by
    rw [String.toList_append]
    rfl
  rw [h] at hprovider
  cases hchain.symm.trans hprovider

section
variable {decode : String → String} {globs : Globs} {config : ProxyConfig} {state : ProxyState} {key : ChainKey}
  {chain : ChainRuntime} {env : Env} {states : HealthStates} {breaker : CircuitBreaker} {ctx : RequestContext}
  {policy : MethodPolicy}

/-- One provider passes the health filter. -/
theorem exists_passes (hstate : ProxyState.new decode globs config = .ok state)
    (hchain : state.chains.lookup key = some chain) (hover : HealthService.Over states chain.loadBalancer.pool)
    (hne : chain.providers.Nonempty) (policy : MethodPolicy) :
    ∃ h ∈ chain.loadBalancer.pool.providers,
      (chain.loadBalancer.healthFilter (.fixed states) (some policy)).passes h.id = true := by
  have hpool : chain.loadBalancer.pool.providers ≠ [] := by
    obtain ⟨p, hp⟩ := hne
    rw [providers_eq_pool hstate hchain] at hp
    obtain ⟨h, hh, -⟩ := List.mem_map.mp (List.mem_toFinset.mp hp)
    exact List.ne_nil_of_mem hh
  have hhealth : ∃ health, chain.loadBalancer.health = some health := by
    obtain ⟨_, _, tolerance, providers, -, rfl, -⟩ := proxyState_chain hstate hchain
    have hempty : providers.isEmpty = false := List.isEmpty_eq_false_iff.mpr hpool
    exact ⟨.new providers tolerance, by simp [buildChainRuntime, LoadBalancer.new, hempty]⟩
  obtain ⟨health, hhealth⟩ := hhealth
  obtain ⟨h, hh⟩ := List.exists_mem_of_ne_nil _ hpool
  obtain ⟨s, hs⟩ := hover.covers h hh
  obtain ⟨best, hbest⟩ := HealthService.exists_best hs
  exact (exists_passes_iff hhealth hpool hover (some policy) hbest).mpr (.inr (hbest.within _ _))

theorem selectProvider_isSome_of_available (hstate : ProxyState.new decode globs config = .ok state)
    (hchain : state.chains.lookup key = some chain) (hfixed : env.Fixed states breaker)
    (hover : HealthService.Over states chain.loadBalancer.pool) (hpolicy : policy.Finite)
    (hne : chain.providers.Nonempty) (havailable : ∀ p ∈ chain.providers, env.isAvailable 0 p = true)
    (hctx : ∀ p ∈ ctx.providerOverride, p ∈ chain.providers) :
    ((selectProvider env chain state.providersById ctx ∅ policy 0).1).isSome := by
  have hpool := providers_eq_pool hstate hchain
  rcases selectProvider_cases env chain state.providersById ctx ∅ policy 0 with
    ⟨p, huntried, hout, -⟩ | ⟨p, handle, -, -, -, -, hresult⟩ | ⟨m, hle, -, hloop, hresult⟩
  · exact absurd (hctx p (mem_untriedOverride.mp huntried).1) hout
  · rw [hresult]
    rfl
  · -- An override would have been taken.
    have hnone : ctx.providerOverride = none := by
      refine Option.eq_none_iff_forall_ne_some.mpr fun p hp => ?_
      obtain ⟨hin, hshut⟩ := hloop p (mem_untriedOverride.mpr ⟨hp, Finset.notMem_empty p⟩)
      obtain ⟨handle, hlookup, -⟩ := exists_handle hstate hchain hin
      simp [hlookup, havailable p hin] at hshut
    obtain ⟨h, hh, hpass⟩ := exists_passes hstate hchain hover hne policy
    rw [hresult]
    refine selectAvailable_isSome hfixed hpolicy hh ?_ ?_ hpass
    · simp [excludedAtFirst, hnone]
    · exact hfixed.available hle (havailable h.id (hpool ▸ ProviderPool.mem_ids hh))

theorem selectProvider_none_of_shut (hstate : ProxyState.new decode globs config = .ok state)
    (hchain : state.chains.lookup key = some chain)
    (hshut : ∀ n, ∀ p ∈ chain.providers, env.isAvailable n p = false) :
    (selectProvider env chain state.providersById ctx ∅ policy 0).1 = none := by
  have hpool := providers_eq_pool hstate hchain
  rcases selectProvider_cases env chain state.providersById ctx ∅ policy 0 with
    ⟨p, -, -, hresult⟩ | ⟨p, handle, -, hin, -, havailable, -⟩ | ⟨m, -, -, -, hresult⟩
  · rw [hresult]
  · rw [hshut 0 p hin] at havailable
    cases havailable
  · rw [hresult]
    refine Option.eq_none_iff_forall_ne_some.mpr fun h hsel => ?_
    obtain ⟨m', _, -, -, -, hdraw, havailable⟩ := Source.search_drawn _ _ hsel
    have hin : h.id ∈ chain.providers := hpool ▸ ProviderPool.mem_ids (LoadBalancer.select_eq_some hdraw).1
    rw [hshut m' h.id hin] at havailable
    cases havailable

variable {tower : Tower} {run : LoopRun}

theorem requestLoop_eq (hrun : requestLoop tower env chain state.providersById ctx policy = some run) :
    ∃ remaining backoff, run = attempts tower env chain state.providersById ctx policy (remaining + 1) (remaining + 1)
      { tried := ∅, lastError := none, backoff, reading := 0 } := by
  have hpos : max policy.maxRetries 1 = (max policy.maxRetries 1 - 1) + 1 :=
    (Nat.sub_add_cancel (Nat.le_max_right _ _)).symm
  unfold requestLoop at hrun
  rw [hpos] at hrun
  split at hrun
  · exact ⟨_, none, (Option.some.inj hrun).symm⟩
  · obtain ⟨backoff, -, rfl⟩ := Option.map_eq_some_iff.mp hrun
    exact ⟨_, some backoff, rfl⟩

theorem requestLoop_tries (hrun : requestLoop tower env chain state.providersById ctx policy = some run)
    {provider : ProviderHandle}
    (hsel : (selectProvider env chain state.providersById ctx ∅ policy 0).1 = some provider) :
    ∃ rest, run.trace = .onRequestStart provider.id :: rest := by
  obtain ⟨remaining, backoff, rfl⟩ := requestLoop_eq hrun
  rcases hselect : selectProvider env chain state.providersById ctx ∅ policy 0 with ⟨selected, n⟩
  rw [hselect] at hsel
  cases hsel
  rw [attempts, hselect]
  dsimp only
  split
  · exact ⟨_, rfl⟩
  · exact ⟨_, rfl⟩
  · exact ⟨_, rfl⟩

theorem requestLoop_stops (hrun : requestLoop tower env chain state.providersById ctx policy = some run)
    (hsel : (selectProvider env chain state.providersById ctx ∅ policy 0).1 = none) : run = ⟨[], .exhausted none⟩ := by
  obtain ⟨remaining, backoff, rfl⟩ := requestLoop_eq hrun
  rcases hselect : selectProvider env chain state.providersById ctx ∅ policy 0 with ⟨selected, n⟩
  rw [hselect] at hsel
  cases hsel
  rw [attempts, hselect]

end

/-- If the check answers 200, and the circuits and the health states of a chain stay as it found them, then every
    request to it for which a backoff can be made, or which has none, starts on one of its providers, unless it asks
    for one outside the chain. If the check reports that no provider of the chain is available, and the clock stands
    as well, then every such request ends without having tried any. -/
theorem readiness_predicts (decode : String → String) (globs : Globs) (config : ProxyConfig)
    (hvalid : validate config = .ok ()) (state : ProxyState) (hstate : ProxyState.new decode globs config = .ok state)
    (order : SetOrder) (available : ChainKey → ProviderId → Bool) (timestamp : String) (key : ChainKey)
    (chain : ChainRuntime) (hchain : state.chains.lookup key = some chain) (env : Env) (states : HealthStates)
    (breaker : CircuitBreaker) (hfixed : env.Fixed states breaker)
    (hover : HealthService.Over states chain.loadBalancer.pool) (hseen : ∀ p, available key p = env.isAvailable 0 p)
    (tower : Tower) (ctx : RequestContext) (method : String) (run : LoopRun)
    (hrun : requestLoop tower env chain state.providersById ctx (chain.methodRegistry.resolve globs (some method)) =
      some run) :
    ((readinessHandler order available state timestamp).status = 200 →
      (∀ p ∈ ctx.providerOverride, p ∈ chain.providers) →
      ∃ p ∈ chain.providers, ∃ rest, run.trace = .onRequestStart p :: rest) ∧
    (chainIssue key.text ∈ (readinessCheck order available state).issues → (∀ n, env.now n = env.now 0) →
      run = ⟨[], .exhausted none⟩) := by
  constructor
  · intro hstatus hctx
    have hready : (readinessCheck order available state).ready = true := by
      by_contra hnot
      simp [readinessHandler, ReadinessCheck.response, hnot] at hstatus
    obtain ⟨hne, hall⟩ := (ready_iff hstate).mp hready key chain hchain
    have hpolicy : (chain.methodRegistry.resolve globs (some method)).Finite := by
      obtain ⟨registry, _, _, _, hreg, rfl, -⟩ := proxyState_chain hstate hchain
      exact resolve_finite hvalid hreg method
    obtain ⟨provider, hsel⟩ := Option.isSome_iff_exists.mp (selectProvider_isSome_of_available hstate hchain hfixed
      hover hpolicy hne (fun p hp => hseen p ▸ hall p hp) hctx)
    obtain ⟨rest, htrace⟩ := requestLoop_tries hrun hsel
    have hin := (selectProvider_mem (fun _ _ => lookup_providersById hstate) (providers_eq_pool hstate hchain) hsel).1
    exact ⟨provider.id, hin, rest, htrace⟩
  · intro hissue hclock
    obtain ⟨⟨text⟩, chain', hchain', ⟨p, -, -, heq⟩ | ⟨hnone, heq⟩⟩ := (mem_issues_iff hstate).mp hissue
    · exact absurd heq.symm (providerIssue_ne_chainIssue _ _ _)
    · obtain ⟨keyText⟩ := key
      obtain rfl := chainIssue_inj heq
      obtain rfl := Option.some.inj (hchain'.symm.trans hchain)
      refine requestLoop_stops hrun (selectProvider_none_of_shut hstate hchain fun n p hp => ?_)
      have hshut := hnone p hp
      rw [hseen] at hshut
      unfold Env.isAvailable at hshut ⊢
      rwa [hclock n, hfixed.breaker n, ← hfixed.breaker 0]

/-- Both circuits have opened. -/
def shutEnv : Env :=
  { quietEnv (HealthService.new twoProviders .balanced).state with
    breaker := fun _ =>
      ((CircuitBreaker.new twoProviders { failureThreshold := some 1 }).onFailure 0 ⟨"a"⟩).onFailure 0 ⟨"b"⟩ }

/-- Two providers with closed circuits: a request starts on one of them. With both open, it tries none. -/
theorem readiness_predicts_small : ∃ state chain,
    ProxyState.new id literalGlobs (retryingConfig 3 ["a", "b"]) = .ok state ∧
      state.chains.lookup ⟨"default"⟩ = some chain ∧
      (∃ run, requestLoop doublingTower (quietEnv (HealthService.new twoProviders .balanced).state) chain
          state.providersById {} (chain.methodRegistry.resolve literalGlobs (some "eth_call")) = some run ∧
        ∃ p ∈ chain.providers, ∃ rest, run.trace = .onRequestStart p :: rest) ∧
      requestLoop doublingTower shutEnv chain state.providersById {}
        (chain.methodRegistry.resolve literalGlobs (some "eth_call")) = some ⟨[], .exhausted none⟩ := by
  let open_ (_ : ChainKey) (p : ProviderId) : Bool := (quietEnv ∅).isAvailable 0 p
  let shut (_ : ChainKey) (p : ProviderId) : Bool := shutEnv.isAvailable 0 p
  have hready : ∀ state, ProxyState.new id literalGlobs (retryingConfig 3 ["a", "b"]) = .ok state →
      (readinessHandler anyOrder open_ state "").status = 200 := by
    intro state hstate
    have hall : (readinessCheck anyOrder open_ state).ready = true := by
      refine (ready_iff hstate).mpr fun key chain hchain => ?_
      obtain ⟨_, _, _, providers, -, rfl, ⟨-, -, rfl⟩ | ⟨entry, hentry, -⟩⟩ := proxyState_chain hstate hchain
      · have havailable : ∀ p ∈ (twoProviders.map (·.id)).toFinset, (quietEnv ∅).isAvailable 0 p = true := by decide
        exact ⟨⟨⟨"a"⟩, List.mem_toFinset.mpr List.mem_cons_self⟩, havailable⟩
      · cases hentry
    simp [readinessHandler, ReadinessCheck.response, hall]
  refine ⟨_, _, rfl, rfl, ⟨_, rfl, ?_⟩, ?_⟩
  · exact (readiness_predicts id literalGlobs (retryingConfig 3 ["a", "b"]) (by rfl) _ rfl anyOrder open_ ""
      ⟨"default"⟩ _ rfl (quietEnv _) _ _ (quietEnv_fixed _) (HealthService.over_new _ _) (fun _ => rfl) doublingTower
      {} "eth_call" _ rfl).1 (hready _ rfl) (fun _ hp => nomatch hp)
  · have hissue : ∀ state chain, ProxyState.new id literalGlobs (retryingConfig 3 ["a", "b"]) = .ok state →
        state.chains.lookup ⟨"default"⟩ = some chain → (∀ p ∈ chain.providers, shut ⟨"default"⟩ p = false) →
        chainIssue "default" ∈ (readinessCheck anyOrder shut state).issues :=
      fun _ _ hstate hchain hshut => (mem_issues_iff hstate).mpr ⟨_, _, hchain, .inr ⟨hshut, rfl⟩⟩
    have hfixed : shutEnv.Fixed _ _ := ⟨fun _ => rfl, fun _ => rfl, fun _ _ _ => Nat.le_refl _⟩
    exact congrArg some ((readiness_predicts id literalGlobs (retryingConfig 3 ["a", "b"]) (by rfl) _ rfl anyOrder shut
      "" ⟨"default"⟩ _ rfl shutEnv _ _ hfixed (HealthService.over_new _ _) (fun _ => rfl) doublingTower {} "eth_call"
      _ rfl).2 (hissue _ _ rfl rfl (by decide +kernel)) fun _ => rfl)

end Rpceth
