import Rpceth.Theorems.RequestLoop

/-! What `select_provider` returns while health and breakers stay as they are: the override where it decides, and
    otherwise some provider that the load balancer offers and whose circuit is available, if there is one. -/

namespace Rpceth
open Lib

theorem exists_handle {decode : String → String} {globs : Globs} {config : ProxyConfig} {state : ProxyState}
    (hstate : ProxyState.new decode globs config = .ok state) {key : ChainKey} {chain : ChainRuntime}
    (hchain : state.chains.lookup key = some chain) {p : ProviderId} (hp : p ∈ chain.providers) :
    ∃ handle, state.providersById.lookup p = some handle ∧ handle.id = p := by
  obtain ⟨registry, aliases, tolerance, providers, -, rfl, hproviders⟩ := proxyState_chain hstate hchain
  obtain ⟨handle, hhandle, rfl⟩ := List.mem_map.mp (List.mem_toFinset.mp hp)
  rcases hproviders with ⟨-, -, rfl⟩ | ⟨entry, -, -, rfl⟩
  · obtain ⟨handle', hlookup⟩ := HashMap.exists_lookup_collect hhandle (·.id) id
    have hfound := (congrArg (·.lookup handle.id) (proxyState_providersById hstate)).trans hlookup
    exact ⟨handle', hfound, lookup_providersById hstate hfound⟩
  · obtain ⟨p, -, hlookup⟩ := List.mem_filterMap.mp hhandle
    have hid := lookup_providersById hstate hlookup
    exact ⟨handle, hid ▸ hlookup, rfl⟩

/-- At the `n`-th reading, a provider of the chain that has not been tried, is not the override, passes the health
    filter and has an available circuit. -/
structure Candidate (env : Env) (chain : ChainRuntime) (states : HealthStates) (ctx : RequestContext)
    (tried : Finset ProviderId) (policy : MethodPolicy) (n : Nat) (h : ProviderHandle) : Prop where
  inPool : h ∈ chain.loadBalancer.pool.providers
  untried : h.id ∉ tried
  notOverride : h.id ∉ ctx.providerOverride
  passes : (chain.loadBalancer.healthFilter (.fixed states) (some policy)).passes h.id = true
  available : env.isAvailable n h.id = true

section Selection
variable {env : Env} {chain : ChainRuntime} {ctx : RequestContext} {tried : Finset ProviderId} {policy : MethodPolicy}
  {states : HealthStates} {breaker : CircuitBreaker} {n : Nat} {h : ProviderHandle}

theorem selectAvailable_questions (env : Env) (chain : ChainRuntime) (policy : MethodPolicy)
    (excluded : Finset ProviderId) (n : Nat) :
    (selectAvailable env chain policy excluded n).2 ≤ n + (chain.loadBalancer.pool.ids.card + 1) := by
  have hcard : (chain.loadBalancer.pool.ids \ excluded).card ≤ chain.loadBalancer.pool.ids.card :=
    Finset.card_le_card Finset.sdiff_subset
  refine (Source.search_questions excluded n).trans ?_
  show n + (chain.loadBalancer.pool.ids \ excluded).card + 1 ≤ _
  omega

theorem selectAvailable_candidate (hfixed : env.Fixed states breaker)
    (hsel : (selectAvailable env chain policy (excludedAtFirst ctx tried) n).1 = some h) :
    ∃ m, n ≤ m ∧ m < (selectAvailable env chain policy (excludedAtFirst ctx tried) n).2 ∧
      Candidate env chain states ctx tried policy m h := by
  obtain ⟨m, excluded, hm, hlt, hsub, hdraw, havailable⟩ := Source.search_drawn _ _ hsel
  obtain ⟨hpool, hex, hpass⟩ := LoadBalancer.select_eq_some hdraw
  rw [hfixed.reads] at hpass
  obtain ⟨hover, htried⟩ := notMem_excludedAtFirst.mp fun hmem => hex (hsub hmem)
  exact ⟨m, hm, hlt, hpool, htried, hover, hpass, havailable⟩

end Selection

/-- With the health state and the breakers fixed, `select_provider` is exact. Each selection of the load balancer
    takes one reading, and so does the check of an override that has not been tried; the clock may run on between
    the readings, so that an open circuit can become available. -/
theorem selectProvider_exact (decode : String → String) (globs : Globs) (config : ProxyConfig) (state : ProxyState)
    (hstate : ProxyState.new decode globs config = .ok state) (key : ChainKey) (chain : ChainRuntime)
    (hchain : state.chains.lookup key = some chain) (env : Env) (states : HealthStates) (breaker : CircuitBreaker)
    (hfixed : env.Fixed states breaker) (ctx : RequestContext) (tried : Finset ProviderId) (policy : MethodPolicy)
    (hpolicy : policy.Finite) (n : Nat) :
    let result := selectProvider env chain state.providersById ctx tried policy n
    result.2 ≤ n + (untriedOverride ctx tried).toList.length + (chain.loadBalancer.pool.ids.card + 1) ∧
    (∀ p ∈ untriedOverride ctx tried, p ∉ chain.providers → result.1 = none) ∧
    (∀ p ∈ untriedOverride ctx tried, p ∈ chain.providers → env.isAvailable n p = true →
      ∃ h, result.1 = some h ∧ h.id = p) ∧
    ((∀ p ∈ untriedOverride ctx tried, p ∈ chain.providers ∧ env.isAvailable n p = false) →
      (∀ h, result.1 = some h → ∃ m, n ≤ m ∧ m < result.2 ∧ Candidate env chain states ctx tried policy m h) ∧
      ((∃ h, Candidate env chain states ctx tried policy n h) → result.1.isSome)) := by
  intro result
  rcases selectProvider_cases env chain state.providersById ctx tried policy n with
    ⟨p, huntried, hout, hresult⟩ | ⟨p, handle, huntried, hin, hlookup, havailable, hresult⟩ |
      ⟨m, hle, hlen, hloop, hresult⟩
  · have hp : p ∈ untriedOverride ctx tried := huntried
    refine ⟨?_, fun _ _ _ => congrArg Prod.fst hresult, ?_, fun hall => absurd (hall p hp).1 hout⟩
    · rw [show result.2 = n from congrArg Prod.snd hresult]
      omega
    · intro q hq hin _
      obtain rfl := Option.some.inj (huntried.symm.trans hq)
      exact absurd hin hout
  · have hp : p ∈ untriedOverride ctx tried := huntried
    refine ⟨?_, ?_, ?_, fun hall => absurd havailable (Bool.eq_false_iff.mp (hall p hp).2)⟩
    · rw [show result.2 = n + 1 from congrArg Prod.snd hresult]
      omega
    · intro q hq hout
      obtain rfl := Option.some.inj (huntried.symm.trans hq)
      exact absurd hin hout
    · intro q hq _ _
      obtain rfl := Option.some.inj (huntried.symm.trans hq)
      exact ⟨handle, congrArg Prod.fst hresult, lookup_providersById hstate hlookup⟩
  · rw [show result = _ from hresult]
    refine ⟨?_, fun p hp hout => absurd (hloop p hp).1 hout, fun p hp hin havailable => ?_,
      fun _ => ⟨fun h hsel => ?_, ?_⟩⟩
    · exact (selectAvailable_questions env chain policy _ m).trans (Nat.add_le_add_right hlen _)
    · obtain ⟨handle, hlookup, -⟩ := exists_handle hstate hchain hin
      rcases (hloop p hp).2 with hnone | hshut
      · rw [hlookup] at hnone
        cases hnone
      · exact absurd havailable (Bool.eq_false_iff.mp hshut)
    · obtain ⟨m', hm, hlt, hcandidate⟩ := selectAvailable_candidate hfixed hsel
      exact ⟨m', Nat.le_trans hle hm, hlt, hcandidate⟩
    · rintro ⟨h, hcandidate⟩
      have hex : h.id ∉ excludedAtFirst ctx tried :=
        notMem_excludedAtFirst.mpr ⟨hcandidate.notOverride, hcandidate.untried⟩
      exact selectAvailable_isSome hfixed hpolicy hcandidate.inPool hex (hfixed.available hle hcandidate.available)
        hcandidate.passes

/-- Three providers: the circuit of `b` has opened, and a probe of `c` has failed. -/
def impairedEnv : Env :=
  let providers := (retryingConfig 3 ["a", "b", "c"]).providers.map ProviderConfig.intoHandle
  { quietEnv ((HealthService.new providers .balanced).replay [.failure 0 ⟨⟨"c"⟩, none, .timeout⟩]).state with
    breaker := fun _ => (CircuitBreaker.new providers { failureThreshold := some 1 }).onFailure 0 ⟨"b"⟩ }

/-- With `a` tried and the override to `b` shut, the third provider is found: it is within the balanced tolerance. -/
theorem selectProvider_exact_small :
    ∃ state chain h, ProxyState.new id literalGlobs (retryingConfig 3 ["a", "b", "c"]) = .ok state ∧
      state.chains.lookup ⟨"default"⟩ = some chain ∧
      (selectProvider impairedEnv chain state.providersById { providerOverride := some ⟨"b"⟩ } {⟨"a"⟩}
        (retryingPolicy 3) 0).1 = some h ∧ h.id = ⟨"c"⟩ := by
  have hfixed : impairedEnv.Fixed _ _ := ⟨fun _ => rfl, fun _ => rfl, fun _ _ _ => Nat.le_refl _⟩
  have hpolicy : (retryingPolicy 3).Finite := ⟨plainPolicy_finite.weightMultiplier, plainPolicy_finite.providerWeight⟩
  obtain ⟨hcandidate, hfound⟩ := (selectProvider_exact id literalGlobs (retryingConfig 3 ["a", "b", "c"]) _ rfl
    ⟨"default"⟩ _ rfl impairedEnv _ _ hfixed { providerOverride := some ⟨"b"⟩ } {⟨"a"⟩} (retryingPolicy 3) hpolicy
    0).2.2.2 (by decide +kernel)
  obtain ⟨h, hsel⟩ := Option.isSome_iff_exists.mp (hfound
    ⟨ProviderConfig.intoHandle { id := ⟨"c"⟩, url := "https://c.example" }, by decide, by decide, by decide,
      by decide +kernel, rfl⟩)
  obtain ⟨m, -, -, hc⟩ := hcandidate h hsel
  refine ⟨_, _, h, rfl, rfl, hsel, ?_⟩
  have hpool : h ∈ (retryingConfig 3 ["a", "b", "c"]).providers.map ProviderConfig.intoHandle := hc.inPool
  have huntried := hc.untried
  have hother := hc.notOverride
  simp only [retryingConfig, List.map_cons, List.map_nil, List.mem_cons, List.not_mem_nil, or_false] at hpool
  rcases hpool with rfl | rfl | rfl
  · exact absurd (Finset.mem_singleton_self _) huntried
  · exact absurd rfl hother
  · rfl

end Rpceth
