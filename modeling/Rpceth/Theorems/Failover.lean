import Rpceth.Server.Handler
import Rpceth.Theorems.Eligibility
import Rpceth.Theorems.MethodPolicies

/-! When `select_provider` finds a provider: its loop excludes what it finds behind an open circuit and asks
    the load balancer again, so it gives up only when the load balancer has nothing more to offer. -/

namespace Rpceth
open Lib

theorem MethodPolicy.Follows.multiplier {policy : MethodPolicy} {config : ProxyConfig} {layers : List MethodSettings}
    (h : policy.Follows config layers) (hvalid : ∀ layer ∈ layers, layer.Valid) :
    ∃ q : Rat, policy.weightMultiplier = .fin q ∧ 0 ≤ q ∧ q ≤ 10 := by
  rw [h.weightMultiplier]
  cases hfirst : layers.findSome? (·.weightMultiplier) with
  | none => exact ⟨1, rfl, by norm_num, by norm_num⟩
  | some m =>
    obtain ⟨layer, hlayer, hm⟩ := List.exists_of_findSome?_eq_some hfirst
    exact (hvalid layer hlayer).weightMultiplier m hm

theorem MethodPolicy.Follows.finite {policy : MethodPolicy} {config : ProxyConfig} {layers : List MethodSettings}
    (h : policy.Follows config layers) (hvalid : ∀ layer ∈ layers, layer.Valid) : policy.Finite where
  weightMultiplier := by
    obtain ⟨q, hq, -⟩ := h.multiplier hvalid
    exact ⟨q, hq⟩
  providerWeight p w hw := by
    rw [h.providerWeight] at hw
    obtain ⟨weight, -, rfl⟩ := Option.map_eq_some_iff.mp hw
    exact ⟨weight.toNat, rfl⟩

theorem resolve_multiplier {g : Globs} {config : ProxyConfig} {registry : MethodRegistry}
    (hvalid : validate config = .ok ()) (hreg : MethodRegistry.new g config = .ok registry) (method : String) :
    ∃ q : Rat, (registry.resolve g (some method)).weightMultiplier = .fin q ∧ 0 ≤ q ∧ q ≤ 10 :=
  (resolve_follows hreg method).multiplier
    (layers_valid (validate_eq_ok hvalid).methods fun _ hcfg => mem_of_winningOverride hcfg)

theorem resolve_finite {g : Globs} {config : ProxyConfig} {registry : MethodRegistry}
    (hvalid : validate config = .ok ()) (hreg : MethodRegistry.new g config = .ok registry) (method : String) :
    (registry.resolve g (some method)).Finite :=
  (resolve_follows hreg method).finite
    (layers_valid (validate_eq_ok hvalid).methods fun _ hcfg => mem_of_winningOverride hcfg)

/-! ### The cases of the override -/

/-- The override, unless it has been tried. -/
def untriedOverride (ctx : RequestContext) (tried : Finset ProviderId) : Option ProviderId :=
  ctx.providerOverride.filter fun p => decide (p ∉ tried)

/-- What the loop over the load balancer excludes at its start. -/
def excludedAtFirst (ctx : RequestContext) (tried : Finset ProviderId) : Finset ProviderId :=
  ctx.providerOverride.toFinset ∪ tried

theorem mem_untriedOverride {ctx : RequestContext} {tried : Finset ProviderId} {p : ProviderId} :
    p ∈ untriedOverride ctx tried ↔ p ∈ ctx.providerOverride ∧ p ∉ tried := by
  rw [untriedOverride, Option.mem_def, Option.filter_eq_some_iff, decide_eq_true_eq]
  rfl

theorem notMem_excludedAtFirst {ctx : RequestContext} {tried : Finset ProviderId} {p : ProviderId} :
    p ∉ excludedAtFirst ctx tried ↔ p ∉ ctx.providerOverride ∧ p ∉ tried := by
  rw [excludedAtFirst, Finset.mem_union, Option.mem_toFinset, not_or]

/-- An override that has not been tried is refused outside the chain, and taken if it is known and its circuit is
    available. Otherwise the loop runs, after a reading for the override at most. -/
theorem selectProvider_cases (env : Env) (chain : ChainRuntime) (byId : HashMap ProviderId ProviderHandle)
    (ctx : RequestContext) (tried : Finset ProviderId) (policy : MethodPolicy) (n : Nat) :
    (∃ p, untriedOverride ctx tried = some p ∧ p ∉ chain.providers ∧
      selectProvider env chain byId ctx tried policy n = (none, n)) ∨
    (∃ p handle, untriedOverride ctx tried = some p ∧ p ∈ chain.providers ∧ byId.lookup p = some handle ∧
      env.isAvailable n p = true ∧ selectProvider env chain byId ctx tried policy n = (some handle, n + 1)) ∨
    (∃ m, n ≤ m ∧ m ≤ n + (untriedOverride ctx tried).toList.length ∧
      (∀ p ∈ untriedOverride ctx tried, p ∈ chain.providers ∧
        (byId.lookup p = none ∨ env.isAvailable n p = false)) ∧
      selectProvider env chain byId ctx tried policy n =
        selectAvailable env chain policy (excludedAtFirst ctx tried) m) := by
  unfold selectProvider untriedOverride excludedAtFirst
  rcases ctx.providerOverride with _ | p
  · refine .inr (.inr ⟨n, Nat.le_refl n, Nat.le_refl n, fun p hp => ?_, by simp⟩)
    cases hp
  by_cases htried : p ∈ tried
  · exact .inr (.inr ⟨n, Nat.le_refl n, by simp, by simp [htried, Option.filter_some], by simp [htried]⟩)
  have huntried : (some p).filter (fun p => decide (p ∉ tried)) = some p := by
    rw [Option.filter_some, if_pos (decide_eq_true htried)]
  rw [huntried]
  by_cases hin : p ∈ chain.providers
  · rcases hlookup : byId.lookup p with _ | handle
    · refine .inr (.inr ⟨n, Nat.le_refl n, by simp, fun q hq => ?_, by simp [htried, hin, hlookup]⟩)
      cases hq
      exact ⟨hin, .inl hlookup⟩
    by_cases havailable : env.isAvailable n p = true
    · exact .inr (.inl ⟨p, handle, rfl, hin, hlookup, havailable, by simp [htried, hin, hlookup, havailable]⟩)
    · refine .inr (.inr ⟨n + 1, Nat.le_succ n, Nat.le_refl _, fun q hq => ?_, ?_⟩)
      · cases hq
        exact ⟨hin, .inr (Bool.eq_false_iff.mpr havailable)⟩
      · simp [htried, hin, hlookup, havailable]
  · exact .inl ⟨p, rfl, hin, by simp [htried, hin]⟩

/-- Where a provider is selected, an override that has not been tried is one of the chain. -/
theorem untriedOverride_inChain {env : Env} {chain : ChainRuntime} {byId : HashMap ProviderId ProviderHandle}
    {ctx : RequestContext} {tried : Finset ProviderId} {policy : MethodPolicy} {n : Nat} {h : ProviderHandle}
    (hsel : (selectProvider env chain byId ctx tried policy n).1 = some h) {p : ProviderId}
    (hp : p ∈ untriedOverride ctx tried) : p ∈ chain.providers := by
  rcases selectProvider_cases env chain byId ctx tried policy n with
    ⟨q, -, -, hresult⟩ | ⟨q, handle, huntried, hin, -⟩ | ⟨m, -, -, hloop, -⟩
  · rw [hresult] at hsel
    cases hsel
  · obtain rfl := Option.some.inj (huntried.symm.trans hp)
    exact hin
  · exact (hloop p hp).1

/-! ### The loop -/

/-- The health state and the breaker stay as they are between the readings, and the clock does not run
    backwards. The cursor of the round robin and the random numbers are free. -/
structure Env.Fixed (env : Env) (states : HealthStates) (breaker : CircuitBreaker) : Prop where
  reads : ∀ n, env.reads n = .fixed states
  breaker : ∀ n, env.breaker n = breaker
  clock : ∀ m n, m ≤ n → env.now m ≤ env.now n

section Failover
variable {env : Env} {chain : ChainRuntime} {policy : MethodPolicy} {states : HealthStates}
  {breaker : CircuitBreaker} {h : ProviderHandle}

theorem Env.Fixed.available (hfixed : env.Fixed states breaker) {m n : Nat} (hle : n ≤ m) {p : ProviderId}
    (h : env.isAvailable n p = true) : env.isAvailable m p = true := by
  unfold Env.isAvailable at h ⊢
  rw [hfixed.breaker] at h ⊢
  exact CircuitBreaker.isAvailable_mono (hfixed.clock n m hle) h

/-- A provider that is not excluded and that passes the health filter and has an available circuit at all readings of
    the loop makes it succeed. -/
theorem selectAvailable_isSome_of_lasting (hpolicy : policy.Finite) (hpool : h ∈ chain.loadBalancer.pool.providers)
    {excluded : Finset ProviderId} (hex : h.id ∉ excluded) {n : Nat}
    (havailable : ∀ m, n ≤ m → m < (selectAvailable env chain policy excluded n).2 → env.isAvailable m h.id = true)
    (hpass : ∀ m, n ≤ m → m < (selectAvailable env chain policy excluded n).2 →
      (chain.loadBalancer.healthFilter (env.reads m) (some policy)).passes h.id = true) :
    ((selectAvailable env chain policy excluded n).1).isSome := by
  have hfinite : ∀ p ∈ some policy, p.Finite := by
    intro p hp
    cases hp
    exact hpolicy
  refine Source.search_complete (i := h.id) ?_ ?_ hex
  · intro m excluded hle hlt hex
    exact LoadBalancer.select_isSome hpool hex (hpass m hle hlt) hfinite
  · intro m provider hle hlt hkey
    have hid : provider.id = h.id := hkey
    rw [hid]
    exact havailable m hle hlt

theorem selectAvailable_isSome (hfixed : env.Fixed states breaker) (hpolicy : policy.Finite)
    (hpool : h ∈ chain.loadBalancer.pool.providers) {excluded : Finset ProviderId} (hex : h.id ∉ excluded)
    {n : Nat} (havailable : env.isAvailable n h.id = true)
    (hpass : (chain.loadBalancer.healthFilter (.fixed states) (some policy)).passes h.id = true) :
    ((selectAvailable env chain policy excluded n).1).isSome := by
  refine selectAvailable_isSome_of_lasting hpolicy hpool hex (fun m hle _ => hfixed.available hle havailable) ?_
  intro m _ _
  rw [hfixed.reads]
  exact hpass

end Failover

/-- Without an override, a provider is found if there is one that is not tried, passes the health filter of
    the load balancer, and has an available circuit. -/
theorem selectProvider_isSome (env : Env) (states : HealthStates) (breaker : CircuitBreaker)
    (hfixed : env.Fixed states breaker) (chain : ChainRuntime) (byId : HashMap ProviderId ProviderHandle)
    (ctx : RequestContext) (hctx : ctx.providerOverride = none) (tried : Finset ProviderId) (policy : MethodPolicy)
    (hpolicy : policy.Finite) (n : Nat) (h : ProviderHandle)
    (hpool : h ∈ chain.loadBalancer.pool.providers) (htried : h.id ∉ tried)
    (havailable : env.isAvailable n h.id = true)
    (hpass : (chain.loadBalancer.healthFilter (.fixed states) (some policy)).passes h.id = true) :
    ((selectProvider env chain byId ctx tried policy n).1).isSome := by
  unfold selectProvider
  rw [hctx]
  exact selectAvailable_isSome hfixed hpolicy hpool htried havailable hpass

/-! ### A chain of two providers -/

def firstIndex : WeightedIndex where
  draw weights := if weights = [] then none else some 0
  inRange := by
    intro weights i h
    split at h
    · cases h
    · rename_i hne
      cases h
      exact List.length_pos_iff.mpr hne
  accepts := by
    intro weights hne _
    rw [if_neg hne]
    rfl

def twoProviderChain (strategy : BalancerStrategy) (tolerance : ToleranceLevel) (registry : MethodRegistry) :
    ChainRuntime :=
  buildChainRuntime id ⟨"default"⟩ [] strategy tolerance twoProviders smallConfig registry

/-- Nothing changes, and nothing is ever answered. -/
def quietEnv (states : HealthStates) : Env where
  reads _ := .fixed states
  cursor _ := 0
  rng _ := firstIndex
  breaker _ := CircuitBreaker.new twoProviders {}
  now _ := 0
  upstream _ _ := ⟨.never, .never⟩

theorem quietEnv_fixed (states : HealthStates) :
    (quietEnv states).Fixed states (CircuitBreaker.new twoProviders {}) :=
  ⟨fun _ => rfl, fun _ => rfl, fun _ _ _ => Nat.le_refl _⟩

/-- The second provider is not tried and its circuit is closed, but it is outside the tolerance of the first
    one, which is tried. -/
theorem not_always_isSome :
    ¬∀ env states breaker chain byId (ctx : RequestContext) tried policy n h, Env.Fixed env states breaker →
      ctx.providerOverride = none → policy.Finite → h ∈ chain.loadBalancer.pool.providers → h.id ∉ tried →
      env.isAvailable n h.id = true → ((selectProvider env chain byId ctx tried policy n).1).isSome := by
  intro hall
  have hsome := hall (quietEnv (secondFailing .strict)) (secondFailing .strict) (CircuitBreaker.new twoProviders {})
    (twoProviderChain .roundRobin .strict ⟨0, .balanced, 3, .fin 1, ∅, none, ∅, ⟨[], []⟩⟩) ∅ {} {⟨"a"⟩} plainPolicy 0
    secondProvider (quietEnv_fixed _) rfl plainPolicy_finite (List.mem_cons_of_mem _ List.mem_cons_self) (by decide) rfl
  unfold selectProvider selectAvailable at hsome
  rw [Source.search_none (by decide +kernel)] at hsome
  cases hsome

/-- Under the balanced tolerance the second provider is found. -/
theorem selectProvider_isSome_second :
    ((selectProvider (quietEnv (secondFailing .balanced))
      (twoProviderChain .weightedRandom .balanced ⟨0, .balanced, 3, .fin 1, ∅, none, ∅, ⟨[], []⟩⟩) ∅ {} {⟨"a"⟩}
      plainPolicy 0).1).isSome :=
  selectProvider_isSome (quietEnv (secondFailing .balanced)) (secondFailing .balanced) _ (quietEnv_fixed _) _ ∅ {}
    rfl {⟨"a"⟩} plainPolicy plainPolicy_finite 0 secondProvider
    (List.mem_cons_of_mem _ List.mem_cons_self) (by decide) rfl (by decide +kernel)

end Rpceth
