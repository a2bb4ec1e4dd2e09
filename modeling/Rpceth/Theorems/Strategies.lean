import Rpceth.Theorems.Failover

/-! The two strategies of the load balancer: they find a provider for the same pools, exclusions and health
    states, and the weights of the random one. -/

namespace Rpceth
open Lib

namespace LoadBalancer

section Strategies
variable {reads : HealthReads} {cursor : Nat} {rng : WeightedIndex}
  {exclude : Finset ProviderId} {policy : Option MethodPolicy}

/-- Whatever the strategy, a selection fails exactly if no provider of the pool passes both filters. -/
theorem select_eq_none_iff (lb : LoadBalancer) (hpolicy : ∀ p ∈ policy, p.Finite) :
    (lb.select reads cursor rng exclude policy).1 = none ↔
      ¬∃ h ∈ lb.pool.providers, h.id ∉ exclude ∧ (lb.healthFilter reads policy).passes h.id = true := by
  constructor
  · rintro hnone ⟨h, hpool, hex, hpass⟩
    have hsome : ((lb.select reads cursor rng exclude policy).1).isSome := select_isSome hpool hex hpass hpolicy
    rw [hnone] at hsome
    cases hsome
  · intro hno
    refine Option.eq_none_iff_forall_not_mem.mpr fun h hs => ?_
    obtain ⟨hpool, hex, hpass⟩ := select_eq_some hs
    exact hno ⟨h, hpool, hex, hpass⟩

end Strategies
end LoadBalancer

/-- Unless the service is empty, what passes the filter is within the tolerance of the policy. -/
theorem within_of_passes (lb : LoadBalancer) {health : HealthService} (hhealth : lb.health = some health)
    {states : HealthStates} (hkeyed : HealthService.Keyed states) (hne : states.entries ≠ [])
    {policy : Option MethodPolicy} {p : ProviderId}
    (hpass : (lb.healthFilter (.fixed states) policy).passes p = true) :
    ∃ s, states.lookup p = some s ∧
      (1 - ((policy.map (·.tolerance)).getD health.tolerance).threshold) *
        HealthService.bestScore ⟨states, health.tolerance⟩ ≤ s.score := by
  have hbest := HealthService.bestScore_nonneg ⟨states, health.tolerance⟩
  obtain ⟨entry, hentry⟩ := List.exists_mem_of_ne_nil _ hne
  have hfound : (HealthService.mk states health.tolerance).state.lookup entry.1 = some entry.2 :=
    AList.mem_lookup_iff.mpr hentry
  obtain ⟨q, s, hs, hwithin⟩ := exists_within hfound
  rcases (passes_iff hhealth hkeyed policy p).mp hpass with hnone | ⟨s, hs, -, hpolicy⟩
  · exact absurd hwithin (Bool.eq_false_iff.mp (hnone q s hs))
  · exact ⟨s, hs, (s.within_iff hbest _).mp hpolicy⟩

/-- Under a policy with finite weights, as validation makes sure, both strategies find a provider exactly if
    one of the pool passes the exclusions and the health filter; and unless the health service is empty, what
    either of them finds is within the tolerance of the policy. -/
theorem strategies_agree (lb : LoadBalancer) (states : HealthStates) (hkeyed : HealthService.Keyed states)
    (cursor : Nat) (rng : WeightedIndex) (exclude : Finset ProviderId) (policy : Option MethodPolicy)
    (hpolicy : ∀ p ∈ policy, p.Finite) :
    let result (strategy : BalancerStrategy) : Option ProviderHandle :=
      (({ lb with strategy }).select (.fixed states) cursor rng exclude policy).1
    (result .roundRobin = none ↔ result .weightedRandom = none) ∧
    (result .roundRobin = none ↔ ¬∃ h ∈ lb.pool.providers, h.id ∉ exclude ∧
      (lb.healthFilter (.fixed states) policy).passes h.id = true) ∧
    ∀ strategy h, result strategy = some h → h ∈ lb.pool.providers ∧ h.id ∉ exclude ∧
      ∀ health, lb.health = some health → states.entries ≠ [] → ∃ s, states.lookup h.id = some s ∧
        (1 - ((policy.map (·.tolerance)).getD health.tolerance).threshold) *
          HealthService.bestScore ⟨states, health.tolerance⟩ ≤ s.score := by
  intro result
  have hnone : ∀ strategy, result strategy = none ↔ ¬∃ h ∈ lb.pool.providers, h.id ∉ exclude ∧
      (lb.healthFilter (.fixed states) policy).passes h.id = true :=
    fun strategy => LoadBalancer.select_eq_none_iff { lb with strategy } hpolicy
  refine ⟨(hnone .roundRobin).trans (hnone .weightedRandom).symm, hnone .roundRobin, ?_⟩
  intro strategy h hresult
  obtain ⟨hpool, hex, hpass⟩ := LoadBalancer.select_eq_some hresult
  refine ⟨hpool, hex, fun health hhealth hne => ?_⟩
  exact within_of_passes { lb with strategy } hhealth hkeyed hne hpass

/-- With the first provider excluded, a strict chain whose second provider has failed offers none. -/
theorem strategies_agree_strict :
    ((strictBalancer .roundRobin).select (.fixed strictService.state) 1 (drawing 1) {⟨"a"⟩} none).1 = none ∧
      ((strictBalancer .weightedRandom).select (.fixed strictService.state) 1 (drawing 1) {⟨"a"⟩} none).1 = none := by
  obtain ⟨hagree, hnone, -⟩ := strategies_agree (strictBalancer .roundRobin) strictService.state
    strictService_over.keyed 1 (drawing 1) {⟨"a"⟩} none (fun _ hp => nomatch hp)
  have hfirst := hnone.mpr (by decide +kernel)
  exact ⟨hfirst, hagree.mp hfirst⟩

/-! ### Weights -/

/-- The factor that the health of a provider contributes to its weight. -/
def healthMultiplier (healthScores : HashMap ProviderId ProviderHealthSnapshot) (provider : ProviderHandle) : Rat :=
  ((healthScores.lookup provider.id).map fun s => max s.score 0).getD 1

theorem samplingWeight_of_multiplier {policy : MethodPolicy} {m : Rat} (hm : policy.weightMultiplier = .fin m)
    {provider : ProviderHandle} (hnone : policy.providerWeight provider.id = none)
    (scores : HashMap ProviderId ProviderHealthSnapshot) :
    LoadBalancer.samplingWeight scores (some policy) provider =
      .fin (max (provider.baseWeight.toNat * (m * healthMultiplier scores provider)) 1) := by
  unfold LoadBalancer.samplingWeight
  simp only [hnone, hm, Option.getD_none, F64.mul_fin, F64.max_fin]
  rw [mul_assoc]
  rfl

/-- A common factor and a floor keep the order of two numbers exactly if the greater product is above the floor. -/
theorem floor_lt_floor_iff {a b c : Rat} (hlt : b < a) (hc : 0 ≤ c) : max (b * c) 1 < max (a * c) 1 ↔ 1 < a * c := by
  constructor
  · intro h
    rcases lt_max_iff.mp h with h | h
    · exact lt_of_le_of_lt (le_max_right _ _) h
    · exact absurd h (not_lt.mpr (le_max_right _ _))
  · intro h
    have hpos : 0 < c := by
      refine lt_of_le_of_ne hc fun hzero => ?_
      rw [← hzero, mul_zero] at h
      exact absurd h (not_lt.mpr zero_le_one)
    exact lt_max_of_lt_left (max_lt (mul_lt_mul_of_pos_right hlt hpos) h)

/-- Of two providers without weights of their own and with one health multiplier, the one with the higher base
    weight never has the lower sampling weight. It has the higher one exactly if its base weight, multiplied, is
    above the floor of one that every weight is raised to. -/
theorem higher_weight_iff (g : Globs) (config : ProxyConfig) (hvalid : validate config = .ok ())
    (registry : MethodRegistry) (hreg : MethodRegistry.new g config = .ok registry) (method : String)
    (scores : HashMap ProviderId ProviderHealthSnapshot) (a b : ProviderHandle)
    (ha : (registry.resolve g (some method)).providerWeight a.id = none)
    (hb : (registry.resolve g (some method)).providerWeight b.id = none)
    (hhealth : healthMultiplier scores a = healthMultiplier scores b) (hpos : 0 < healthMultiplier scores a)
    (hbase : b.baseWeight < a.baseWeight) :
    ∃ m wa wb : Rat, (registry.resolve g (some method)).weightMultiplier = .fin m ∧
      LoadBalancer.samplingWeight scores (some (registry.resolve g (some method))) a = .fin wa ∧
      LoadBalancer.samplingWeight scores (some (registry.resolve g (some method))) b = .fin wb ∧
      wb ≤ wa ∧ (wb < wa ↔ 1 < a.baseWeight.toNat * (m * healthMultiplier scores a)) := by
  obtain ⟨m, hm, hm₀, -⟩ := resolve_multiplier hvalid hreg method
  have hc : 0 ≤ m * healthMultiplier scores a := mul_nonneg hm₀ (le_of_lt hpos)
  have hlt : (b.baseWeight.toNat : Rat) < a.baseWeight.toNat := by
    exact_mod_cast UInt16.lt_iff_toNat_lt.mp hbase
  refine ⟨m, _, _, hm, samplingWeight_of_multiplier hm ha scores, samplingWeight_of_multiplier hm hb scores, ?_, ?_⟩
  · rw [← hhealth]
    exact max_le_max_right 1 (mul_le_mul_of_nonneg_right (le_of_lt hlt) hc)
  · rw [← hhealth]
    exact floor_lt_floor_iff hlt hc

def heavyProvider : ProviderConfig := { id := ⟨"a"⟩, url := "https://a.example", baseWeight := 900 }

def lightProvider : ProviderConfig := { id := ⟨"b"⟩, url := "https://b.example", baseWeight := 100 }

/-- A provider with nine times the base weight of the other one, and a multiplier. -/
def weightedConfig (multiplier : Rat) : ProxyConfig :=
  { smallConfig with
    providers := [heavyProvider, lightProvider]
    methods := { default := { weightMultiplier := some (.fin multiplier) } } }

/-- With the multiplier zero both weights are raised to one. -/
theorem not_always_higher_weight :
    ¬∀ g config registry method scores (a b : ProviderHandle) wa wb, validate config = .ok () →
      MethodRegistry.new g config = .ok registry → a ∈ config.providers.map ProviderConfig.intoHandle →
      b ∈ config.providers.map ProviderConfig.intoHandle →
      (registry.resolve g (some method)).providerWeight a.id = none →
      (registry.resolve g (some method)).providerWeight b.id = none →
      healthMultiplier scores a = healthMultiplier scores b → 0 < healthMultiplier scores a →
      b.baseWeight < a.baseWeight →
      LoadBalancer.samplingWeight scores (some (registry.resolve g (some method))) a = .fin wa →
      LoadBalancer.samplingWeight scores (some (registry.resolve g (some method))) b = .fin wb → wb < wa := by
  intro h
  have hlt := h literalGlobs (weightedConfig 0) _ "eth_call" ∅ heavyProvider.intoHandle lightProvider.intoHandle 1 1
    (by decide +kernel) rfl List.mem_cons_self (List.mem_cons_of_mem _ List.mem_cons_self) rfl rfl rfl
    (by decide +kernel) (by decide) (by decide +kernel) (by decide +kernel)
  exact absurd hlt (lt_irrefl 1)

/-- With the multiplier one the heavier provider is the likelier one. -/
theorem higher_weight_plain :
    ∃ registry, MethodRegistry.new literalGlobs (weightedConfig 1) = .ok registry ∧ ∃ wa wb : Rat, wb < wa ∧
      LoadBalancer.samplingWeight ∅ (some (registry.resolve literalGlobs (some "eth_call")))
        heavyProvider.intoHandle = .fin wa ∧
      LoadBalancer.samplingWeight ∅ (some (registry.resolve literalGlobs (some "eth_call")))
        lightProvider.intoHandle = .fin wb := by
  refine ⟨_, rfl, ?_⟩
  obtain ⟨m, wa, wb, hm, hwa, hwb, -, hiff⟩ := higher_weight_iff literalGlobs (weightedConfig 1) (by decide +kernel)
    _ rfl "eth_call" ∅ heavyProvider.intoHandle lightProvider.intoHandle rfl rfl rfl (by decide +kernel) (by decide)
  refine ⟨wa, wb, hiff.mpr ?_, hwa, hwb⟩
  cases hm
  decide +kernel

end Rpceth
