import Rpceth.Theorems.HealthHistory

/-! Which providers a selection may return under a health service. A provider has to be within two tolerances,
    that of the service and that of the policy, and the best score is read once for each of them. -/

namespace Rpceth
open Lib

/-- A generator that draws index `i` wherever there is one. It accepts no other weights than it has to. -/
def drawing (i : Nat) : WeightedIndex where
  draw weights :=
    if weights.all (F64.finiteFrom 1) then
      if i < weights.length then some i else if weights = [] then none else some 0
    else none
  inRange := by
    intro weights j h
    obtain ⟨-, h⟩ := Option.ite_none_right_eq_some.mp h
    split at h
    · cases h
      assumption
    · split at h
      · cases h
      · rename_i hne
        cases h
        exact List.length_pos_iff.mpr hne
  accepts := by
    intro weights hne hfinite
    rw [if_pos (List.all_eq_true.mpr fun w hw => F64.finiteFrom_iff.mpr (hfinite w hw))]
    split <;> simp

namespace LoadBalancer

/-- For some cursor and some random numbers, `select` returns `h`. -/
def MayReturn (lb : LoadBalancer) (reads : HealthReads) (exclude : Finset ProviderId) (policy : Option MethodPolicy)
    (h : ProviderHandle) : Prop :=
  ∃ cursor rng, (lb.select reads cursor rng exclude policy).1 = some h

section MayReturn
variable {lb : LoadBalancer} {reads : HealthReads} {exclude : Finset ProviderId} {policy : Option MethodPolicy}
  {h : ProviderHandle}

theorem nextRoundRobinFiltered_at {l : List ProviderHandle} (hl : h ∈ l) (hpool : h ∈ lb.pool.providers) :
    ∃ cursor, (lb.nextRoundRobinFiltered cursor l).1 = some h := by
  obtain ⟨i, hi, rfl⟩ := List.mem_iff_getElem.mp hpool
  have hp : decide (lb.pool.providers[i].id ∈ (l.map (·.id)).toFinset) = true :=
    decide_eq_true (List.mem_toFinset.mpr (List.mem_map.mpr ⟨_, hl, rfl⟩))
  have hhere : Cyclic.ahead lb.pool.providers.length i i = 0 :=
    Cyclic.ahead_eq (Nat.zero_lt_of_lt hi) (Nat.mod_eq_of_lt hi)
  obtain ⟨x, cursor', hscan, rfl | hcloser⟩ := Cyclic.scan_approaches
    (p := fun candidate : ProviderHandle => decide (candidate.id ∈ (l.map (·.id)).toFinset)) hi hp i
  · exact ⟨i, congrArg Prod.fst hscan⟩
  · rw [hhere] at hcloser
    exact absurd hcloser (Nat.not_lt_zero _)

theorem weightedRandomFrom_drawing {l : List ProviderHandle} (hl : h ∈ l) (hp : ∀ p ∈ policy, p.Finite)
    (scores : HashMap ProviderId ProviderHealthSnapshot) :
    ∃ rng, weightedRandomFrom rng l scores policy = some h := by
  obtain ⟨i, hi, rfl⟩ := List.mem_iff_getElem.mp hl
  refine ⟨drawing i, ?_⟩
  unfold weightedRandomFrom
  split
  · cases hi
  · have hzero : i = 0 := Nat.lt_one_iff.mp hi
    subst hzero
    rfl
  · have hfinite : (l.map (samplingWeight scores policy)).all (F64.finiteFrom 1) = true := by
      refine List.all_eq_true.mpr fun w hw => F64.finiteFrom_iff.mpr ?_
      obtain ⟨h, -, rfl⟩ := List.mem_map.mp hw
      exact samplingWeight_eq hp scores h
    have hdraw : (drawing i).draw (l.map (samplingWeight scores policy)) = some i := by
      exact (if_pos hfinite).trans (if_pos (by rw [List.length_map]; exact hi))
    rw [hdraw, Option.bind_some, List.getElem?_eq_getElem hi]

/-- What may be returned is what is in the pool, not excluded, and passes the health filter. -/
theorem mayReturn_iff (hp : ∀ p ∈ policy, p.Finite) : lb.MayReturn reads exclude policy h ↔
    h ∈ lb.pool.providers ∧ h.id ∉ exclude ∧ (lb.healthFilter reads policy).passes h.id = true := by
  constructor
  · rintro ⟨cursor, rng, hs⟩
    exact select_eq_some hs
  · rintro ⟨hpool, hex, hpass⟩
    have hmem : h ∈ lb.eligible (lb.healthFilter reads policy) exclude := mem_eligible.mpr ⟨hpool, hex, hpass⟩
    have hne := List.ne_nil_of_mem hmem
    obtain ⟨cursor, hcursor⟩ := nextRoundRobinFiltered_at hmem hpool
    obtain ⟨rng, hrng⟩ := weightedRandomFrom_drawing hmem hp (lb.healthFilter reads policy).healthScores
    refine ⟨cursor, rng, ?_⟩
    unfold select
    simp only [List.isEmpty_iff, hne, ↓reduceIte]
    split
    · exact hcursor
    · exact hrng

end MayReturn
end LoadBalancer

/-! ### The tolerance of the policy -/

/-- The providers that the tolerance of the policy admits: those in the pool and not excluded whose score is
    within it of the best score. -/
def AdmittedByPolicy (lb : LoadBalancer) (health : HealthService) (exclude : Finset ProviderId)
    (policy : MethodPolicy) (h : ProviderHandle) : Prop :=
  h ∈ lb.pool.providers ∧ h.id ∉ exclude ∧
    ∃ s, health.state.lookup h.id = some s ∧ s.snapshot.isWithinTolerance health.bestScore policy.tolerance = true

theorem exists_within {health : HealthService} {p : ProviderId} {s : ProviderHealthState}
    (hs : health.state.lookup p = some s) :
    ∃ q s', health.state.lookup q = some s' ∧
      s'.snapshot.isWithinTolerance health.bestScore health.tolerance = true := by
  obtain ⟨s', hbest⟩ := HealthService.exists_best hs
  obtain ⟨q, hs'⟩ := hbest.mem
  exact ⟨q, s', hs', hbest.within health.tolerance health.tolerance⟩

/-- A selection may return exactly the providers that the tolerance of the policy admits, unless one of them is
    outside the tolerance of the chain. -/
theorem mayReturn_iff_admitted (lb : LoadBalancer) (health : HealthService) (hhealth : lb.health = some health)
    (hover : HealthService.Over health.state lb.pool) (exclude : Finset ProviderId) (policy : MethodPolicy)
    (hpolicy : policy.Finite) :
    (∀ h, lb.MayReturn (.fixed health.state) exclude (some policy) h ↔
      AdmittedByPolicy lb health exclude policy h) ↔
    ¬∃ h ∈ lb.pool.providers, h.id ∉ exclude ∧ ∃ s, health.state.lookup h.id = some s ∧
      s.snapshot.isWithinTolerance health.bestScore policy.tolerance = true ∧
      s.snapshot.isWithinTolerance health.bestScore health.tolerance = false := by
  have hfinite : ∀ p ∈ some policy, p.Finite := by
    rintro p ⟨rfl⟩
    exact hpolicy
  -- With a provider in the pool the fallback to all providers does not apply.
  have passes : ∀ h ∈ lb.pool.providers, (lb.healthFilter (.fixed health.state) (some policy)).passes h.id = true ↔
      ∃ s, health.state.lookup h.id = some s ∧
        s.snapshot.isWithinTolerance health.bestScore health.tolerance = true ∧
        s.snapshot.isWithinTolerance health.bestScore policy.tolerance = true := by
    intro h hh
    obtain ⟨s, hs⟩ := hover.covers h hh
    obtain ⟨q, s', hs', hwithin⟩ := exists_within hs
    refine (passes_fixed hhealth hover.keyed (some policy) h.id).trans (or_iff_right fun hnone => ?_)
    rw [hnone q s' hs'] at hwithin
    cases hwithin
  constructor
  · rintro hall ⟨h, hh, hex, s, hs, hadmits, hrejects⟩
    have hmay := (hall h).mpr ⟨hh, hex, s, hs, hadmits⟩
    obtain ⟨-, -, hpass⟩ := (LoadBalancer.mayReturn_iff hfinite).mp hmay
    obtain ⟨s', hs', hwithin, -⟩ := (passes h hh).mp hpass
    rw [hs] at hs'
    cases hs'
    rw [hrejects] at hwithin
    cases hwithin
  · intro hnone h
    rw [LoadBalancer.mayReturn_iff hfinite]
    constructor
    · rintro ⟨hh, hex, hpass⟩
      obtain ⟨s, hs, -, hadmits⟩ := (passes h hh).mp hpass
      exact ⟨hh, hex, s, hs, hadmits⟩
    · rintro ⟨hh, hex, s, hs, hadmits⟩
      refine ⟨hh, hex, (passes h hh).mpr ⟨s, hs, ?_, hadmits⟩⟩
      by_contra hrejects
      exact hnone ⟨h, hh, hex, s, hs, hadmits, Bool.eq_false_iff.mpr hrejects⟩

/-- The probes of the second provider have failed twice, and its circuit is closed. -/
def secondFailing (tolerance : ToleranceLevel) : HealthStates :=
  ((HealthService.new twoProviders tolerance).replay
    [.failure 0 ⟨⟨"b"⟩, none, .timeout⟩, .failure 1 ⟨⟨"b"⟩, none, .timeout⟩]).state

def plainPolicy : MethodPolicy where
  tolerance := .balanced
  timeout := 0
  weightMultiplier := .fin 1
  maxRetries := 3
  providerWeights := ∅
  backoff := none

theorem plainPolicy_finite : plainPolicy.Finite :=
  ⟨⟨1, rfl⟩, fun _ _ h => nomatch h⟩

/-- The health service of a strict chain, when the second provider has failed. -/
def strictService : HealthService := ⟨secondFailing .strict, .strict⟩

theorem strictService_over : HealthService.Over strictService.state ⟨twoProviders⟩ :=
  (HealthService.over_new twoProviders .strict).replay _

def strictBalancer (strategy : BalancerStrategy) : LoadBalancer := LoadBalancer.new strategy twoProviders strictService

/-- A strict chain rejects the second provider under a relaxed policy. -/
theorem not_always_admitted :
    ¬∀ (lb : LoadBalancer) health, lb.health = some health → HealthService.Over health.state lb.pool →
      ∀ exclude (policy : MethodPolicy), policy.Finite → ∀ h,
        lb.MayReturn (.fixed health.state) exclude (some policy) h ↔
          AdmittedByPolicy lb health exclude policy h := by
  intro hall
  have hadmitted : AdmittedByPolicy (strictBalancer .roundRobin) strictService ∅
      { plainPolicy with tolerance := .relaxed } secondProvider := by
    refine ⟨List.mem_cons_of_mem _ List.mem_cons_self, Finset.notMem_empty _, ?_⟩
    exact ⟨_, rfl, by decide +kernel⟩
  have hfinite : ({ plainPolicy with tolerance := .relaxed } : MethodPolicy).Finite :=
    ⟨plainPolicy_finite.weightMultiplier, plainPolicy_finite.providerWeight⟩
  have hmay := (hall (strictBalancer .roundRobin) strictService rfl strictService_over _ _ hfinite _).mpr hadmitted
  obtain ⟨-, -, hpass⟩ := (LoadBalancer.mayReturn_iff (by rintro p ⟨rfl⟩; exact hfinite)).mp hmay
  have hrejects : ((strictBalancer .roundRobin).healthFilter (.fixed strictService.state)
      (some { plainPolicy with tolerance := .relaxed })).passes secondProvider.id = false := by
    decide +kernel
  rw [hrejects] at hpass
  cases hpass

/-- Under a policy as strict as the chain, the second provider is not returned, and the first one may be. -/
theorem mayReturn_iff_admitted_strict :
    (strictBalancer .weightedRandom).MayReturn (.fixed strictService.state) ∅
        (some { plainPolicy with tolerance := .strict }) firstProvider ∧
      ¬(strictBalancer .weightedRandom).MayReturn (.fixed strictService.state) ∅
        (some { plainPolicy with tolerance := .strict }) secondProvider := by
  have hadmitted := (mayReturn_iff_admitted (strictBalancer .weightedRandom) strictService rfl strictService_over ∅
    { plainPolicy with tolerance := .strict }
    ⟨plainPolicy_finite.weightMultiplier, plainPolicy_finite.providerWeight⟩).mpr ?_
  · constructor
    · refine (hadmitted firstProvider).mpr ⟨List.mem_cons_self, Finset.notMem_empty _, _, rfl, ?_⟩
      decide +kernel
    · rw [hadmitted]
      rintro ⟨-, -, s, hs, hwithin⟩
      cases hs
      revert hwithin
      decide +kernel
  · rintro ⟨h, -, -, s, -, hadmits, hrejects⟩
    cases hadmits.symm.trans hrejects

/-! ### Probes between the readings -/

/-- What a selection reads of a service while probes of any providers report: `before` the first reading,
    `between` it and the snapshots, and `after` the snapshots. -/
def HealthReads.during (h : HealthService) (before between after : List ProbeResult) : HealthReads where
  atBest := (h.replay before).state
  atSnapshots := ((h.replay before).replay between).state
  atBestAgain := (((h.replay before).replay between).replay after).state

/-- Some provider of the pool passes the filter if the best of the snapshots is not within the tolerance of the
    service of the first best score, or is within that of the policy of the second one. -/
theorem exists_passes_iff {lb : LoadBalancer} {health : HealthService} (hhealth : lb.health = some health)
    (hne : lb.pool.providers ≠ []) {reads : HealthReads} (hover : HealthService.Over reads.atSnapshots lb.pool)
    (policy : Option MethodPolicy) {s : ProviderHealthState} (hbest : HealthService.Best reads.atSnapshots s) :
    (∃ h ∈ lb.pool.providers, (lb.healthFilter reads policy).passes h.id = true) ↔
      s.snapshot.isWithinTolerance (HealthService.bestScore ⟨reads.atBest, health.tolerance⟩) health.tolerance =
        false ∨
      s.snapshot.isWithinTolerance (HealthService.bestScore ⟨reads.atBestAgain, health.tolerance⟩)
        ((policy.map (·.tolerance)).getD health.tolerance) = true := by
  obtain ⟨p, hs⟩ := hbest.mem
  simp only [passes_iff hhealth hover.keyed]
  constructor
  · rintro ⟨h, hh, hnone | ⟨s', hs', -, hpolicy⟩⟩
    · exact .inl (hnone p s hs)
    · exact .inr (ProviderHealthState.within_mono (hbest.le _ s' hs') hpolicy)
  · intro hcond
    by_cases hservice : s.snapshot.isWithinTolerance
        (HealthService.bestScore ⟨reads.atBest, health.tolerance⟩) health.tolerance = true
    · obtain ⟨h, hh, hid⟩ := hover.only p s hs
      have hpolicy := hcond.resolve_left fun hout => by rw [hservice] at hout; cases hout
      exact ⟨h, hh, .inr ⟨s, hid ▸ hs, hservice, hpolicy⟩⟩
    -- If the best one is outside the tolerance of the service, all are, and the filter is dropped.
    · obtain ⟨h, hh⟩ := List.exists_mem_of_ne_nil _ hne
      refine ⟨h, hh, .inl fun q s' hs' => Bool.eq_false_iff.mpr fun hwithin => hservice ?_⟩
      exact ProviderHealthState.within_mono (hbest.le q s' hs') hwithin

/-- While probes report, a selection that excludes no provider finds one exactly if the best of the snapshots is
    outside the tolerance of the service of the best score read before them, so that the filter is dropped, or
    within the tolerance of the policy of the best score read after them. -/
theorem select_isSome_iff (lb : LoadBalancer) (tolerance : ToleranceLevel)
    (hhealth : lb.health = some (HealthService.new lb.pool.providers tolerance)) (hne : lb.pool.providers ≠ [])
    (before between after : List ProbeResult) (cursor : Nat) (rng : WeightedIndex) (policy : Option MethodPolicy)
    (hpolicy : ∀ p ∈ policy, p.Finite) :
    let first := (HealthService.new lb.pool.providers tolerance).replay before
    let snapshots := first.replay between
    let again := snapshots.replay after
    (∃ s, HealthService.Best snapshots.state s) ∧ ∀ s, HealthService.Best snapshots.state s →
      (((lb.select (.during (HealthService.new lb.pool.providers tolerance) before between after) cursor rng ∅
          policy).1).isSome ↔
        s.snapshot.isWithinTolerance first.bestScore tolerance = false ∨
          s.snapshot.isWithinTolerance again.bestScore ((policy.map (·.tolerance)).getD tolerance) = true) := by
  have hover : HealthService.Over
      (HealthReads.during (HealthService.new lb.pool.providers tolerance) before between after).atSnapshots lb.pool :=
    ((HealthService.over_new lb.pool.providers tolerance).replay before).replay between
  constructor
  · obtain ⟨h, hh⟩ := List.exists_mem_of_ne_nil _ hne
    obtain ⟨s, hs⟩ := hover.covers h hh
    exact HealthService.exists_best hs
  · intro s hbest
    refine Iff.trans ?_ (exists_passes_iff hhealth hne hover policy hbest)
    constructor
    · intro hsome
      obtain ⟨h, hs⟩ := Option.isSome_iff_exists.mp hsome
      obtain ⟨hpool, -, hpass⟩ := LoadBalancer.select_eq_some hs
      exact ⟨h, hpool, hpass⟩
    · rintro ⟨h, hpool, hpass⟩
      exact LoadBalancer.select_isSome hpool (Finset.notMem_empty _) hpass hpolicy

def onlyProvider : LoadBalancer :=
  LoadBalancer.new .roundRobin [firstProvider] (some (HealthService.new [firstProvider] .strict))

/-- The only provider has failed five times and recovers after the snapshots are read. -/
theorem not_always_selects :
    ¬∀ (lb : LoadBalancer) tolerance, lb.health = some (HealthService.new lb.pool.providers tolerance) →
      lb.pool.providers ≠ [] → ∀ before between after cursor rng (policy : Option MethodPolicy),
      (∀ p ∈ policy, p.Finite) →
      ((lb.select (.during (HealthService.new lb.pool.providers tolerance) before between after) cursor rng ∅
        policy).1).isSome := by
  intro hall
  have hsome := hall onlyProvider .strict rfl (List.cons_ne_nil _ _) (List.replicate 5 noAnswer) []
    (List.replicate 3 (answered 0)) 0 (drawing 0) none (fun _ hp => nomatch hp)
  have hnone : (onlyProvider.select (.during (HealthService.new [firstProvider] .strict) (List.replicate 5 noAnswer) []
      (List.replicate 3 (answered 0))) 0 (drawing 0) ∅ none).1 = none := by
    decide +kernel
  rw [show onlyProvider.pool.providers = [firstProvider] from rfl, hnone] at hsome
  cases hsome

/-- Of two providers, the second has failed before the snapshots are read, and recovers after them. -/
theorem select_isSome_recovered :
    (((LoadBalancer.new .roundRobin twoProviders (some (HealthService.new twoProviders .strict))).select
      (.during (HealthService.new twoProviders .strict) [.failure 0 ⟨⟨"b"⟩, none, .timeout⟩]
        [.failure 1 ⟨⟨"b"⟩, none, .timeout⟩] [.success 2 ⟨⟨"b"⟩, 0, 1, 1, 1⟩]) 0 (drawing 0) ∅
      (some plainPolicy)).1).isSome := by
  obtain ⟨-, hiff⟩ := select_isSome_iff
    (LoadBalancer.new .roundRobin twoProviders (some (HealthService.new twoProviders .strict))) .strict rfl
    (List.cons_ne_nil _ _) [.failure 0 ⟨⟨"b"⟩, none, .timeout⟩] [.failure 1 ⟨⟨"b"⟩, none, .timeout⟩]
    [.success 2 ⟨⟨"b"⟩, 0, 1, 1, 1⟩] 0 (drawing 0) (some plainPolicy) (by rintro p ⟨rfl⟩; exact plainPolicy_finite)
  have hbest : HealthService.Best (((HealthService.new twoProviders .strict).replay
      [.failure 0 ⟨⟨"b"⟩, none, .timeout⟩]).replay [.failure 1 ⟨⟨"b"⟩, none, .timeout⟩]).state
      (ProviderHealthState.new firstProvider) := by
    have hone : (1 : Rat) = (ProviderHealthState.new firstProvider).score := by decide +kernel
    exact ⟨⟨⟨"a"⟩, rfl⟩, fun q s' _ => hone ▸ s'.score_le⟩
  exact (hiff _ hbest).mpr (.inr (by decide +kernel))

end Rpceth
