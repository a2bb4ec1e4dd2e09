import Rpceth.Lib.Cyclic
import Rpceth.Methods

/-! `proxy-core/src/routing/load_balancer.rs`. The cursor of the round robin, the random numbers and the
    health service are shared with other requests, so what a selection reads of them is an argument. -/

namespace Rpceth
open Lib

structure ProviderPool where
  providers : List ProviderHandle
  deriving DecidableEq

namespace ProviderPool

def len (pool : ProviderPool) : Nat := pool.providers.length

def ids (pool : ProviderPool) : Finset ProviderId := (pool.providers.map (·.id)).toFinset

theorem mem_ids {pool : ProviderPool} {h : ProviderHandle} (hh : h ∈ pool.providers) : h.id ∈ pool.ids :=
  List.mem_toFinset.mpr (List.mem_map.mpr ⟨h, hh, rfl⟩)

end ProviderPool

/-- `rand::WeightedIndex` over a random number generator: the index drawn for a list of weights. It is an
    index of the list, and finite weights of at least one are accepted. -/
structure WeightedIndex where
  draw : List F64 → Option Nat
  inRange : ∀ {weights i}, draw weights = some i → i < weights.length
  accepts : ∀ {weights}, weights ≠ [] → (∀ w ∈ weights, ∃ q : Rat, w = .fin q ∧ 1 ≤ q) → (draw weights).isSome

structure LoadBalancer where
  pool : ProviderPool
  strategy : BalancerStrategy
  health : Option HealthService
  deriving DecidableEq

/-- What the health service holds at the three readings of one selection: the best score and the
    snapshots in `filtered_snapshots`, and the best score again. -/
structure HealthReads where
  atBest : HealthStates
  atSnapshots : HealthStates
  atBestAgain : HealthStates

/-- The readings when the service does not change during the selection. -/
def HealthReads.fixed (state : HealthStates) : HealthReads := ⟨state, state, state⟩

/-- `(health_scores, best_score, tolerance, allow_any)` of `select`. -/
structure HealthFilter where
  healthScores : HashMap ProviderId ProviderHealthSnapshot
  bestScore : Rat
  tolerance : ToleranceLevel
  allowAny : Bool

def HealthFilter.passes (f : HealthFilter) (provider : ProviderId) : Bool :=
  f.allowAny ||
    match f.healthScores.lookup provider with
    | some snapshot => snapshot.isWithinTolerance f.bestScore f.tolerance
    | none => false

namespace LoadBalancer

def new (strategy : BalancerStrategy) (providers : List ProviderHandle) (health : Option HealthService) :
    LoadBalancer where
  pool := ⟨providers⟩
  strategy := strategy
  health := health

def healthFilter (lb : LoadBalancer) (reads : HealthReads) (policy : Option MethodPolicy) : HealthFilter :=
  match lb.health with
  | some health =>
    let filtered := HealthService.filteredSnapshots { health with state := reads.atBest }
      { health with state := reads.atSnapshots }
    let tolerance := (policy.map (·.tolerance)).getD health.tolerance
    if filtered.isEmpty then
      { healthScores := ∅, bestScore := 0, tolerance, allowAny := true }
    else
      { healthScores := HashMap.collect (filtered.map fun snapshot => (snapshot.provider, snapshot))
        bestScore := HealthService.bestScore { health with state := reads.atBestAgain }
        tolerance
        allowAny := false }
  | none =>
    { healthScores := ∅, bestScore := 0, tolerance := (policy.map (·.tolerance)).getD .balanced
      allowAny := true }

/-- The providers that the loop of `select` keeps. -/
def eligible (lb : LoadBalancer) (filter : HealthFilter) (exclude : Finset ProviderId) : List ProviderHandle :=
  lb.pool.providers.filter fun provider => decide (provider.id ∉ exclude) && filter.passes provider.id

/-- The provider, if any, and the new cursor. -/
def nextRoundRobinFiltered (lb : LoadBalancer) (cursor : Nat) (eligible : List ProviderHandle) :
    Option ProviderHandle × Nat :=
  let eligibleIds := (eligible.map (·.id)).toFinset
  Cyclic.scan lb.pool.providers (fun candidate => decide (candidate.id ∈ eligibleIds)) lb.pool.len cursor

def samplingWeight (healthScores : HashMap ProviderId ProviderHealthSnapshot) (policy : Option MethodPolicy)
    (provider : ProviderHandle) : F64 :=
  let healthMultiplier : Rat := ((healthScores.lookup provider.id).map fun s => max s.score 0).getD 1
  let baseWeight : F64 := .fin provider.baseWeight.toNat
  let weight := match policy with
    | none => baseWeight
    | some policy => (policy.providerWeight provider.id).getD (F64.mul baseWeight policy.weightMultiplier)
  F64.max (F64.mul weight (.fin healthMultiplier)) (.fin 1)

def weightedRandomFrom (rng : WeightedIndex) (eligible : List ProviderHandle)
    (healthScores : HashMap ProviderId ProviderHealthSnapshot) (policy : Option MethodPolicy) :
    Option ProviderHandle :=
  match eligible with
  | [] => none
  | [provider] => some provider
  | providers => (rng.draw (providers.map (samplingWeight healthScores policy))).bind fun index => providers[index]?

/-- The provider, if any, and the new cursor. -/
def select (lb : LoadBalancer) (reads : HealthReads) (cursor : Nat) (rng : WeightedIndex)
    (exclude : Finset ProviderId) (policy : Option MethodPolicy) : Option ProviderHandle × Nat :=
  let filter := lb.healthFilter reads policy
  let eligible := lb.eligible filter exclude
  if eligible.isEmpty then (none, cursor)
  else match lb.strategy with
    | .roundRobin => lb.nextRoundRobinFiltered cursor eligible
    | .weightedRandom => (weightedRandomFrom rng eligible filter.healthScores policy, cursor)

/-! ### What a selection returns -/

theorem mem_eligible {lb : LoadBalancer} {filter : HealthFilter} {exclude : Finset ProviderId}
    {h : ProviderHandle} :
    h ∈ lb.eligible filter exclude ↔ h ∈ lb.pool.providers ∧ h.id ∉ exclude ∧ filter.passes h.id = true := by
  simp only [eligible, List.mem_filter, Bool.and_eq_true, decide_eq_true_eq]

theorem nextRoundRobinFiltered_eq_some {lb : LoadBalancer} {cursor cursor' : Nat} {l : List ProviderHandle}
    {h : ProviderHandle} (hs : lb.nextRoundRobinFiltered cursor l = (some h, cursor')) :
    h ∈ lb.pool.providers ∧ ∃ e ∈ l, e.id = h.id := by
  obtain ⟨j, -, hget, hp, -⟩ := Cyclic.scan_eq_some hs
  refine ⟨List.mem_of_getElem? hget, ?_⟩
  obtain ⟨e, he, hid⟩ := List.mem_map.mp (List.mem_toFinset.mp (of_decide_eq_true hp))
  exact ⟨e, he, hid⟩

theorem nextRoundRobinFiltered_isSome {lb : LoadBalancer} {l : List ProviderHandle} {e : ProviderHandle}
    (he : e ∈ l) (hpool : e ∈ lb.pool.providers) (cursor : Nat) :
    ((lb.nextRoundRobinFiltered cursor l).1).isSome := by
  refine Cyclic.scan_round_isSome hpool ?_ cursor
  exact decide_eq_true (List.mem_toFinset.mpr (List.mem_map.mpr ⟨e, he, rfl⟩))

theorem weightedRandomFrom_mem {rng : WeightedIndex} {l : List ProviderHandle}
    {scores : HashMap ProviderId ProviderHealthSnapshot} {policy : Option MethodPolicy} {h : ProviderHandle}
    (hs : weightedRandomFrom rng l scores policy = some h) : h ∈ l := by
  unfold weightedRandomFrom at hs
  split at hs
  · cases hs
  · cases hs
    exact List.mem_singleton_self _
  · obtain ⟨i, -, hi⟩ := Option.bind_eq_some_iff.mp hs
    exact List.mem_of_getElem? hi

end LoadBalancer

/-- The weights of a policy are finite numbers, as validation makes sure. -/
structure MethodPolicy.Finite (policy : MethodPolicy) : Prop where
  weightMultiplier : ∃ q, policy.weightMultiplier = .fin q
  providerWeight : ∀ p w, policy.providerWeight p = some w → ∃ q, w = .fin q

namespace LoadBalancer

theorem samplingWeight_eq {policy : Option MethodPolicy} (hp : ∀ p ∈ policy, p.Finite)
    (scores : HashMap ProviderId ProviderHealthSnapshot) (h : ProviderHandle) :
    ∃ q, samplingWeight scores policy h = .fin q ∧ 1 ≤ q := by
  have clamped : ∀ w q : Rat, ∃ r, F64.max (F64.mul (.fin w) (.fin q)) (.fin 1) = .fin r ∧ 1 ≤ r := by
    intro w q
    exact ⟨max (w * q) 1, by rw [F64.mul_fin, F64.max_fin], le_max_right _ _⟩
  unfold samplingWeight
  cases policy with
  | none => exact clamped _ _
  | some policy =>
    have hfin := hp policy rfl
    cases hw : policy.providerWeight h.id with
    | none =>
      obtain ⟨m, hm⟩ := hfin.weightMultiplier
      simp only [hw, hm, Option.getD_none, F64.mul_fin (h.baseWeight.toNat : Rat) m]
      exact clamped _ _
    | some w =>
      obtain ⟨q, rfl⟩ := hfin.providerWeight _ _ hw
      simp only [hw, Option.getD_some]
      exact clamped _ _

theorem weightedRandomFrom_isSome {rng : WeightedIndex} {l : List ProviderHandle}
    {scores : HashMap ProviderId ProviderHealthSnapshot} {policy : Option MethodPolicy} (hl : l ≠ [])
    (hp : ∀ p ∈ policy, p.Finite) : (weightedRandomFrom rng l scores policy).isSome := by
  unfold weightedRandomFrom
  split
  · exact absurd rfl hl
  · rfl
  · have hdraw : (rng.draw (l.map (samplingWeight scores policy))).isSome := by
      refine rng.accepts (by simpa using hl) fun w hw => ?_
      obtain ⟨h, -, rfl⟩ := List.mem_map.mp hw
      exact samplingWeight_eq hp scores h
    obtain ⟨i, hi⟩ := Option.isSome_iff_exists.mp hdraw
    have hlt : i < l.length := by simpa using rng.inRange hi
    rw [hi, Option.bind_some, List.getElem?_eq_getElem hlt]
    rfl

section Select
variable {lb : LoadBalancer} {reads : HealthReads} {cursor : Nat} {rng : WeightedIndex}
  {exclude : Finset ProviderId} {policy : Option MethodPolicy}

theorem select_none (h : (lb.eligible (lb.healthFilter reads policy) exclude).isEmpty = true) :
    (lb.select reads cursor rng exclude policy).1 = none := by
  unfold select
  simp only [h, ↓reduceIte]

theorem select_roundRobin (h : ¬(lb.eligible (lb.healthFilter reads policy) exclude).isEmpty = true)
    (hstrategy : lb.strategy = .roundRobin) : (lb.select reads cursor rng exclude policy).1 =
      (lb.nextRoundRobinFiltered cursor (lb.eligible (lb.healthFilter reads policy) exclude)).1 := by
  unfold select
  simp only [hstrategy]
  rw [if_neg h]

theorem select_weightedRandom (h : ¬(lb.eligible (lb.healthFilter reads policy) exclude).isEmpty = true)
    (hstrategy : lb.strategy = .weightedRandom) : (lb.select reads cursor rng exclude policy).1 =
      weightedRandomFrom rng (lb.eligible (lb.healthFilter reads policy) exclude)
        (lb.healthFilter reads policy).healthScores policy := by
  unfold select
  simp only [hstrategy]
  rw [if_neg h]

theorem select_eq_some {h : ProviderHandle} (hs : (lb.select reads cursor rng exclude policy).1 = some h) :
    h ∈ lb.pool.providers ∧ h.id ∉ exclude ∧ (lb.healthFilter reads policy).passes h.id = true := by
  unfold select at hs
  simp only at hs
  split at hs
  · cases hs
  · split at hs
    · obtain ⟨hpool, e, he, hid⟩ := nextRoundRobinFiltered_eq_some (Prod.ext hs rfl)
      obtain ⟨-, hex, hpass⟩ := mem_eligible.mp he
      exact ⟨hpool, hid ▸ hex, hid ▸ hpass⟩
    · exact mem_eligible.mp (weightedRandomFrom_mem hs)

/-- A selection succeeds if some provider of the pool is not excluded and passes the health filter. -/
theorem select_isSome {h : ProviderHandle} (hpool : h ∈ lb.pool.providers) (hex : h.id ∉ exclude)
    (hpass : (lb.healthFilter reads policy).passes h.id = true) (hp : ∀ p ∈ policy, p.Finite) :
    ((lb.select reads cursor rng exclude policy).1).isSome := by
  have hmem : h ∈ lb.eligible (lb.healthFilter reads policy) exclude := mem_eligible.mpr ⟨hpool, hex, hpass⟩
  have hne := List.ne_nil_of_mem hmem
  unfold select
  simp only [List.isEmpty_iff, hne, ↓reduceIte]
  split
  · exact nextRoundRobinFiltered_isSome hmem hpool cursor
  · exact weightedRandomFrom_isSome hne hp

end Select
end LoadBalancer
end Rpceth
