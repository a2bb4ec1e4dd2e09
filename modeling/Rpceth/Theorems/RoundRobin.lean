import Mathlib.Data.Finset.Card
import Mathlib.Data.Finset.Image
import Rpceth.LoadBalancer

/-! The round robin over a pool, as a sequence of calls that each hold the lock of the cursor: the callers come
    in any order, with whatever providers are eligible for them. -/

namespace Rpceth
open Lib

/-- What a caller of `select` reads and passes. -/
structure Selection where
  reads : HealthReads
  rng : WeightedIndex
  exclude : Finset ProviderId
  policy : Option MethodPolicy

namespace LoadBalancer

/-- The results of calls of `next_round_robin_filtered` with these lists of eligible providers. -/
def rounds (lb : LoadBalancer) : Nat → List (List ProviderHandle) → List (Option ProviderHandle)
  | _, [] => []
  | cursor, eligible :: rest =>
    let (provider, cursor) := lb.nextRoundRobinFiltered cursor eligible
    provider :: rounds lb cursor rest

/-- The results of calls of `select`. -/
def selections (lb : LoadBalancer) : Nat → List Selection → List (Option ProviderHandle)
  | _, [] => []
  | cursor, c :: rest =>
    let (provider, cursor) := lb.select c.reads cursor c.rng c.exclude c.policy
    provider :: selections lb cursor rest

/-- The providers that are eligible for a call. -/
def eligibleFor (lb : LoadBalancer) (c : Selection) : List ProviderHandle :=
  lb.eligible (lb.healthFilter c.reads c.policy) c.exclude

section RoundRobin
variable {lb : LoadBalancer} {cursor : Nat}

theorem rounds_eq (lb : LoadBalancer) (cursor : Nat) (calls : List (List ProviderHandle)) :
    lb.rounds cursor calls = Cyclic.scans lb.pool.providers cursor
      (calls.map fun eligible candidate => decide (candidate.id ∈ (eligible.map (·.id)).toFinset)) := by
  induction calls generalizing cursor with
  | nil => rfl
  | cons eligible rest ih => exact congrArg _ (ih (lb.nextRoundRobinFiltered cursor eligible).2)

theorem selections_eq (hrr : lb.strategy = .roundRobin) {calls : List Selection}
    (hne : ∀ c ∈ calls, lb.eligibleFor c ≠ []) :
    lb.selections cursor calls = lb.rounds cursor (calls.map lb.eligibleFor) := by
  induction calls generalizing cursor with
  | nil => rfl
  | cons c rest ih =>
    have hselect : lb.select c.reads cursor c.rng c.exclude c.policy =
        lb.nextRoundRobinFiltered cursor (lb.eligibleFor c) := by
      unfold select
      simp only [hrr]
      exact if_neg fun h => hne c List.mem_cons_self (List.isEmpty_iff.mp h)
    rw [selections, hselect]
    exact congrArg _ (ih fun c' hc' => hne c' (List.mem_cons_of_mem _ hc'))

theorem mem_rounds {p : ProviderHandle} (hp : p ∈ lb.pool.providers) {calls : List (List ProviderHandle)}
    (hcalls : ∀ eligible ∈ calls, p ∈ eligible) (hlen : lb.pool.len ≤ calls.length) :
    some p ∈ lb.rounds cursor calls := by
  obtain ⟨i, hi, rfl⟩ := List.mem_iff_getElem.mp hp
  rw [rounds_eq]
  refine Cyclic.mem_scans hi ?_ ?_
  · intro q hq
    obtain ⟨eligible, heligible, rfl⟩ := List.mem_map.mp hq
    exact decide_eq_true (List.mem_toFinset.mpr (List.mem_map.mpr ⟨_, hcalls eligible heligible, rfl⟩))
  · rw [List.length_map]
    exact Nat.lt_of_lt_of_le (Cyclic.ahead_lt (Nat.zero_lt_of_lt hi) cursor i) hlen

/-! ### Rotation -/

theorem filter_by_id {l : List ProviderHandle} (hids : (l.map (·.id)).Nodup) {E : Finset ProviderHandle}
    (hE : ∀ h ∈ E, h ∈ l) (cursor : Nat) :
    (l.rotate cursor).filter (fun candidate => decide (candidate.id ∈ E.image (·.id))) =
      (l.rotate cursor).filter (fun candidate => decide (candidate ∈ E)) := by
  refine List.filter_congr fun candidate hcandidate => decide_eq_decide.mpr ?_
  constructor
  · intro h
    obtain ⟨e, he, hid⟩ := Finset.mem_image.mp h
    have heq : e = candidate := List.inj_on_of_nodup_map hids (hE e he) (List.mem_rotate.mp hcandidate) hid
    exact heq ▸ he
  · intro h
    exact Finset.mem_image_of_mem _ h

theorem rotate_filter_toFinset {l : List ProviderHandle} {E : Finset ProviderHandle} (hE : ∀ h ∈ E, h ∈ l)
    (cursor : Nat) : ((l.rotate cursor).filter fun candidate => decide (candidate ∈ E)).toFinset = E := by
  refine Finset.ext fun h => ?_
  rw [List.mem_toFinset, List.mem_filter, List.mem_rotate, decide_eq_true_eq]
  exact and_iff_right_of_imp (hE h)

/-- With one set of eligible providers, the calls go through it in cyclic order from the cursor, round after
    round. -/
theorem rounds_rotate (hids : (lb.pool.providers.map (·.id)).Nodup) {E : Finset ProviderHandle}
    (hE : ∀ h ∈ E, h ∈ lb.pool.providers) {m : Nat} {calls : List (List ProviderHandle)}
    (hlen : calls.length = m * E.card) (hcalls : ∀ eligible ∈ calls, eligible.toFinset = E) :
    lb.rounds cursor calls = (List.replicate m
      (((lb.pool.providers.rotate cursor).filter fun candidate => decide (candidate ∈ E)).map some)).flatten := by
  have hnodup : ((lb.pool.providers.rotate cursor).filter fun candidate => decide (candidate ∈ E)).Nodup :=
    (List.nodup_rotate.mpr hids.of_map).filter _
  have hcard := List.toFinset_card_of_nodup hnodup
  rw [rotate_filter_toFinset hE cursor] at hcard
  have hpreds : (calls.map fun eligible (candidate : ProviderHandle) =>
      decide (candidate.id ∈ (eligible.map (·.id)).toFinset)) =
      List.replicate (m * E.card) fun candidate => decide (candidate.id ∈ E.image (·.id)) := by
    refine List.eq_replicate_iff.mpr ⟨by rw [List.length_map, hlen], fun p hp => ?_⟩
    obtain ⟨eligible, heligible, rfl⟩ := List.mem_map.mp hp
    have himage : (eligible.map (·.id)).toFinset = E.image (·.id) := by
      rw [← hcalls eligible heligible]
      ext p
      simp
    rw [himage]
  rw [rounds_eq, hpreds, hcard]
  exact Cyclic.scans_rotate (filter_by_id hids hE cursor) m

end RoundRobin
end LoadBalancer

/-- In as many calls one after the other as the pool has providers, whatever the cursor and whatever else is
    eligible, a provider that is eligible for all of them is returned by one. -/
theorem roundRobin_returns (lb : LoadBalancer) (cursor : Nat) (p : ProviderHandle) (hp : p ∈ lb.pool.providers) :
    (∀ calls : List (List ProviderHandle), calls.length = lb.pool.len → (∀ eligible ∈ calls, p ∈ eligible) →
      some p ∈ lb.rounds cursor calls) ∧
    (lb.strategy = .roundRobin → ∀ calls : List Selection, calls.length = lb.pool.len →
      (∀ c ∈ calls, p ∈ lb.eligibleFor c) → some p ∈ lb.selections cursor calls) := by
  constructor
  · intro calls hlen hcalls
    exact LoadBalancer.mem_rounds hp hcalls (Nat.le_of_eq hlen.symm)
  · intro hrr calls hlen hcalls
    rw [LoadBalancer.selections_eq hrr fun c hc => List.ne_nil_of_mem (hcalls c hc)]
    refine LoadBalancer.mem_rounds hp ?_ ?_
    · intro eligible heligible
      obtain ⟨c, hc, rfl⟩ := List.mem_map.mp heligible
      exact hcalls c hc
    · rw [List.length_map]
      exact Nat.le_of_eq hlen.symm

def threeProviders : LoadBalancer :=
  LoadBalancer.new .roundRobin
    (["a", "b", "c"].map fun id => ProviderConfig.intoHandle { id := ⟨id⟩, url := "https://" ++ id ++ ".example" }) none

/-- The second provider is the last one to be returned, when the others are eligible now and then. -/
theorem roundRobin_returns_three :
    ∃ a b c, threeProviders.pool.providers = [a, b, c] ∧
      some b ∈ threeProviders.rounds 2 [[a, b, c], [a, b], [b, c]] ∧
      threeProviders.rounds 2 [[a, b, c], [a, b], [b, c]] = [some c, some a, some b] := by
  refine ⟨_, _, _, rfl, ?_, by decide⟩
  refine (roundRobin_returns threeProviders 2 _ (List.mem_cons_of_mem _ List.mem_cons_self)).1 _ rfl ?_
  decide

/-- Over providers with distinct ids, as many calls as there are eligible providers return each of them exactly
    once, in cyclic order from the cursor, and the calls after them repeat this order, as long as the same
    providers are eligible. -/
theorem roundRobin_rotates (lb : LoadBalancer) (hids : (lb.pool.providers.map (·.id)).Nodup)
    (E : Finset ProviderHandle) (hE : ∀ h ∈ E, h ∈ lb.pool.providers) (hne : E.Nonempty) (cursor : Nat) :
    let order := (lb.pool.providers.rotate cursor).filter fun candidate => decide (candidate ∈ E)
    order.Nodup ∧ order.toFinset = E ∧
    (∀ m (calls : List (List ProviderHandle)), calls.length = m * E.card →
      (∀ eligible ∈ calls, eligible.toFinset = E) →
      lb.rounds cursor calls = (List.replicate m (order.map some)).flatten) ∧
    (lb.strategy = .roundRobin → ∀ m (calls : List Selection), calls.length = m * E.card →
      (∀ c ∈ calls, (lb.eligibleFor c).toFinset = E) →
      lb.selections cursor calls = (List.replicate m (order.map some)).flatten) := by
  refine ⟨(List.nodup_rotate.mpr hids.of_map).filter _, LoadBalancer.rotate_filter_toFinset hE cursor, ?_, ?_⟩
  · intro m calls hlen hcalls
    exact LoadBalancer.rounds_rotate hids hE hlen hcalls
  · intro hrr m calls hlen hcalls
    rw [LoadBalancer.selections_eq hrr]
    · refine LoadBalancer.rounds_rotate hids hE (by rw [List.length_map, hlen]) ?_
      intro eligible heligible
      obtain ⟨c, hc, rfl⟩ := List.mem_map.mp heligible
      exact hcalls c hc
    · intro c hc hnil
      have hempty : E = ∅ := by
        rw [← hcalls c hc, hnil]
        rfl
      exact hne.ne_empty hempty

/-- From the second provider on, with the first and the third one eligible. -/
theorem roundRobin_rotates_three :
    ∃ a b c, threeProviders.pool.providers = [a, b, c] ∧
      threeProviders.rounds 1 [[a, c], [c, a], [a, c], [a, c]] = [some c, some a, some c, some a] := by
  refine ⟨_, _, _, rfl, ?_⟩
  have heligible : ∀ e ∈ threeProviders.pool.providers.toFinset.filter (·.id ≠ ⟨"b"⟩),
      e ∈ threeProviders.pool.providers := by
    decide
  exact (roundRobin_rotates threeProviders (by decide) _ heligible (by decide) 1).2.2.1 2 _ rfl (by decide)

end Rpceth
