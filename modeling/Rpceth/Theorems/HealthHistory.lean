import Mathlib.Algebra.Order.Field.Rat
import Mathlib.Tactic.Positivity
import Mathlib.Tactic.Ring
import Rpceth.Lib.Ewma
import Rpceth.LoadBalancer

/-! What the probes of a provider make of its health state, and what a health service holds after any
    probes of its providers. -/

namespace Rpceth
open Lib

inductive ProbeResult where
  | success (now : Instant) (success : ProbeSuccess)
  | failure (now : Instant) (failure : ProbeFailureKind)
  deriving DecidableEq, Repr

namespace ProbeResult

def provider : ProbeResult → ProviderId
  | success _ r => r.provider
  | failure _ r => r.provider

def failed : ProbeResult → Bool
  | success _ _ => false
  | failure _ _ => true

/-- The sample that the success rate takes from a probe. -/
def outcome : ProbeResult → Rat
  | success _ _ => 1
  | failure _ _ => 0

/-- A success reports a support score between zero and one. -/
def Bounded : ProbeResult → Prop
  | success _ r => 0 ≤ r.methodSupportScore ∧ r.methodSupportScore ≤ 1
  | failure _ _ => True

/-- A success reports support for every method, as `JsonRpcHealthProbe` does. -/
def Full : ProbeResult → Prop
  | success _ r => r.methodSupportScore = 1
  | failure _ _ => True

/-- A success took no longer than what gives the full latency score. -/
def Prompt : ProbeResult → Prop
  | success _ r => Duration.asMillis r.latency ≤ 2000
  | failure _ _ => True

theorem Full.bounded {r : ProbeResult} (h : r.Full) : r.Bounded := by
  cases r with
  | success now r =>
    have hr : r.methodSupportScore = 1 := h
    exact ⟨by rw [hr]; exact zero_le_one, le_of_eq hr⟩
  | failure now r => exact trivial

end ProbeResult

theorem clamp01_eq {x : Rat} (h₀ : 0 ≤ x) (h₁ : x ≤ 1) : clamp01 x = x := by
  rw [clamp01, min_eq_left h₁, max_eq_right h₀]

theorem clamp01_nonneg (x : Rat) : 0 ≤ clamp01 x := le_max_left _ _

theorem clamp01_le (x : Rat) : clamp01 x ≤ 1 := max_le zero_le_one (min_le_right _ _)

theorem alpha_nonneg : 0 ≤ alpha := by norm_num [alpha]

theorem alpha_le_one : alpha ≤ 1 := by norm_num [alpha]

theorem one_sub_alpha : 1 - alpha = 7 / 10 := by norm_num [alpha]

/-! ### One provider -/

namespace ProviderHealthState

def apply (s : ProviderHealthState) : ProbeResult → ProviderHealthState
  | .success now r => s.applySuccess now r
  | .failure now r => s.applyFailure now r

def replay (s : ProviderHealthState) (results : List ProbeResult) : ProviderHealthState := results.foldl apply s

/-- What any probes keep of a new state. -/
structure Averaged (s : ProviderHealthState) : Prop where
  syncScore : s.syncScore = 1
  rate_pos : 0 < s.successRate
  rate_le : s.successRate ≤ 1
  latency : 0 ≤ s.latencyAvg

/-- What probes with bounded support keep of it. -/
structure Regular (s : ProviderHealthState) : Prop extends Averaged s where
  support_nonneg : 0 ≤ s.methodSupportScore
  support_le : s.methodSupportScore ≤ 1

variable {s : ProviderHealthState} {results : List ProbeResult}

theorem asMillis_nonneg (d : Duration) : 0 ≤ Duration.asMillis d := by
  unfold Duration.asMillis
  positivity

theorem successRate_apply (s : ProviderHealthState) (r : ProbeResult) :
    (s.apply r).successRate = ewma alpha s.successRate r.outcome := by
  cases r with
  | success now r =>
    show (1 - alpha) * s.successRate + alpha = (1 - alpha) * s.successRate + alpha * 1
    rw [mul_one]
  | failure now r =>
    show s.successRate * (1 - alpha) = (1 - alpha) * s.successRate + alpha * 0
    rw [mul_zero, add_zero, mul_comm]

theorem latencyAvg_success (s : ProviderHealthState) (now : Instant) (r : ProbeSuccess) :
    (s.apply (.success now r)).latencyAvg =
      if s.latencyAvg = 0 then Duration.asMillis r.latency else ewma alpha s.latencyAvg (Duration.asMillis r.latency) :=
  rfl

theorem successRate_replay (s : ProviderHealthState) (results : List ProbeResult) :
    (s.replay results).successRate = ewmas alpha s.successRate (results.map ProbeResult.outcome) := by
  induction results generalizing s with
  | nil => rfl
  | cons r results ih =>
    refine (ih (s.apply r)).trans ?_
    rw [successRate_apply]
    rfl

/-- What every result keeps, any results keep. -/
theorem replay_invariant {I : ProviderHealthState → Prop} (h : I s) (hstep : ∀ s, ∀ r ∈ results, I s → I (s.apply r)) :
    I (s.replay results) :=
  List.foldlRecOn results apply h fun s hs r hr => hstep s r hr hs

theorem averaged_new (provider : ProviderHandle) : (new provider).Averaged := ⟨rfl, one_pos, le_refl _, le_refl _⟩

theorem regular_new (provider : ProviderHandle) : (new provider).Regular :=
  ⟨averaged_new provider, zero_le_one, le_refl _⟩

theorem Averaged.apply (h : s.Averaged) (r : ProbeResult) : (s.apply r).Averaged := by
  obtain ⟨hsync, hpos, hle, hlat⟩ := h
  have hrate : (s.apply r).successRate ≤ 1 := by
    rw [successRate_apply]
    refine ewma_le alpha_nonneg alpha_le_one hle ?_
    cases r <;> norm_num [ProbeResult.outcome]
  cases r with
  | success now r =>
    refine ⟨rfl, ?_, hrate, ?_⟩
    · show 0 < (1 - alpha) * s.successRate + alpha
      norm_num [alpha]
      linarith
    · have hms := asMillis_nonneg r.latency
      rw [latencyAvg_success]
      split
      · exact hms
      · exact le_ewma alpha_nonneg alpha_le_one hlat hms
  | failure now r =>
    refine ⟨hsync, ?_, hrate, hlat⟩
    show 0 < s.successRate * (1 - alpha)
    norm_num [alpha]
    exact hpos

theorem Averaged.replay (h : s.Averaged) (results : List ProbeResult) : (s.replay results).Averaged :=
  replay_invariant (I := Averaged) h fun _ r _ hs => hs.apply r

theorem Regular.apply (h : s.Regular) {r : ProbeResult} (hr : r.Bounded) : (s.apply r).Regular := by
  have haveraged := h.toAveraged.apply r
  cases r with
  | success now r => exact ⟨haveraged, hr.1, hr.2⟩
  | failure now r => exact ⟨haveraged, h.support_nonneg, h.support_le⟩

theorem Regular.replay (h : s.Regular) (hres : ∀ r ∈ results, r.Bounded) : (s.replay results).Regular :=
  replay_invariant (I := Regular) h fun _ r hr hs => hs.apply (hres r hr)

theorem support_replay (h : s.methodSupportScore = 1) (hres : ∀ r ∈ results, r.Full) :
    (s.replay results).methodSupportScore = 1 := by
  refine replay_invariant (I := fun s => s.methodSupportScore = 1) h fun s r hr hs => ?_
  have hfull := hres r hr
  cases r with
  | success now r => exact hfull
  | failure now r => exact hs

theorem provider_apply (s : ProviderHealthState) (r : ProbeResult) : (s.apply r).provider = s.provider := by
  cases r <;> rfl

theorem replay_failures (s : ProviderHealthState) (hfail : ∀ r ∈ results, r.failed = true) :
    (s.replay results).successRate = s.successRate * (7 / 10) ^ results.length ∧
    (s.replay results).latencyAvg = s.latencyAvg := by
  induction results generalizing s with
  | nil =>
    rw [List.length_nil, pow_zero, mul_one]
    exact ⟨rfl, rfl⟩
  | cons r results ih =>
    obtain ⟨hrate, hlat⟩ := ih (s.apply r) fun r' hr' => hfail r' (List.mem_cons_of_mem _ hr')
    cases r with
    | success now r => cases hfail _ List.mem_cons_self
    | failure now r =>
      refine ⟨hrate.trans ?_, hlat⟩
      show s.successRate * (1 - alpha) * _ = _
      rw [List.length_cons, pow_succ]
      norm_num [alpha]
      ring

/-! ### The score -/

theorem latencyScore_nonneg (s : ProviderHealthState) : 0 ≤ s.latencyScore := by
  unfold latencyScore
  split
  · exact zero_le_one
  · exact clamp01_nonneg _

theorem latencyScore_le (s : ProviderHealthState) : s.latencyScore ≤ 1 := by
  unfold latencyScore
  split
  · exact le_refl _
  · exact clamp01_le _

/-- The latency score is below two thirds exactly if the average latency is above three seconds. -/
theorem latencyScore_lt_iff (s : ProviderHealthState) : s.latencyScore < 2 / 3 ↔ 3000 < s.latencyAvg := by
  unfold latencyScore
  split
  · rename_i hle
    constructor
    · intro h
      norm_num at h
    · intro h
      linarith
  · rename_i hpos
    have hpos' : 0 < s.latencyAvg := not_le.mp hpos
    have hdiv : 0 ≤ 2000 / s.latencyAvg := by positivity
    unfold clamp01
    rw [max_eq_right (le_min hdiv zero_le_one), min_lt_iff, div_lt_iff₀ hpos']
    constructor
    · rintro (h | h)
      · linarith
      · norm_num at h
    · intro h
      left
      linarith

theorem Averaged.score_eq (h : s.Averaged) (hsup : s.methodSupportScore = 1) :
    s.score = 1 / 2 + 3 / 10 * s.latencyScore + 1 / 5 * s.successRate := by
  unfold score
  rw [h.syncScore, hsup, clamp01_eq (le_of_lt h.rate_pos) h.rate_le, clamp01_eq zero_le_one le_rfl]
  ring

theorem Regular.score_eq (h : s.Regular) (hsup : s.methodSupportScore = 1) :
    s.score = 1 / 2 + 3 / 10 * s.latencyScore + 1 / 5 * s.successRate := h.toAveraged.score_eq hsup

theorem score_le (s : ProviderHealthState) : s.score ≤ 1 := by
  have hsync := clamp01_le s.syncScore
  have hlat := s.latencyScore_le
  have hrate := clamp01_le s.successRate
  have hsup := clamp01_le s.methodSupportScore
  unfold score
  linarith

theorem score_nonneg (s : ProviderHealthState) : 0 ≤ s.score := by
  have hsync := clamp01_nonneg s.syncScore
  have hlat := s.latencyScore_nonneg
  have hrate := clamp01_nonneg s.successRate
  have hsup := clamp01_nonneg s.methodSupportScore
  unfold score
  linarith

/-- A score is within a tolerance of a best score if it is at least the share that the tolerance leaves of it. -/
theorem within_iff {best : Rat} (hbest : 0 ≤ best) (s : ProviderHealthState) (tolerance : ToleranceLevel) :
    s.snapshot.isWithinTolerance best tolerance = true ↔ (1 - tolerance.threshold) * best ≤ s.score := by
  have hnonneg := s.score_nonneg
  unfold ProviderHealthSnapshot.isWithinTolerance
  split
  · rename_i hle
    have hzero : best = 0 := le_antisymm hle hbest
    rw [hzero, mul_zero]
    exact ⟨fun _ => hnonneg, fun _ => rfl⟩
  · rw [decide_eq_true_eq, sub_mul, one_mul]
    show best - s.score ≤ _ ↔ _
    constructor
    · intro h
      linarith
    · intro h
      linarith

/-- Who has a higher score is within a tolerance if the other one is. -/
theorem within_mono {s s' : ProviderHealthState} (hle : s'.score ≤ s.score) {best : Rat} {tolerance : ToleranceLevel}
    (h : s'.snapshot.isWithinTolerance best tolerance = true) :
    s.snapshot.isWithinTolerance best tolerance = true := by
  unfold ProviderHealthSnapshot.isWithinTolerance at h ⊢
  split
  · rfl
  · rename_i hpos
    rw [if_neg hpos] at h
    exact decide_eq_true (le_trans (sub_le_sub_left hle best) (of_decide_eq_true h))

end ProviderHealthState

/-! ### A service -/

namespace HealthService

def apply (h : HealthService) : ProbeResult → HealthService
  | .success now r => h.applySuccess now r
  | .failure now r => h.applyFailure now r

def replay (h : HealthService) (results : List ProbeResult) : HealthService := results.foldl apply h

/-- Every state is stored under the id of its provider. -/
def Keyed (states : HealthStates) : Prop := ∀ p s, states.lookup p = some s → s.provider.id = p

variable {h : HealthService} {r : ProbeResult} {p : ProviderId}

theorem lookup_apply (h : HealthService) (r : ProbeResult) (p : ProviderId) :
    (h.apply r).state.lookup p =
      if p = r.provider then (h.state.lookup p).map (·.apply r) else h.state.lookup p := by
  cases r <;> exact HashMap.lookup_modify _ _ _ _

theorem replay_invariant {I : HealthService → Prop} {results : List ProbeResult} (hI : I h)
    (hstep : ∀ h, ∀ r ∈ results, I h → I (h.apply r)) : I (h.replay results) :=
  List.foldlRecOn results apply hI fun h hI r hr => hstep h r hr hI

theorem keyed_new (providers : List ProviderHandle) (tolerance : ToleranceLevel) :
    Keyed (new providers tolerance).state := by
  intro p s hs
  obtain ⟨handle, -, hid, rfl⟩ := HashMap.exists_of_lookup_collect hs
  exact hid

theorem Keyed.apply (hk : Keyed h.state) (r : ProbeResult) : Keyed (h.apply r).state := by
  intro p s hs
  rw [lookup_apply] at hs
  split at hs
  · obtain ⟨s₀, hs₀, rfl⟩ := Option.map_eq_some_iff.mp hs
    rw [ProviderHealthState.provider_apply]
    exact hk p s₀ hs₀
  · exact hk p s hs

theorem Keyed.replay (hk : Keyed h.state) (results : List ProbeResult) : Keyed (h.replay results).state :=
  replay_invariant (I := fun h => Keyed h.state) hk fun _ r _ hk => hk.apply r

theorem tolerance_replay (h : HealthService) (results : List ProbeResult) :
    (h.replay results).tolerance = h.tolerance := by
  refine replay_invariant (I := fun h' => h'.tolerance = h.tolerance) rfl fun h' r _ hkept => ?_
  cases r <;> exact hkept

/-- The results of a provider make its state, whatever the other providers report in between. -/
theorem lookup_replay (h : HealthService) (results : List ProbeResult) (p : ProviderId) :
    (h.replay results).state.lookup p =
      (h.state.lookup p).map fun s => s.replay (results.filter (·.provider == p)) := by
  induction results generalizing h with
  | nil => exact Option.map_id'.symm
  | cons r results ih =>
    refine (ih (h.apply r)).trans ?_
    rw [lookup_apply]
    by_cases hp : p = r.provider
    · rw [if_pos hp, Option.map_map, List.filter_cons_of_pos (by rw [hp]; exact beq_self_eq_true _)]
      rfl
    · rw [if_neg hp, List.filter_cons_of_neg (by simpa using Ne.symm hp)]

theorem mem_snapshots {x : ProviderHealthSnapshot} :
    x ∈ h.snapshots ↔ ∃ q s, h.state.lookup q = some s ∧ s.snapshot = x := by
  unfold snapshots
  rw [List.mem_map]
  constructor
  · rintro ⟨e, he, rfl⟩
    exact ⟨e.1, e.2, AList.mem_lookup_iff.mpr he, rfl⟩
  · rintro ⟨q, s, hs, rfl⟩
    exact ⟨⟨q, s⟩, AList.mem_lookup_iff.mp hs, rfl⟩

/-- No snapshot is left if no state is within the tolerance of the best score that was read before. -/
theorem filteredSnapshots_isEmpty_iff {atBest h : HealthService} : (atBest.filteredSnapshots h).isEmpty = true ↔
    ∀ q s, h.state.lookup q = some s → s.snapshot.isWithinTolerance atBest.bestScore h.tolerance = false := by
  rw [List.isEmpty_iff, filteredSnapshots, List.filter_eq_nil_iff]
  constructor
  · intro hnone q s hs
    exact Bool.eq_false_iff.mpr (hnone _ (mem_snapshots.mpr ⟨q, s, hs, rfl⟩))
  · intro hnone x hx
    obtain ⟨q, s, hs, rfl⟩ := mem_snapshots.mp hx
    exact Bool.eq_false_iff.mp (hnone q s hs)

theorem foldl_max_le {l : List Rat} {b best : Rat} (hb : b ≤ best) (hl : ∀ x ∈ l, x ≤ best) :
    l.foldl max b ≤ best := by
  induction l generalizing b with
  | nil => exact hb
  | cons x l ih => exact ih (max_le hb (hl x List.mem_cons_self)) fun y hy => hl y (List.mem_cons_of_mem _ hy)

theorem le_foldl_max {l : List Rat} {b x : Rat} (hx : x ≤ b ∨ x ∈ l) : x ≤ l.foldl max b := by
  induction l generalizing b with
  | nil => exact hx.resolve_right List.not_mem_nil
  | cons y l ih =>
    refine ih ?_
    rcases hx with hx | hx
    · exact .inl (le_max_of_le_left hx)
    · rcases List.mem_cons.mp hx with rfl | hx
      · exact .inl (le_max_right _ _)
      · exact .inr hx

theorem foldl_max_mem (l : List Rat) (b : Rat) : l.foldl max b = b ∨ l.foldl max b ∈ l := by
  induction l generalizing b with
  | nil => exact .inl rfl
  | cons x l ih =>
    rcases ih (max b x) with h | h
    · rcases max_choice b x with hb | hx
      · exact .inl (h.trans hb)
      · exact .inr (List.mem_cons.mpr (.inl (h.trans hx)))
    · exact .inr (List.mem_cons_of_mem _ h)

theorem bestScore_nonneg (h : HealthService) : 0 ≤ h.bestScore := le_foldl_max (.inl (le_refl 0))

theorem score_le_bestScore {states : HealthStates} {s : ProviderHealthState} (hs : states.lookup p = some s)
    (tolerance : ToleranceLevel) : s.score ≤ bestScore ⟨states, tolerance⟩ := by
  refine le_foldl_max (.inr (List.mem_map.mpr ⟨⟨p, s⟩, ?_, rfl⟩))
  exact AList.mem_lookup_iff.mp hs

theorem bestScore_le_one (h : HealthService) : h.bestScore ≤ 1 := by
  refine foldl_max_le zero_le_one fun x hx => ?_
  obtain ⟨e, -, rfl⟩ := List.mem_map.mp hx
  exact e.2.score_le

theorem exists_bestScore {states : HealthStates} {s : ProviderHealthState} (hs : states.lookup p = some s)
    (tolerance : ToleranceLevel) :
    ∃ q s', states.lookup q = some s' ∧ s'.score = bestScore ⟨states, tolerance⟩ := by
  rcases foldl_max_mem (states.entries.map fun e => e.2.score) 0 with hzero | hmem
  · refine ⟨p, s, hs, le_antisymm (score_le_bestScore hs tolerance) ?_⟩
    exact le_of_eq_of_le hzero s.score_nonneg
  · obtain ⟨e, he, heq⟩ := List.mem_map.mp hmem
    exact ⟨e.1, e.2, AList.mem_lookup_iff.mpr he, heq⟩

/-- A state of a map whose score no other one exceeds. -/
structure Best (states : HealthStates) (s : ProviderHealthState) : Prop where
  mem : ∃ p, states.lookup p = some s
  le : ∀ q s', states.lookup q = some s' → s'.score ≤ s.score

theorem exists_best {states : HealthStates} {s : ProviderHealthState} (hs : states.lookup p = some s) :
    ∃ s', Best states s' := by
  obtain ⟨q, s', hs', hbest⟩ := exists_bestScore hs .balanced
  refine ⟨s', ⟨q, hs'⟩, fun q s hs => ?_⟩
  rw [hbest]
  exact score_le_bestScore hs _

/-- It is within every tolerance of the best score. -/
theorem Best.within {states : HealthStates} {s : ProviderHealthState} (h : Best states s)
    (service tolerance : ToleranceLevel) :
    s.snapshot.isWithinTolerance (bestScore ⟨states, service⟩) tolerance = true := by
  obtain ⟨p, hs⟩ := h.mem
  obtain ⟨q, s', hs', hbest⟩ := exists_bestScore hs service
  refine (s.within_iff (bestScore_nonneg _) tolerance).mpr (le_trans ?_ (le_of_eq_of_le hbest.symm (h.le q s' hs')))
  refine mul_le_of_le_one_left (bestScore_nonneg _) ?_
  cases tolerance <;> norm_num [ToleranceLevel.threshold]

/-- What a service over the providers of a pool holds: a state for each of them, under its id, and no other. -/
structure Over (states : HealthStates) (pool : ProviderPool) : Prop where
  keyed : Keyed states
  covers : ∀ h ∈ pool.providers, ∃ s, states.lookup h.id = some s
  only : ∀ p s, states.lookup p = some s → ∃ h ∈ pool.providers, h.id = p

theorem over_new (providers : List ProviderHandle) (tolerance : ToleranceLevel) :
    Over (new providers tolerance).state ⟨providers⟩ where
  keyed := keyed_new providers tolerance
  covers h hh := HashMap.exists_lookup_collect hh (·.id) ProviderHealthState.new
  only p s hs := by
    obtain ⟨h, hh, hid, -⟩ := HashMap.exists_of_lookup_collect hs
    exact ⟨h, hh, hid⟩

theorem Over.replay {pool : ProviderPool} (hover : Over h.state pool) (results : List ProbeResult) :
    Over (h.replay results).state pool where
  keyed := hover.keyed.replay results
  covers handle hh := by
    obtain ⟨s, hs⟩ := hover.covers handle hh
    rw [lookup_replay, hs]
    exact ⟨_, rfl⟩
  only p s hs := by
    rw [lookup_replay] at hs
    obtain ⟨s₀, hs₀, -⟩ := Option.map_eq_some_iff.mp hs
    exact hover.only p s₀ hs₀

end HealthService

/-! ### What a selection makes of it -/

theorem lookup_kept {health : HealthService} (hk : HealthService.Keyed health.state)
    (keep : ProviderHealthSnapshot → Bool) (p : ProviderId) :
    (HashMap.collect ((health.snapshots.filter keep).map fun s => (s.provider, s))).lookup p =
      ((health.state.lookup p).map (·.snapshot)).filter keep := by
  have hkeys : health.snapshots.map (·.provider) = health.state.keys := by
    rw [HealthService.snapshots, List.map_map]
    refine List.map_congr_left fun e he => ?_
    exact hk e.1 e.2 (AList.mem_lookup_iff.mpr he)
  have hnodup : (((health.snapshots.filter keep).map fun s => (s.provider, s)).map Prod.fst).Nodup := by
    rw [List.map_map]
    have hsub := (List.filter_sublist (p := keep) (l := health.snapshots)).map (·.provider)
    exact List.Nodup.sublist hsub (hkeys ▸ health.state.keys_nodup)
  refine Option.ext fun x => ?_
  rw [Option.filter_eq_some_iff, Option.map_eq_some_iff]
  constructor
  · intro hx
    obtain ⟨y, hy, heq⟩ := List.mem_map.mp (HashMap.mem_of_lookup_collect hx)
    obtain ⟨hp, rfl⟩ := Prod.mk.inj heq
    obtain ⟨hmem, hkeep⟩ := List.mem_filter.mp hy
    obtain ⟨q, s, hs, rfl⟩ := HealthService.mem_snapshots.mp hmem
    have hid : q = p := (hk q s hs).symm.trans hp
    exact ⟨⟨s, hid ▸ hs, rfl⟩, hkeep⟩
  · rintro ⟨⟨s, hs, rfl⟩, hkeep⟩
    refine HashMap.lookup_collect_of_nodup hnodup (List.mem_map.mpr ⟨s.snapshot, ?_, ?_⟩)
    · exact List.mem_filter.mpr ⟨HealthService.mem_snapshots.mpr ⟨p, s, hs, rfl⟩, hkeep⟩
    · exact Prod.ext (hk p s hs) rfl

/-- The filter holds the snapshots that the service lets through, or none at all where it lets none through. -/
theorem healthFilter_eq {lb : LoadBalancer} {health : HealthService} (hh : lb.health = some health)
    (reads : HealthReads) (policy : Option MethodPolicy) : lb.healthFilter reads policy =
      let snapshots := (HealthService.mk reads.atBest health.tolerance).filteredSnapshots
        ⟨reads.atSnapshots, health.tolerance⟩
      if snapshots.isEmpty then ⟨∅, 0, (policy.map (·.tolerance)).getD health.tolerance, true⟩
      else ⟨HashMap.collect (snapshots.map fun s => (s.provider, s)),
        HealthService.bestScore ⟨reads.atBestAgain, health.tolerance⟩,
        (policy.map (·.tolerance)).getD health.tolerance, false⟩ := by
  unfold LoadBalancer.healthFilter
  rw [hh]

/-- A provider passes the filter if its snapshot is within the tolerance of the service of the best score that
    is read first, and within that of the policy of the best score that is read last; or if no snapshot at all
    is within the tolerance of the service. -/
theorem passes_iff {lb : LoadBalancer} {health : HealthService} (hh : lb.health = some health) {reads : HealthReads}
    (hk : HealthService.Keyed reads.atSnapshots) (policy : Option MethodPolicy) (p : ProviderId) :
    (lb.healthFilter reads policy).passes p = true ↔
      (∀ q s, reads.atSnapshots.lookup q = some s →
        s.snapshot.isWithinTolerance (HealthService.bestScore ⟨reads.atBest, health.tolerance⟩) health.tolerance =
          false) ∨
      ∃ s, reads.atSnapshots.lookup p = some s ∧
        s.snapshot.isWithinTolerance (HealthService.bestScore ⟨reads.atBest, health.tolerance⟩) health.tolerance =
          true ∧
        s.snapshot.isWithinTolerance (HealthService.bestScore ⟨reads.atBestAgain, health.tolerance⟩)
          ((policy.map (·.tolerance)).getD health.tolerance) = true := by
  obtain ⟨atBest, atSnapshots, atBestAgain⟩ := reads
  let first : HealthService := ⟨atBest, health.tolerance⟩
  let second : HealthService := ⟨atSnapshots, health.tolerance⟩
  have hempty : (first.filteredSnapshots second).isEmpty = true ↔ ∀ q s, atSnapshots.lookup q = some s →
      s.snapshot.isWithinTolerance first.bestScore health.tolerance = false :=
    HealthService.filteredSnapshots_isEmpty_iff
  have hkeyed : HealthService.Keyed second.state := hk
  have hlookup := lookup_kept hkeyed (fun s => s.isWithinTolerance first.bestScore health.tolerance) p
  rw [healthFilter_eq hh]
  show HealthFilter.passes (if (first.filteredSnapshots second).isEmpty then _ else _) p = true ↔ _
  by_cases hnone : (first.filteredSnapshots second).isEmpty = true
  · rw [if_pos hnone]
    simp only [HealthFilter.passes, Bool.true_or, true_iff]
    exact .inl (hempty.mp hnone)
  · rw [if_neg hnone]
    have hleft : ¬∀ q s, atSnapshots.lookup q = some s →
        s.snapshot.isWithinTolerance first.bestScore health.tolerance = false := fun h => hnone (hempty.mpr h)
    simp only [HealthFilter.passes, Bool.false_or]
    rw [or_iff_right hleft]
    unfold HealthService.filteredSnapshots
    rw [hlookup]
    cases hs : atSnapshots.lookup p with
    | none => simp
    | some s =>
      rw [Option.map_some]
      by_cases hw : s.snapshot.isWithinTolerance first.bestScore health.tolerance = true
      · simp [first, Option.filter_some, hw]
      · simp [first, Option.filter_some, hw]

theorem passes_fixed {lb : LoadBalancer} {health : HealthService} (hh : lb.health = some health)
    (hk : HealthService.Keyed health.state) (policy : Option MethodPolicy) (p : ProviderId) :
    (lb.healthFilter (.fixed health.state) policy).passes p = true ↔
      (∀ q s, health.state.lookup q = some s →
        s.snapshot.isWithinTolerance health.bestScore health.tolerance = false) ∨
      ∃ s, health.state.lookup p = some s ∧
        s.snapshot.isWithinTolerance health.bestScore health.tolerance = true ∧
        s.snapshot.isWithinTolerance health.bestScore ((policy.map (·.tolerance)).getD health.tolerance) = true :=
  passes_iff hh hk policy p

/-! ### The probes of one provider -/

def firstProvider : ProviderHandle := ProviderConfig.intoHandle { id := ⟨"a"⟩, url := "https://a.example" }

/-- An answer that supports every method, after some milliseconds. -/
def answered (millis : UInt64) : ProbeResult := .success 0 ⟨⟨"a"⟩, Duration.fromMillis millis, 1, 1, 1⟩

def noAnswer : ProbeResult := .failure 0 ⟨⟨"a"⟩, none, .timeout⟩

def secondProvider : ProviderHandle := ProviderConfig.intoHandle { id := ⟨"b"⟩, url := "https://b.example" }

def twoProviders : List ProviderHandle := [firstProvider, secondProvider]

def secondUnanswered : ProbeResult := .failure 0 ⟨⟨"b"⟩, none, .timeout⟩

end Rpceth
