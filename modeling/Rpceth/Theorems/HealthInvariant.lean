import Mathlib.Order.Bounds.Basic
import Rpceth.Theorems.HealthHistory

/-! What holds of a health service after any probes: the bounds of each state and of its score, what a failed
    probe changes, the best score, and which snapshots the filter keeps. -/

namespace Rpceth
open Lib

/-- The latency that a successful probe reports, in milliseconds. -/
def ProbeResult.latencyMs : ProbeResult → Option Rat
  | success _ r => some (Duration.asMillis r.latency)
  | failure _ _ => none

namespace ProviderHealthState

/-- An average of the latencies: between the least and the greatest of them, and zero if there are none. -/
def Averages (latencies : List Rat) (avg : Rat) : Prop := latencies = [] ∧ avg = 0 ∨ Between latencies avg

section Latency
variable {s : ProviderHealthState} {latencies : List Rat}

/-- An average of zero is replaced by the next sample, any other one moves towards it. -/
theorem Averages.apply (h : Averages latencies s.latencyAvg) (r : ProbeResult) :
    Averages (latencies ++ r.latencyMs.toList) (s.apply r).latencyAvg := by
  cases r with
  | success now r =>
    right
    rw [latencyAvg_success]
    split
    · exact between_of_mem (List.mem_append_right _ (List.mem_singleton_self _))
    · rename_i hne
      exact (h.resolve_left fun hnone => hne hnone.2).ewma alpha_nonneg alpha_le_one _
  | failure now r =>
    rw [show ProbeResult.latencyMs (.failure now r) = none from rfl, Option.toList_none, List.append_nil]
    exact h

theorem averages_replay (h : Averages latencies s.latencyAvg) (results : List ProbeResult) :
    Averages (latencies ++ results.filterMap ProbeResult.latencyMs) (s.replay results).latencyAvg := by
  induction results generalizing s latencies with
  | nil =>
    rw [List.filterMap_nil, List.append_nil]
    exact h
  | cons r results ih =>
    have hrest := ih (h.apply r)
    rw [List.append_assoc] at hrest
    have hsplit : (r :: results).filterMap ProbeResult.latencyMs =
        r.latencyMs.toList ++ results.filterMap ProbeResult.latencyMs := by
      rw [List.filterMap_cons]
      cases r.latencyMs <;> rfl
    rw [hsplit]
    exact hrest

end Latency

section Score
variable {s : ProviderHealthState}

/-- The synchronization alone contributes 0.4, and the success rate is not zero. -/
theorem Averaged.lt_score (h : s.Averaged) : 4 / 10 < s.score := by
  have hlat := s.latencyScore_nonneg
  have hsup := clamp01_nonneg s.methodSupportScore
  have hpos := h.rate_pos
  unfold score
  rw [h.syncScore, clamp01_eq (le_of_lt h.rate_pos) h.rate_le, clamp01_eq zero_le_one le_rfl]
  linarith

/-- A failure changes the score through the success rate alone. -/
theorem Averaged.score_failure (h : s.Averaged) (now : Instant) (failure : ProbeFailureKind) :
    (s.applyFailure now failure).score = s.score - 6 / 100 * s.successRate := by
  have hpos := h.rate_pos
  have hle := h.rate_le
  have hrate : clamp01 (s.successRate * (1 - alpha)) = s.successRate * (1 - alpha) := by
    refine clamp01_eq ?_ ?_
    · rw [one_sub_alpha]
      positivity
    · rw [one_sub_alpha]
      linarith
  show clamp01 s.syncScore * (4 / 10) + s.latencyScore * (3 / 10) + clamp01 (s.successRate * (1 - alpha)) * (2 / 10) +
    clamp01 s.methodSupportScore * (1 / 10) = _
  rw [hrate, one_sub_alpha, score, clamp01_eq (le_of_lt hpos) hle]
  ring

theorem Averaged.score_failure_lt (h : s.Averaged) (now : Instant) (failure : ProbeFailureKind) :
    (s.applyFailure now failure).score < s.score := by
  have hpos := h.rate_pos
  rw [h.score_failure]
  linarith

end Score
end ProviderHealthState

namespace HealthService
open ProviderHealthState

/-- The latencies of the successful probes of a provider. -/
def latencies (results : List ProbeResult) (p : ProviderId) : List Rat :=
  (results.filter (·.provider == p)).filterMap ProbeResult.latencyMs

/-- What the results make of the state of a provider. -/
structure Bounds (results : List ProbeResult) (p : ProviderId) (s : ProviderHealthState) : Prop where
  rate_pos : 0 < s.successRate
  rate_le : s.successRate ≤ 1
  latency : Averages (latencies results p) s.latencyAvg
  lt_score : 4 / 10 < s.score
  score_le : s.score ≤ 1

/-- What the results make of a service over some providers. -/
structure Invariant (providers : List ProviderHandle) (results : List ProbeResult) (h : HealthService) : Prop where
  covers : ∀ handle ∈ providers, ∃ s, h.state.lookup handle.id = some s
  bounds : ∀ p s, h.state.lookup p = some s → Bounds results p s
  failure_lt : ∀ now failure s, h.state.lookup failure.provider = some s →
    ∃ s', (h.applyFailure now failure).state.lookup failure.provider = some s' ∧ s'.score < s.score
  failure_frame : ∀ now failure p, p ≠ failure.provider →
    (h.applyFailure now failure).state.lookup p = h.state.lookup p
  best : IsGreatest {x | ∃ p s, h.state.lookup p = some s ∧ s.score = x} h.bestScore
  filter : ∀ x, x ∈ filteredSnapshots h h ↔ ∃ s, h.state.lookup x.provider = some s ∧ x = s.snapshot ∧
    (1 - h.tolerance.threshold) * h.bestScore ≤ s.score
  filter_best : ∀ p s, h.state.lookup p = some s → s.score = h.bestScore → s.snapshot ∈ filteredSnapshots h h

variable {health : HealthService} {p : ProviderId} {s : ProviderHealthState} {results : List ProbeResult}

theorem mem_filteredSnapshots (hk : Keyed health.state) {x : ProviderHealthSnapshot} :
    x ∈ filteredSnapshots health health ↔ ∃ s, health.state.lookup x.provider = some s ∧ x = s.snapshot ∧
      (1 - health.tolerance.threshold) * health.bestScore ≤ s.score := by
  have hbest := health.bestScore_nonneg
  unfold filteredSnapshots
  rw [List.mem_filter, mem_snapshots]
  constructor
  · rintro ⟨⟨q, s, hs, rfl⟩, hkeep⟩
    refine ⟨s, ?_, rfl, (s.within_iff hbest _).mp hkeep⟩
    rw [show s.snapshot.provider = q from hk q s hs]
    exact hs
  · rintro ⟨s, hs, rfl, hscore⟩
    exact ⟨⟨_, s, hs, rfl⟩, (s.within_iff hbest _).mpr hscore⟩

theorem isGreatest_bestScore (hs : health.state.lookup p = some s) :
    IsGreatest {x | ∃ p s, health.state.lookup p = some s ∧ s.score = x} health.bestScore := by
  constructor
  · exact exists_bestScore hs health.tolerance
  · rintro x ⟨q, s', hs', rfl⟩
    exact score_le_bestScore hs' health.tolerance

/-- The state of a provider is a new one after its own results. -/
theorem exists_replay {providers : List ProviderHandle} {tolerance : ToleranceLevel}
    (hs : ((new providers tolerance).replay results).state.lookup p = some s) :
    ∃ handle, s = (ProviderHealthState.new handle).replay (results.filter (·.provider == p)) := by
  rw [lookup_replay] at hs
  obtain ⟨s₀, hs₀, rfl⟩ := Option.map_eq_some_iff.mp hs
  obtain ⟨handle, -, -, rfl⟩ := HashMap.exists_of_lookup_collect hs₀
  exact ⟨handle, rfl⟩

theorem bounds_replay (handle : ProviderHandle) (results : List ProbeResult) (p : ProviderId) :
    Bounds results p ((ProviderHealthState.new handle).replay (results.filter (·.provider == p))) := by
  have havg := (averaged_new handle).replay (results.filter (·.provider == p))
  have hnew : Averages [] (ProviderHealthState.new handle).latencyAvg := .inl ⟨rfl, rfl⟩
  exact ⟨havg.rate_pos, havg.rate_le, averages_replay hnew _, havg.lt_score, score_le _⟩

/-- After any probes of its providers a health service keeps its bounds, and its filter is exact. -/
theorem invariant_replay (providers : List ProviderHandle) (tolerance : ToleranceLevel) (hne : providers ≠ [])
    (results : List ProbeResult) : Invariant providers results ((new providers tolerance).replay results) where
  covers := ((over_new providers tolerance).replay results).covers
  bounds p s hs := by
    obtain ⟨handle, rfl⟩ := exists_replay hs
    exact bounds_replay handle results p
  failure_lt now failure s hs := by
    obtain ⟨handle, rfl⟩ := exists_replay hs
    have havg := (averaged_new handle).replay (results.filter (·.provider == failure.provider))
    refine ⟨_, ?_, havg.score_failure_lt now failure⟩
    refine (lookup_apply _ (.failure now failure) _).trans ?_
    rw [show ProbeResult.provider (.failure now failure) = failure.provider from rfl, if_pos rfl, hs]
    rfl
  failure_frame now failure p hp := (lookup_apply _ (.failure now failure) p).trans (if_neg hp)
  best := by
    obtain ⟨handle, hmem⟩ := List.exists_mem_of_ne_nil _ hne
    obtain ⟨s, hs⟩ := ((over_new providers tolerance).replay results).covers handle hmem
    exact isGreatest_bestScore hs
  filter x := mem_filteredSnapshots ((keyed_new providers tolerance).replay results)
  filter_best p s hs hbest := by
    have hkeyed := (keyed_new providers tolerance).replay results
    refine (mem_filteredSnapshots hkeyed).mpr ⟨s, ?_, rfl, ?_⟩
    · rw [show s.snapshot.provider = p from hkeyed p s hs]
      exact hs
    · rw [hbest]
      refine mul_le_of_le_one_left (bestScore_nonneg _) ?_
      cases ((new providers tolerance).replay results).tolerance <;> norm_num [ToleranceLevel.threshold]

/-- An answer of the first provider after seven milliseconds, and a probe of each without an answer. -/
theorem invariant_replay_two :
    Invariant twoProviders [answered 7, secondUnanswered, noAnswer]
      ((new twoProviders .strict).replay [answered 7, secondUnanswered, noAnswer]) :=
  invariant_replay twoProviders .strict (List.cons_ne_nil _ _) [answered 7, secondUnanswered, noAnswer]

end HealthService
end Rpceth
