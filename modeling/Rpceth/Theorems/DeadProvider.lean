import Rpceth.Theorems.HealthHistory

/-! A provider whose probes only fail: a failure moves one of the four parts of the score, so the score falls
    to a floor that depends on the latency of its last successes, and the tolerance decides whether the floor
    is low enough. -/

namespace Rpceth
open Lib

namespace ProviderHealthState
variable {s : ProviderHealthState} {failures : List ProbeResult} {tolerance : ToleranceLevel}

/-- The score that failures approach from above. -/
def floor (s : ProviderHealthState) : Rat := 1 / 2 + 3 / 10 * s.latencyScore

theorem score_failures (hreg : s.Regular) (hsup : s.methodSupportScore = 1)
    (hfail : ∀ r ∈ failures, r.failed = true) :
    (s.replay failures).score = s.floor + 1 / 5 * (s.successRate * (7 / 10) ^ failures.length) := by
  have hfull : ∀ r ∈ failures, r.Full := by
    intro r hr
    cases r with
    | success now r => cases hfail _ hr
    | failure now r => exact trivial
  obtain ⟨hrate, hlat⟩ := replay_failures s hfail
  have hlatency : (s.replay failures).latencyScore = s.latencyScore := by
    unfold latencyScore
    rw [hlat]
  have hreg' := hreg.replay fun r hr => (hfull r hr).bounded
  rw [hreg'.score_eq (support_replay hsup hfull), hrate, hlatency]
  rfl

theorem within_one_iff (s : ProviderHealthState) (tolerance : ToleranceLevel) :
    s.snapshot.isWithinTolerance 1 tolerance = true ↔ 1 - tolerance.threshold ≤ s.score := by
  rw [s.within_iff zero_le_one, mul_one]

theorem eventually_out (hreg : s.Regular) (hsup : s.methodSupportScore = 1)
    (hfloor : s.floor < 1 - tolerance.threshold) :
    ∃ N, ∀ failures : List ProbeResult, (∀ r ∈ failures, r.failed = true) → N ≤ failures.length →
      (s.replay failures).snapshot.isWithinTolerance 1 tolerance = false := by
  have hgap : 0 < 1 - tolerance.threshold - s.floor := by linarith
  obtain ⟨N, hN⟩ := exists_pow_mul_lt (show (0 : Rat) ≤ 7 / 10 by norm_num) (by norm_num) hgap s.successRate
  refine ⟨N, fun failures hfail hlen => ?_⟩
  rw [Bool.eq_false_iff, Ne, within_one_iff, score_failures hreg hsup hfail, not_le]
  have hsmall := hN failures.length hlen
  have hnonneg : 0 ≤ (7 / 10 : Rat) ^ failures.length * s.successRate :=
    mul_nonneg (by positivity) (le_of_lt hreg.rate_pos)
  linarith

theorem always_within (hreg : s.Regular) (hsup : s.methodSupportScore = 1)
    (hfloor : 1 - tolerance.threshold ≤ s.floor) (hfail : ∀ r ∈ failures, r.failed = true) :
    (s.replay failures).snapshot.isWithinTolerance 1 tolerance = true := by
  rw [within_one_iff, score_failures hreg hsup hfail]
  have hrate : 0 < s.successRate * (7 / 10) ^ failures.length := mul_pos hreg.rate_pos (by positivity)
  linarith

theorem floor_lt_iff (s : ProviderHealthState) (tolerance : ToleranceLevel) :
    s.floor < 1 - tolerance.threshold ↔
      tolerance = .strict ∨ tolerance = .balanced ∧ 3000 < s.latencyAvg := by
  have hnonneg := s.latencyScore_nonneg
  have hle := s.latencyScore_le
  have hlat := s.latencyScore_lt_iff
  unfold floor
  cases tolerance with
  | strict =>
    simp only [ToleranceLevel.threshold, true_or, iff_true]
    linarith
  | balanced =>
    simp only [ToleranceLevel.threshold, reduceCtorEq, true_and, false_or, ← hlat]
    constructor
    · intro h
      linarith
    · intro h
      linarith
  | relaxed =>
    simp only [ToleranceLevel.threshold, reduceCtorEq, false_and, or_self, iff_false]
    intro h
    linarith

end ProviderHealthState

/-- While a health service holds `s` for its provider and a score of one for another one, no selection
    returns the provider of `s`, if `tolerance` is that of the service or that of the policy. -/
def NeverSelected (tolerance : ToleranceLevel) (s : ProviderHealthState) : Prop :=
  ∀ (providers : List ProviderHandle) (chainTolerance : ToleranceLevel) (results : List ProbeResult)
    (lb : LoadBalancer) (health : HealthService) (policy : Option MethodPolicy) (q : ProviderId)
    (healthy : ProviderHealthState),
    health = (HealthService.new providers chainTolerance).replay results → lb.health = some health →
    chainTolerance = tolerance ∨ (∃ m ∈ policy, m.tolerance = tolerance) →
    health.state.lookup s.provider.id = some s → health.state.lookup q = some healthy → healthy.score = 1 →
    ∀ cursor rng exclude h, (lb.select (.fixed health.state) cursor rng exclude policy).1 = some h →
      h.id ≠ s.provider.id

theorem neverSelected_of_out {s : ProviderHealthState} {tolerance : ToleranceLevel}
    (hout : s.snapshot.isWithinTolerance 1 tolerance = false) : NeverSelected tolerance s := by
  intro providers chainTolerance results lb health policy q healthy hhealth hlb htol hs hq hscore cursor rng exclude
    h hsel hid
  have hk : HealthService.Keyed health.state := by
    rw [hhealth]
    exact (HealthService.keyed_new providers chainTolerance).replay results
  have htolerance : health.tolerance = chainTolerance := by
    rw [hhealth, HealthService.tolerance_replay]
    rfl
  have hbest : health.bestScore = 1 := by
    refine le_antisymm health.bestScore_le_one ?_
    rw [← hscore]
    exact HealthService.score_le_bestScore hq health.tolerance
  have hpass := (LoadBalancer.select_eq_some hsel).2.2
  rw [hid, passes_fixed hlb hk, hbest] at hpass
  rcases hpass with hnone | ⟨s', hs', hservice, hpolicy⟩
  -- The healthy provider is within every tolerance.
  · have hwithin : healthy.snapshot.isWithinTolerance 1 health.tolerance = true := by
      rw [ProviderHealthState.within_one_iff, hscore]
      cases health.tolerance <;> norm_num [ToleranceLevel.threshold]
    rw [hnone q healthy hq] at hwithin
    cases hwithin
  · rw [hs] at hs'
    cases hs'
    rcases htol with htol | ⟨m, hm, htol⟩
    · rw [htolerance, htol, hout] at hservice
      cases hservice
    · obtain rfl : policy = some m := hm
      rw [Option.map_some, Option.getD_some, htol, hout] at hpolicy
      cases hpolicy

/-- Under the strict tolerance every provider whose probes only fail is filtered out in the end, under the
    balanced one those whose average latency was above three seconds, and under the relaxed one none. -/
theorem dead_provider_filtered (handle : ProviderHandle) (history : List ProbeResult)
    (hfull : ∀ r ∈ history, r.Full) (tolerance : ToleranceLevel) :
    let s := (ProviderHealthState.new handle).replay history
    ((tolerance = .strict ∨ tolerance = .balanced ∧ 3000 < s.latencyAvg) →
      ∃ N, ∀ failures : List ProbeResult, (∀ r ∈ failures, r.failed = true) → N ≤ failures.length →
        (s.replay failures).snapshot.isWithinTolerance 1 tolerance = false ∧
        NeverSelected tolerance (s.replay failures)) ∧
    (¬(tolerance = .strict ∨ tolerance = .balanced ∧ 3000 < s.latencyAvg) →
      ∀ failures : List ProbeResult, (∀ r ∈ failures, r.failed = true) →
        (s.replay failures).snapshot.isWithinTolerance 1 tolerance = true) := by
  intro s
  have hreg : s.Regular := (ProviderHealthState.regular_new handle).replay fun r hr => (hfull r hr).bounded
  have hsup : s.methodSupportScore = 1 := ProviderHealthState.support_replay rfl hfull
  rw [← s.floor_lt_iff]
  constructor
  · intro hfloor
    obtain ⟨N, hN⟩ := ProviderHealthState.eventually_out hreg hsup hfloor
    refine ⟨N, fun failures hfail hlen => ?_⟩
    have hout := hN failures hfail hlen
    exact ⟨hout, neverSelected_of_out hout⟩
  · intro hfloor failures hfail
    exact ProviderHealthState.always_within hreg hsup (not_lt.mp hfloor) hfail

def lostProvider : ProviderHandle := ProviderConfig.intoHandle { id := ⟨"a"⟩, url := "https://a.example" }

/-- Under the default tolerance, a provider that never answered is never filtered out. -/
theorem not_always_filtered :
    ¬∀ tolerance handle (history : List ProbeResult), (∀ r ∈ history, r.Full) →
      ∃ N, ∀ failures : List ProbeResult, (∀ r ∈ failures, r.failed = true) → N ≤ failures.length →
        ((ProviderHealthState.new handle).replay (history ++ failures)).snapshot.isWithinTolerance 1 tolerance =
          false := by
  intro h
  obtain ⟨N, hN⟩ := h .balanced lostProvider [] fun r hr => absurd hr List.not_mem_nil
  have hfail : ∀ r ∈ List.replicate N (ProbeResult.failure 0 ⟨⟨"a"⟩, none, .timeout⟩), r.failed = true := by
    intro r hr
    rw [List.eq_of_mem_replicate hr]
    rfl
  have hout := hN _ hfail (le_of_eq (List.length_replicate).symm)
  rw [List.nil_append, ProviderHealthState.always_within (ProviderHealthState.regular_new _) rfl ?_ hfail] at hout
  · cases hout
  · rw [← not_lt, ProviderHealthState.floor_lt_iff]
    rintro (hstrict | ⟨-, hlat⟩)
    · cases hstrict
    · norm_num [ProviderHealthState.new] at hlat

def slowProbe : ProbeResult := .success 0 ⟨⟨"a"⟩, 4000000000, 1, 1, 1⟩

/-- A provider that answered once in four seconds and then fails is filtered out under the default
    tolerance. -/
theorem dead_provider_filtered_slow :
    ∃ N, ∀ failures : List ProbeResult, (∀ r ∈ failures, r.failed = true) → N ≤ failures.length →
      (((ProviderHealthState.new lostProvider).replay [slowProbe]).replay failures).snapshot.isWithinTolerance 1
        .balanced = false := by
  have hfull : ∀ r ∈ [slowProbe], r.Full := by
    intro r hr
    rw [List.mem_singleton.mp hr]
    exact rfl
  have hlatency : 3000 < ((ProviderHealthState.new lostProvider).replay [slowProbe]).latencyAvg := by
    norm_num [ProviderHealthState.replay, ProviderHealthState.apply, ProviderHealthState.applySuccess, slowProbe,
      ProviderHealthState.new, Duration.asMillis]
  obtain ⟨N, hN⟩ := (dead_provider_filtered lostProvider [slowProbe] hfull .balanced).1 (.inr ⟨rfl, hlatency⟩)
  exact ⟨N, fun failures hfail hlen => (hN failures hfail hlen).1⟩

end Rpceth
