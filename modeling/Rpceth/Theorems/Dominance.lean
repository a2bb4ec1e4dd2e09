import Rpceth.Theorems.HealthHistory

/-! Two probe histories of which one is at least as good at every position. It gives the higher success rate,
    but a failure leaves the latency average alone, so a slow success can cost more than the failure it
    replaces. -/

namespace Rpceth
open Lib

namespace ProbeResult

/-- The second result is at least as good as the first. -/
def AtLeast : ProbeResult → ProbeResult → Prop
  | success _ g, success _ h => h.latency ≤ g.latency ∧ g.methodSupportScore = 1 ∧ h.methodSupportScore = 1
  | success _ _, failure _ _ => False
  | failure _ _, _ => True

theorem AtLeast.outcome {g h : ProbeResult} (hgh : AtLeast g h) : g.outcome ≤ h.outcome := by
  rcases g with ⟨now, g⟩ | ⟨now, g⟩ <;> rcases h with ⟨now', h⟩ | ⟨now', h⟩
  · exact le_refl _
  · exact hgh.elim
  · exact zero_le_one
  · exact le_refl _

end ProbeResult

theorem asMillis_mono {d d' : Duration} (h : d ≤ d') : Duration.asMillis d ≤ Duration.asMillis d' := by
  unfold Duration.asMillis
  have hcast : (d : Rat) ≤ (d' : Rat) := Nat.cast_le.mpr h
  linarith

theorem asMillis_pos {d : Duration} (h : 0 < d) : 0 < Duration.asMillis d := by
  have hcast : (0 : Rat) < (d : Rat) := Nat.cast_pos.mpr h
  unfold Duration.asMillis
  positivity

namespace ProviderHealthState
variable {s t : ProviderHealthState} {x y : ProbeResult} {g h : List ProbeResult}

/-! ### The parts of the score -/

theorem successRate_dominance (hrate : s.successRate ≤ t.successRate) (hgh : List.Forall₂ ProbeResult.AtLeast g h) :
    (s.replay g).successRate ≤ (t.replay h).successRate := by
  rw [successRate_replay, successRate_replay]
  refine ewmas_mono alpha_nonneg alpha_le_one hrate ?_
  rw [List.forall₂_map_left_iff, List.forall₂_map_right_iff]
  exact hgh.imp fun _ _ => ProbeResult.AtLeast.outcome

theorem latencyScore_of_prompt (ht : t.latencyAvg ≤ 2000) : t.latencyScore = 1 := by
  unfold latencyScore
  split
  · rfl
  · rename_i hpos
    have hone : 1 ≤ 2000 / t.latencyAvg := (one_le_div (not_le.mp hpos)).mpr ht
    rw [clamp01, min_eq_right hone, max_eq_right zero_le_one]

theorem latencyScore_anti (hle : t.latencyAvg ≤ s.latencyAvg) : s.latencyScore ≤ t.latencyScore := by
  by_cases ht : t.latencyAvg ≤ 0
  · have hone : t.latencyScore = 1 := if_pos ht
    rw [hone]
    exact s.latencyScore_le
  · have ht' : 0 < t.latencyAvg := not_le.mp ht
    have hs : ¬s.latencyAvg ≤ 0 := not_le.mpr (lt_of_lt_of_le ht' hle)
    have hdiv : 2000 / s.latencyAvg ≤ 2000 / t.latencyAvg := div_le_div_of_nonneg_left (by norm_num) ht' hle
    unfold latencyScore
    rw [if_neg ht, if_neg hs]
    exact max_le_max (le_refl 0) (min_le_min hdiv (le_refl 1))

theorem score_mono (hs : s.Averaged) (ht : t.Averaged) (hsup : t.methodSupportScore = 1)
    (hrate : s.successRate ≤ t.successRate) (hlat : s.latencyScore ≤ t.latencyScore) : s.score ≤ t.score := by
  have hsupport := clamp01_le s.methodSupportScore
  rw [ht.score_eq hsup]
  unfold score
  rw [hs.syncScore, clamp01_eq (le_of_lt hs.rate_pos) hs.rate_le, clamp01_eq zero_le_one le_rfl]
  linarith

/-! ### The average latency -/

theorem latencyAvg_prompt (ht : t.latencyAvg ≤ 2000) (hprompt : ∀ r ∈ h, r.Prompt) :
    (t.replay h).latencyAvg ≤ 2000 := by
  induction h generalizing t with
  | nil => exact ht
  | cons r h ih =>
    refine ih ?_ fun r' hr' => hprompt r' (List.mem_cons_of_mem _ hr')
    have hr := hprompt r List.mem_cons_self
    cases r with
    | success now r =>
      rw [latencyAvg_success]
      split
      · exact hr
      · exact ewma_le alpha_nonneg alpha_le_one ht hr
    | failure now r => exact ht

/-- From a state with the first history behind it, the successes of the second history take some time, and those
    against a failure of the first take no more than the average of the first. -/
def KeepsUp (s : ProviderHealthState) : List ProbeResult → List ProbeResult → Prop
  | x :: g, .success _ r :: h =>
    (0 < r.latency ∧ (x.failed = true → Duration.asMillis r.latency ≤ s.latencyAvg)) ∧ KeepsUp (s.apply x) g h
  | x :: g, .failure _ _ :: h => KeepsUp (s.apply x) g h
  | _, _ => True

/-- The average of `t` is not above that of `s`, and it is not the zero of a state without a success if that of
    `s` is not. -/
structure Faster (s t : ProviderHealthState) : Prop where
  nonneg : 0 ≤ t.latencyAvg
  le : t.latencyAvg ≤ s.latencyAvg
  started : t.latencyAvg = 0 → s.latencyAvg = 0

/-- A success against a success: both averages start, or both move on. -/
theorem Faster.success_success (hst : s.Faster t) {now now' : Instant} {r r' : ProbeSuccess}
    (hle : r'.latency ≤ r.latency) (hpos : 0 < r'.latency) :
    (s.apply (.success now r)).Faster (t.apply (.success now' r')) := by
  have hms := asMillis_mono hle
  have hms' := asMillis_pos hpos
  obtain ⟨hnonneg, hst, hzero⟩ := hst
  by_cases ht : t.latencyAvg = 0
  · have hs := hzero ht
    constructor <;> rw [latencyAvg_success, if_pos ht]
    · exact le_of_lt hms'
    · rw [latencyAvg_success, if_pos hs]
      exact hms
    · intro h
      exact absurd h (ne_of_gt hms')
  · have htpos : 0 < t.latencyAvg := lt_of_le_of_ne hnonneg (Ne.symm ht)
    have hs : s.latencyAvg ≠ 0 := ne_of_gt (lt_of_lt_of_le htpos hst)
    have hnew : 0 < ewma alpha t.latencyAvg (Duration.asMillis r'.latency) :=
      ewma_pos alpha_nonneg alpha_le_one htpos hms'
    constructor <;> rw [latencyAvg_success, if_neg ht]
    · exact le_of_lt hnew
    · rw [latencyAvg_success, if_neg hs]
      exact ewma_mono alpha_nonneg alpha_le_one hst hms
    · intro h
      exact absurd h (ne_of_gt hnew)

/-- A success against a failure: only the second average moves, and towards a sample that is below the first. -/
theorem Faster.failure_success (hst : s.Faster t) {now now' : Instant} {f : ProbeFailureKind} {r : ProbeSuccess}
    (hpos : 0 < r.latency) (hle : Duration.asMillis r.latency ≤ s.latencyAvg) :
    (s.apply (.failure now f)).Faster (t.apply (.success now' r)) := by
  have hms := asMillis_pos hpos
  obtain ⟨hnonneg, hst, hzero⟩ := hst
  have ht : t.latencyAvg ≠ 0 := fun h => absurd (hzero h) (ne_of_gt (lt_of_lt_of_le hms hle))
  have htpos : 0 < t.latencyAvg := lt_of_le_of_ne hnonneg (Ne.symm ht)
  have hnew : 0 < ewma alpha t.latencyAvg (Duration.asMillis r.latency) :=
    ewma_pos alpha_nonneg alpha_le_one htpos hms
  constructor <;> rw [latencyAvg_success, if_neg ht]
  · exact le_of_lt hnew
  · exact ewma_le alpha_nonneg alpha_le_one hst hle
  · intro h
    exact absurd h (ne_of_gt hnew)

theorem Faster.replay (hst : s.Faster t) (hgh : List.Forall₂ ProbeResult.AtLeast g h) (hkeeps : KeepsUp s g h) :
    (s.replay g).Faster (t.replay h) := by
  induction hgh generalizing s t with
  | nil => exact hst
  | @cons x y g h hxy _ ih =>
    rcases x with ⟨now, r⟩ | ⟨now, r⟩ <;> rcases y with ⟨now', r'⟩ | ⟨now', r'⟩
    · obtain ⟨⟨hpos, -⟩, hkeeps⟩ := hkeeps
      exact ih (hst.success_success hxy.1 hpos) hkeeps
    · exact hxy.elim
    · obtain ⟨⟨hpos, hle⟩, hkeeps⟩ := hkeeps
      exact ih (hst.failure_success hpos (hle rfl)) hkeeps
    · exact ih ⟨hst.nonneg, hst.le, hst.started⟩ hkeeps

/-! ### The score -/

theorem successRate_successes (ht : t.Averaged) (hone : t.successRate = 1) (hsucc : ∀ r ∈ h, r.failed = false) :
    (t.replay h).successRate = 1 := by
  refine le_antisymm (ht.replay h).rate_le ?_
  have hbound : (1 : Rat) - (1 - alpha) ^ (h.map ProbeResult.outcome).length * 0 ≤ (t.replay h).successRate := by
    rw [successRate_replay]
    refine sub_le_ewmas alpha_nonneg alpha_le_one ?_ ?_
    · rw [hone, sub_zero]
    · intro y hy
      obtain ⟨r, hr, rfl⟩ := List.mem_map.mp hy
      rcases r with ⟨now, r⟩ | ⟨now, r⟩
      · exact le_refl _
      · cases hsucc _ hr
  rwa [mul_zero, sub_zero] at hbound

/-- A history of failures against one of successes: the failures give the full latency score. -/
theorem failures_le_successes_iff (provider provider' : ProviderHandle) (hlen : g.length = h.length)
    (hfull : ∀ r ∈ h, r.Full) (hfail : ∀ r ∈ g, r.failed = true) (hsucc : ∀ r ∈ h, r.failed = false) :
    ((new provider).replay g).score ≤ ((new provider').replay h).score ↔
      1 - ((new provider').replay h).latencyScore ≤ 2 / 3 * (1 - (7 / 10) ^ h.length) := by
  obtain ⟨hrate, hlat⟩ := replay_failures (new provider) hfail
  have hfullg : ∀ r ∈ g, r.Full := by
    intro r hr
    rcases r with ⟨now, r⟩ | ⟨now, r⟩
    · cases hfail _ hr
    · exact trivial
  have hlatency : ((new provider).replay g).latencyScore = 1 := by
    unfold latencyScore
    rw [hlat]
    exact if_pos (le_refl 0)
  rw [((averaged_new provider).replay g).score_eq (support_replay rfl hfullg), hlatency, hrate,
    ((averaged_new provider').replay h).score_eq (support_replay rfl hfull),
    successRate_successes (averaged_new provider') rfl hsucc, hlen]
  show 1 / 2 + 3 / 10 * 1 + 1 / 5 * (1 * (7 / 10) ^ h.length) ≤ _ ↔ _
  constructor
  · intro hle
    linarith
  · intro hle
    linarith

/-- The better history has the higher success rate. It has the higher score if its successes all take at most two
    seconds, or if they keep up with the average of the other one where that fails; and against failures only, the
    score of successes is the higher one exactly while their latencies cost less than the failures. -/
theorem score_dominance (provider provider' : ProviderHandle) (g h : List ProbeResult)
    (hgh : List.Forall₂ ProbeResult.AtLeast g h) :
    ((new provider).replay g).successRate ≤ ((new provider').replay h).successRate ∧
    ((∀ r ∈ h, r.Full) → (∀ r ∈ h, r.Prompt) ∨ KeepsUp (new provider) g h →
      ((new provider).replay g).score ≤ ((new provider').replay h).score) ∧
    ((∀ r ∈ h, r.Full) → (∀ r ∈ g, r.failed = true) → (∀ r ∈ h, r.failed = false) →
      (((new provider).replay g).score ≤ ((new provider').replay h).score ↔
        1 - ((new provider').replay h).latencyScore ≤ 2 / 3 * (1 - (7 / 10) ^ h.length))) := by
  have hrate : ((new provider).replay g).successRate ≤ ((new provider').replay h).successRate :=
    successRate_dominance (le_refl 1) hgh
  refine ⟨hrate, fun hfull hlatency => ?_, failures_le_successes_iff provider provider' hgh.length_eq⟩
  refine score_mono ((averaged_new provider).replay g) ((averaged_new provider').replay h)
    (support_replay rfl hfull) hrate ?_
  rcases hlatency with hprompt | hkeeps
  · have hzero : (new provider').latencyAvg ≤ 2000 := by norm_num [new]
    rw [latencyScore_of_prompt (latencyAvg_prompt hzero hprompt)]
    exact latencyScore_le _
  · have hstart : (new provider).Faster (new provider') := ⟨le_refl 0, le_refl 0, fun _ => rfl⟩
    exact latencyScore_anti (hstart.replay hgh hkeeps).le

end ProviderHealthState

/-- One answer after a hundred seconds gives a lower score than no answer. -/
theorem not_always_dominates :
    ¬∀ provider provider' g h, List.Forall₂ ProbeResult.AtLeast g h →
      ((ProviderHealthState.new provider).replay g).score ≤ ((ProviderHealthState.new provider').replay h).score := by
  intro hall
  have hscore := hall firstProvider firstProvider [noAnswer] [answered 100000] (.cons trivial .nil)
  have hlower : ¬((ProviderHealthState.new firstProvider).replay [noAnswer]).score ≤
      ((ProviderHealthState.new firstProvider).replay [answered 100000]).score := by
    decide +kernel
  exact hlower hscore

/-- Slow answers, one of them where the other history has none. -/
theorem score_dominance_slow :
    ((ProviderHealthState.new firstProvider).replay [answered 3000, noAnswer, answered 4000]).score ≤
      ((ProviderHealthState.new firstProvider).replay [answered 2500, answered 3000, answered 4000]).score := by
  have hgh : List.Forall₂ ProbeResult.AtLeast [answered 3000, noAnswer, answered 4000]
      [answered 2500, answered 3000, answered 4000] :=
    .cons ⟨by decide, rfl, rfl⟩ (.cons trivial (.cons ⟨by decide, rfl, rfl⟩ .nil))
  refine (ProviderHealthState.score_dominance firstProvider firstProvider _ _ hgh).2.1 ?_ (.inr ?_)
  · intro r hr
    simp only [List.mem_cons, List.not_mem_nil, or_false] at hr
    rcases hr with rfl | rfl | rfl <;> rfl
  · refine ⟨⟨by decide, fun hfailed => by cases hfailed⟩, ⟨by decide, fun _ => ?_⟩,
      ⟨by decide, fun hfailed => by cases hfailed⟩, trivial⟩
    decide +kernel

end Rpceth
