import Rpceth.Theorems.HealthHistory

/-! A provider that answers promptly again: both averages come back geometrically, whatever the past, so the score
    comes near to one, and no best score is above that. -/

namespace Rpceth
open Lib

/-- A success within two seconds, with support for every method. -/
structure ProbeResult.Good (r : ProbeResult) : Prop where
  succeeded : r.failed = false
  full : r.Full
  prompt : r.Prompt

namespace ProviderHealthState
variable {s : ProviderHealthState} {results : List ProbeResult}

theorem successRate_recovers (hs : s.Averaged) (hgood : ∀ r ∈ results, r.Good) :
    1 - (7 / 10) ^ results.length ≤ (s.replay results).successRate := by
  have hbound : (1 : Rat) - (1 - alpha) ^ (results.map ProbeResult.outcome).length * 1 ≤
      ewmas alpha s.successRate (results.map ProbeResult.outcome) := by
    refine sub_le_ewmas alpha_nonneg alpha_le_one ?_ ?_
    · rw [sub_self]
      exact le_of_lt hs.rate_pos
    · intro y hy
      obtain ⟨r, hr, rfl⟩ := List.mem_map.mp hy
      rcases r with ⟨now, r⟩ | ⟨now, r⟩
      · exact le_refl _
      · cases (hgood _ hr).succeeded
  rw [successRate_replay]
  rwa [one_sub_alpha, List.length_map, mul_one] at hbound

theorem latencyAvg_recovers {c : Rat} (hc : 0 ≤ c) (hlat : s.latencyAvg ≤ 2000 + c)
    (hgood : ∀ r ∈ results, r.Good) : (s.replay results).latencyAvg ≤ 2000 + (7 / 10) ^ results.length * c := by
  induction results generalizing s c with
  | nil =>
    rw [List.length_nil, pow_zero, one_mul]
    exact hlat
  | cons r results ih =>
    have hr := hgood r List.mem_cons_self
    have hnext : (s.apply r).latencyAvg ≤ 2000 + 7 / 10 * c := by
      rcases r with ⟨now, r⟩ | ⟨now, r⟩
      · have hms : Duration.asMillis r.latency ≤ 2000 := hr.prompt
        rw [latencyAvg_success]
        split
        · linarith
        · rw [← one_sub_alpha]
          exact ewma_le_add alpha_nonneg alpha_le_one hlat hms
      · cases hr.succeeded
    have hrest := ih (mul_nonneg (by norm_num) hc) hnext fun r' hr' => hgood r' (List.mem_cons_of_mem _ hr')
    rw [List.length_cons, pow_succ, mul_assoc]
    exact hrest

/-- The latency score loses at most one part in two thousand for every millisecond above two seconds. -/
theorem latencyScore_ge {d : Rat} (hd : 0 ≤ d) (hlat : s.latencyAvg ≤ 2000 + d) : 1 - d / 2000 ≤ s.latencyScore := by
  unfold latencyScore
  split
  · linarith
  · rename_i hpos
    have hpos' : 0 < s.latencyAvg := not_le.mp hpos
    have hquot : 1 - d / 2000 ≤ 2000 / s.latencyAvg := by
      rw [le_div_iff₀ hpos']
      rcases le_or_gt d 2000 with hsmall | hlarge
      · have hfactor : 0 ≤ 1 - d / 2000 := by linarith
        calc (1 - d / 2000) * s.latencyAvg
            ≤ (1 - d / 2000) * (2000 + d) := mul_le_mul_of_nonneg_left hlat hfactor
          _ = 2000 - d * d / 2000 := by ring
          _ ≤ 2000 := by
            have hsquare := mul_self_nonneg d
            linarith
      · have hneg : (1 - d / 2000) * s.latencyAvg ≤ 0 :=
          mul_nonpos_of_nonpos_of_nonneg (by linarith) (le_of_lt hpos')
        linarith
    have hle : 1 - d / 2000 ≤ 1 := by linarith
    exact le_max_of_le_right (le_min hquot hle)

/-- The score comes near to one, from an average latency that counts for what it was before. -/
theorem score_recovers (hs : s.Averaged) (hne : results ≠ []) (hgood : ∀ r ∈ results, r.Good) :
    1 - (7 / 10) ^ results.length * (3 / 20000 * s.latencyAvg + 1 / 5) ≤ (s.replay results).score := by
  have hsup : (s.replay results).methodSupportScore = 1 := by
    rcases results with _ | ⟨r, results⟩
    · exact absurd rfl hne
    · show ((s.apply r).replay results).methodSupportScore = 1
      refine support_replay ?_ fun r' hr' => (hgood r' (List.mem_cons_of_mem _ hr')).full
      have hr := hgood r List.mem_cons_self
      rcases r with ⟨now, r⟩ | ⟨now, r⟩
      · exact hr.full
      · cases hr.succeeded
  have hrate := successRate_recovers hs hgood
  have hlat := latencyAvg_recovers hs.latency (by linarith) hgood
  have hpow : (0 : Rat) ≤ (7 / 10) ^ results.length * s.latencyAvg := mul_nonneg (by positivity) hs.latency
  have hscore := latencyScore_ge hpow hlat
  rw [(hs.replay results).score_eq hsup]
  linarith

theorem Averaged.exists_recovered (hs : s.Averaged) :
    ∃ N, ∀ results : List ProbeResult, (∀ r ∈ results, r.Good) → N ≤ results.length →
      9 / 10 ≤ (s.replay results).score := by
  have htenth : (0 : Rat) < 1 / 10 := by norm_num
  obtain ⟨N, hN⟩ := exists_pow_mul_lt (r := (7 / 10 : Rat)) (by norm_num) (by norm_num) htenth
    (3 / 20000 * s.latencyAvg + 1 / 5)
  refine ⟨N + 1, fun results hgood hlen => ?_⟩
  have hne : results ≠ [] := List.ne_nil_of_length_pos (Nat.lt_of_lt_of_le N.succ_pos hlen)
  have hscore := score_recovers hs hne hgood
  have hsmall := hN results.length (Nat.le_of_succ_le hlen)
  linarith

end ProviderHealthState

theorem within_of_recovered {s : ProviderHealthState} (hs : 9 / 10 ≤ s.score) (health : HealthService)
    (tolerance : ToleranceLevel) : s.snapshot.isWithinTolerance health.bestScore tolerance = true := by
  have hbest := health.bestScore_nonneg
  have hone := health.bestScore_le_one
  rw [s.within_iff hbest]
  cases tolerance <;> norm_num [ToleranceLevel.threshold] <;> linarith

/-- For every past of a provider there is a number of good probes after which it is within every tolerance of the
    best score and among the filtered snapshots, whatever the other providers hold and report, and whenever the
    best score is read. -/
theorem recovers (handle : ProviderHandle) (history : List ProbeResult) :
    ∃ N, ∀ (health : HealthService) (results : List ProbeResult),
      health.state.lookup handle.id = some ((ProviderHealthState.new handle).replay history) →
      (∀ r ∈ results, r.provider = handle.id → r.Good) →
      N ≤ (results.filter fun r => r.provider == handle.id).length →
      ∃ s, (health.replay results).state.lookup handle.id = some s ∧
        (∀ tolerance, s.snapshot.isWithinTolerance (health.replay results).bestScore tolerance = true) ∧
        ∀ atBest : HealthService, s.snapshot ∈ HealthService.filteredSnapshots atBest (health.replay results) := by
  obtain ⟨N, hN⟩ := ((ProviderHealthState.averaged_new handle).replay history).exists_recovered
  refine ⟨N, fun health results hstate hgood hlen => ?_⟩
  have hlookup := HealthService.lookup_replay health results handle.id
  rw [hstate, Option.map_some] at hlookup
  have hscore := hN (results.filter fun r => r.provider == handle.id) ?_ hlen
  · refine ⟨_, hlookup, within_of_recovered hscore _, fun atBest => List.mem_filter.mpr ⟨?_, ?_⟩⟩
    · exact List.mem_map.mpr ⟨⟨handle.id, _⟩, AList.mem_lookup_iff.mp hlookup, rfl⟩
    · exact within_of_recovered hscore _ _
  · intro r hr
    obtain ⟨hmem, hid⟩ := List.mem_filter.mp hr
    exact hgood r hmem (beq_iff_eq.mp hid)

/-- A strict service of two providers, of which the first gave one answer, after five minutes, and then none. -/
def slowService : HealthService := (HealthService.new twoProviders .strict).replay [answered 300000, noAnswer]

/-- Rounds of probes in which the first provider answers within a second, and the second one does not. -/
def answeredRounds (n : Nat) : List ProbeResult := (List.replicate n [answered 1000, secondUnanswered]).flatten

/-- After enough of them, the service keeps the first provider again. -/
theorem recovers_slowService :
    ∃ n s, (slowService.replay (answeredRounds n)).state.lookup ⟨"a"⟩ = some s ∧
      s.snapshot ∈ HealthService.filteredSnapshots (slowService.replay (answeredRounds n))
        (slowService.replay (answeredRounds n)) := by
  obtain ⟨N, hN⟩ := recovers firstProvider [answered 300000, noAnswer]
  have hgood : ∀ r ∈ answeredRounds N, r.provider = firstProvider.id → r.Good := by
    intro r hr hid
    obtain ⟨round, hround, hr⟩ := List.mem_flatten.mp hr
    rw [List.eq_of_mem_replicate hround] at hr
    rcases List.mem_cons.mp hr with rfl | hr
    · refine ⟨rfl, rfl, ?_⟩
      show Duration.asMillis (Duration.fromMillis 1000) ≤ 2000
      decide +kernel
    · rw [List.mem_singleton.mp hr] at hid
      exact absurd hid (by decide)
  have hlen : N ≤ ((answeredRounds N).filter fun r => r.provider == firstProvider.id).length := by
    have hround : [answered 1000, secondUnanswered].filter (fun r => r.provider == firstProvider.id) =
        [answered 1000] := rfl
    rw [answeredRounds, List.filter_flatten, List.map_replicate, hround, List.length_flatten, List.map_replicate,
      List.sum_replicate, List.length_singleton]
    exact le_of_eq (mul_one N).symm
  obtain ⟨s, hs, -, hfiltered⟩ := hN slowService (answeredRounds N) rfl hgood hlen
  exact ⟨N, s, hs, hfiltered _⟩

end Rpceth
