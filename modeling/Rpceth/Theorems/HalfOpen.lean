import Rpceth.Server.Traffic

/-! The half-open period of a circuit, over every interleaving of the requests to the providers of a chain:
    how many attempts it admits, and whether the provider ever gets out of it. -/

namespace Rpceth
namespace Traffic
open Lib

section HalfOpen
variable {s t : Traffic} {p : ProviderId} {op : Op}

/-! ### Lock-out -/

/-- The half-open period of `p` has no attempt left to admit. -/
def exhausted (s : Traffic) (p : ProviderId) : Bool :=
  match s.circuit p with
  | some ⟨config, .halfOpen _ attempts⟩ => decide (config.halfOpenProbe ≤ attempts)
  | _ => false

/-- With no request to `p` in flight, there is a later time at which `p` is available. -/
def Recovers (s : Traffic) (p : ProviderId) : Prop :=
  s.attemptsOn p = [] → ∃ later, s.now ≤ later ∧ s.breaker.isAvailable later p = true

/-- `op` drops the only attempt in flight to `p`, in a half-open period that admits no other. -/
def strands (p : ProviderId) (s : Traffic) (op : Op) : Bool :=
  match op with
  | .cancel a => decide (s.attemptsOn p = [a]) && s.exhausted p
  | _ => false

theorem not_available_of_exhausted (h : s.exhausted p = true) (later : Instant) :
    s.breaker.isAvailable later p = false := by
  unfold exhausted at h
  split at h
  · rename_i config f attempts hc
    have hle := of_decide_eq_true h
    rw [isAvailable_circuit, hc]
    exact decide_eq_false (UInt32.not_lt.mpr hle)
  · cases h

theorem available_of_not_exhausted (h : s.exhausted p = false) :
    ∃ later, s.now ≤ later ∧ s.breaker.isAvailable later p = true := by
  cases hc : s.circuit p with
  | none => exact ⟨s.now, Nat.le_refl _, by rw [isAvailable_circuit, hc]⟩
  | some e =>
    obtain ⟨config, state⟩ := e
    cases state with
    | closed f => exact ⟨s.now, Nat.le_refl _, by rw [isAvailable_circuit, hc]; rfl⟩
    | opened f retryAt =>
      refine ⟨max s.now retryAt, Nat.le_max_left _ _, ?_⟩
      rw [isAvailable_circuit, hc]
      exact decide_eq_true (Nat.le_max_right _ _)
    | halfOpen f attempts =>
      refine ⟨s.now, Nat.le_refl _, ?_⟩
      simp only [exhausted, hc, decide_eq_false_iff_not, UInt32.not_le] at h
      rw [isAvailable_circuit, hc]
      exact decide_eq_true h

theorem recovers_iff : s.Recovers p ↔ (s.exhausted p = true → s.attemptsOn p ≠ []) := by
  constructor
  · intro h hex hidle
    obtain ⟨later, -, hav⟩ := h hidle
    rw [not_available_of_exhausted hex later] at hav
    cases hav
  · intro h hidle
    cases hex : s.exhausted p with
    | true => exact absurd hidle (h hex)
    | false => exact available_of_not_exhausted hex

theorem step_recovers (h : s.Recovers p) (hop : strands p s op = false) (hs : s.step op = some t) :
    t.Recovers p := by
  rw [recovers_iff] at h ⊢
  intro hex
  have hhalf : ∃ config f n, t.circuit p = some ⟨config, .halfOpen f n⟩ ∧ config.halfOpenProbe ≤ n := by
    unfold exhausted at hex
    split at hex
    · rename_i config f n hc
      exact ⟨config, f, n, hc, of_decide_eq_true hex⟩
    · cases hex
  obtain ⟨config, f, n, hc, hle⟩ := hhalf
  rcases step_halfOpen hs hc with ⟨r, -, rfl, -⟩ | ⟨r, m, -, rfl, -⟩ | ⟨hc', hr, hatt⟩
  -- A start puts an attempt in flight.
  · rw [attemptsOn_started]
    exact List.cons_ne_nil _ _
  · rw [attemptsOn_started]
    exact List.cons_ne_nil _ _
  · have hex' : s.exhausted p = true := by
      simp only [exhausted, hc']
      exact decide_eq_true hle
    rcases hatt with hatt | ⟨a, rfl, -, hatt⟩
    · rw [hatt]
      exact h hex'
    -- The cancelled attempt is not the only one, so erasing it leaves another.
    · intro hnil
      rw [hatt] at hnil
      simp only [strands, hex', Bool.and_true, decide_eq_false_iff_not] at hop
      rcases List.erase_eq_nil_iff.mp hnil with hnil | hone
      · exact h hex' hnil
      · exact hop hone

/-- A provider recovers in every state of a run that never strands it, and only in such runs: after a step
    that strands it no time makes it available again. -/
theorem recovers_unless_stranded (handles : List ProviderHandle) (global : CircuitBreakerConfig) (now : Instant)
    (p : ProviderId) :
    (∀ s, Reached step (fun s op => strands p s op = false) (new handles global now) s → s.Recovers p) ∧
    (∀ s op t, Reached step (fun _ _ => True) (new handles global now) s → s.step op = some t →
      strands p s op = true → ¬t.Recovers p) := by
  constructor
  · intro s h
    induction h with
    | start =>
      rw [recovers_iff]
      intro hex
      unfold exhausted at hex
      split at hex
      · rename_i hc
        cases circuit_new hc
      · cases hex
    | step _ hop hs ih => exact step_recovers ih hop hs
  · intro s op t _ hs hop
    cases Step.of_step hs with
    | cancel a =>
      obtain ⟨hone, hex⟩ := Bool.and_eq_true_iff.mp hop
      rw [recovers_iff]
      intro h
      refine h hex ?_
      rw [attemptsOn_ended, of_decide_eq_true hone, List.erase_cons_head]
    | tick | check | start | success | failure => cases hop

/-! A provider whose circuit opens at the first failure for a millisecond, and runs on it. -/

def fragile : ProviderHandle := ProviderConfig.intoHandle
  { id := ⟨"a"⟩, url := "https://a.example",
    circuitBreaker := { failureThreshold := some 1, resetTimeoutMs := some 1 } }

/-- The first request fails, and the second one reopens the circuit. -/
def reopening : List Op :=
  [.check 0 ⟨"a"⟩, .start 0 ⟨"a"⟩, .failure ⟨0, ⟨"a"⟩, 0⟩, .tick 1000000, .check 1 ⟨"a"⟩, .start 1 ⟨"a"⟩]

/-- The clients of the two requests that the half-open period admits disconnect. -/
def disconnects : List Op :=
  reopening ++ [.cancel ⟨1, ⟨"a"⟩, 1⟩, .check 2 ⟨"a"⟩, .start 2 ⟨"a"⟩, .cancel ⟨2, ⟨"a"⟩, 1⟩]

theorem not_always_recovers :
    ¬∀ handles global now p e s, (new handles global now).circuit p = some e → 1 ≤ e.config.failureThreshold →
      1 ≤ e.config.halfOpenProbe → Reached step (fun _ _ => True) (new handles global now) s → s.Recovers p := by
  intro h
  have hrun : (run (guarded step fun _ _ => True) (new [fragile] {} 0) disconnects).any
      (fun s => s.exhausted ⟨"a"⟩ && (s.attemptsOn ⟨"a"⟩).isEmpty) = true := by rfl
  obtain ⟨s, hs, hp⟩ := exists_reached_of_run hrun
  obtain ⟨hex, hidle⟩ := Bool.and_eq_true_iff.mp hp
  exact recovers_iff.mp (h [fragile] {} 0 ⟨"a"⟩ _ s rfl (by decide) (by decide) hs) hex (List.isEmpty_iff.mp hidle)

/-- One of the two disconnects, and the other one still holds the half-open period. -/
theorem recovers_after_one_disconnect :
    ∃ s, Reached step (fun s op => strands ⟨"a"⟩ s op = false) (new [fragile] {} 0) s ∧
      s.exhausted ⟨"a"⟩ = true ∧ s.Recovers ⟨"a"⟩ := by
  have hrun : (run (guarded step fun s op => strands ⟨"a"⟩ s op = false) (new [fragile] {} 0)
      (reopening ++ [.check 2 ⟨"a"⟩, .start 2 ⟨"a"⟩, .cancel ⟨1, ⟨"a"⟩, 1⟩])).any
      (fun s => s.exhausted ⟨"a"⟩) = true := by rfl
  obtain ⟨s, hs, hex⟩ := exists_reached_of_run hrun
  exact ⟨s, hs, hex, (recovers_unless_stranded [fragile] {} 0 ⟨"a"⟩).1 s hs⟩

/-! ### The probe limit -/

/-- While the circuit of `p` is half-open, at most `half_open_probe` of the requests that started on `p`
    since the transition, the one that made it included, are in flight. -/
def WithinLimit (s : Traffic) (p : ProviderId) : Prop :=
  ∀ config f n, s.circuit p = some ⟨config, .halfOpen f n⟩ → s.probes p ≤ config.halfOpenProbe.toNat

/-- `op` starts an attempt on `p` in a half-open period that has already admitted as many as it may: the
    one that opened it and the `attempts` after it. -/
def overruns (p : ProviderId) (s : Traffic) (op : Op) : Bool :=
  match op with
  | .start _ q => decide (q = p) && match s.circuit p with
    | some ⟨config, .halfOpen _ attempts⟩ => decide (config.halfOpenProbe.toNat ≤ attempts.toNat + 1)
    | _ => false
  | _ => false

/-- The attempts since the transition are counted, and the count is within the limit. -/
def Counted (s : Traffic) (p : ProviderId) : Prop :=
  ∀ config f n, s.circuit p = some ⟨config, .halfOpen f n⟩ →
    s.probes p ≤ n.toNat + 1 ∧ n.toNat + 1 ≤ config.halfOpenProbe.toNat

theorem step_counted (hle : ∀ a ∈ s.inFlight, a.reopening ≤ s.reopenings a.provider)
    (hk : ∀ e, t.circuit p = some e → 1 ≤ e.config.halfOpenProbe) (h : s.Counted p) (hop : overruns p s op = false)
    (hs : s.step op = some t) : t.Counted p := by
  intro config f n hc
  rcases step_halfOpen hs hc with ⟨r, -, rfl, hre, rfl⟩ | ⟨r, m, rfl, rfl, hre, hc', rfl⟩ | ⟨hc', hr, hatt⟩
  -- The start that makes the transition is the only attempt since then.
  · rw [probes_started_reopens hle hre]
    have hprobe := UInt32.le_iff_toNat_le.mp (hk _ hc)
    simp only [UInt32.toNat_one] at hprobe
    simp only [UInt32.toNat_zero]
    omega
  -- A start that does not overrun is below the limit, so its count does not saturate.
  · obtain ⟨hprobes, -⟩ := h config f m hc'
    simp only [overruns, hc', decide_true, Bool.true_and, decide_eq_false_iff_not] at hop
    have hlt := config.halfOpenProbe.toNat_lt
    rw [probes_started hre, toNat_saturatingSucc]
    omega
  · obtain ⟨hprobes, hlimit⟩ := h config f n hc'
    refine ⟨?_, hlimit⟩
    rcases hatt with hatt | ⟨a, -, -, hatt⟩
    · rw [probes_congr hatt hr]
      exact hprobes
    · exact Nat.le_trans (probes_erase_le hatt hr) hprobes

/-- Every attempt that was counted is in flight, as long as none is dropped. -/
def Flying (s : Traffic) (p : ProviderId) : Prop :=
  ∀ config f n, s.circuit p = some ⟨config, .halfOpen f n⟩ → n.toNat + 1 ≤ s.probes p

theorem step_flying (hle : ∀ a ∈ s.inFlight, a.reopening ≤ s.reopenings a.provider) (h : s.Flying p)
    (hop : op.cancels = false) (hs : s.step op = some t) : t.Flying p := by
  intro config f n hc
  rcases step_halfOpen hs hc with ⟨r, -, rfl, hre, rfl⟩ | ⟨r, m, -, rfl, hre, hc', rfl⟩ | ⟨hc', hr, hatt⟩
  · rw [probes_started_reopens hle hre]
    exact Nat.le_refl _
  · have hprobes := h config f m hc'
    rw [probes_started hre, toNat_saturatingSucc]
    omega
  · rcases hatt with hatt | ⟨a, rfl, -, -⟩
    · rw [probes_congr hatt hr]
      exact h config f n hc'
    · cases hop

theorem flying {handles : List ProviderHandle} {global : CircuitBreakerConfig} {now : Instant}
    (h : Reached step (fun _ op => op.cancels = false) (new handles global now) s) : s.Flying p := by
  induction h with
  | start =>
    intro config f n hc
    cases circuit_new hc
  | step hr hop hs ih => exact step_flying (reopening_le hr) ih hop hs

/-- The limit holds in every state of a run without overruns, and, where no request is dropped, only in
    such runs: an overrun ends in a state beyond the limit. -/
theorem withinLimit_unless_overrun (handles : List ProviderHandle) (global : CircuitBreakerConfig) (now : Instant)
    (p : ProviderId) (hk : ∀ e, (new handles global now).circuit p = some e → 1 ≤ e.config.halfOpenProbe) :
    (∀ s, Reached step (fun s op => overruns p s op = false) (new handles global now) s → s.WithinLimit p) ∧
    (∀ s op t, Reached step (fun _ op => op.cancels = false) (new handles global now) s → s.step op = some t →
      overruns p s op = true → ¬t.WithinLimit p) := by
  constructor
  · intro s h
    have counted : s.Counted p := by
      induction h with
      | start =>
        intro config f n hc
        cases circuit_new hc
      | step hr hop hs ih =>
        refine step_counted (reopening_le hr) ?_ ih hop hs
        intro e he
        have hconfig := config_eq (Reached.step hr hop hs) p
        rw [he, Option.map_some] at hconfig
        obtain ⟨e₀, he₀, heq⟩ := Option.map_eq_some_iff.mp hconfig.symm
        exact heq ▸ hk e₀ he₀
    intro config f n hc
    obtain ⟨hprobes, hlimit⟩ := counted config f n hc
    exact Nat.le_trans hprobes hlimit
  · intro s op t hr hs hop hlimit
    cases Step.of_step hs with
    | start r q =>
      obtain ⟨hq, hfull⟩ := Bool.and_eq_true_iff.mp hop
      obtain rfl := of_decide_eq_true hq
      split at hfull
      · rename_i config f m hc
        have hle := of_decide_eq_true hfull
        have hre : s.reopens q = false := by simp only [reopens, hc]
        have hflying := flying hr config f m hc
        have hafter := hlimit config f (saturatingSucc m) (by rw [circuit_started, hc]; rfl)
        rw [probes_started hre] at hafter
        omega
      · cases hfull
    | tick | check | success | failure | cancel => cases hop

/-- A second request passes the check of a half-open circuit that may have one probe. -/
theorem not_always_withinLimit :
    ¬∀ handles global now p e s, (new handles global now).circuit p = some e → 1 ≤ e.config.halfOpenProbe →
      Reached step (fun _ op => op.cancels = false) (new handles global now) s → s.WithinLimit p := by
  intro h
  have hrun : (run (guarded step fun _ op => op.cancels = false) (new [fragile] {} 0)
      (reopening ++ [.check 2 ⟨"a"⟩, .start 2 ⟨"a"⟩])).any (fun s => decide (s.circuit ⟨"a"⟩ =
        some ⟨⟨1, 1000000, 1⟩, .halfOpen 1 1⟩) && decide (s.probes ⟨"a"⟩ = 2)) = true := by rfl
  obtain ⟨s, hs, hp⟩ := exists_reached_of_run hrun
  obtain ⟨hc, hprobes⟩ := Bool.and_eq_true_iff.mp hp
  have hlimit := h [fragile] {} 0 ⟨"a"⟩ _ s rfl (by decide) hs _ _ _ (of_decide_eq_true hc)
  rw [of_decide_eq_true hprobes] at hlimit
  exact absurd hlimit (by decide)

/-- With the request that made the transition in flight, and no other. -/
theorem withinLimit_after_reopening :
    ∃ s, Reached step (fun s op => overruns ⟨"a"⟩ s op = false) (new [fragile] {} 0) s ∧ s.probes ⟨"a"⟩ = 1 ∧
      s.WithinLimit ⟨"a"⟩ := by
  have hrun : (run (guarded step fun s op => overruns ⟨"a"⟩ s op = false) (new [fragile] {} 0) reopening).any
      (fun s => decide (s.probes ⟨"a"⟩ = 1)) = true := by rfl
  obtain ⟨s, hs, hp⟩ := exists_reached_of_run hrun
  have hk : ∀ e, (new [fragile] {} 0).circuit ⟨"a"⟩ = some e → 1 ≤ e.config.halfOpenProbe := by
    intro e he
    cases he
    decide
  exact ⟨s, hs, of_decide_eq_true hp, (withinLimit_unless_overrun [fragile] {} 0 ⟨"a"⟩ hk).1 s hs⟩

end HalfOpen
end Traffic
end Rpceth
