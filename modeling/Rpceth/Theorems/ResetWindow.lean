import Rpceth.Theorems.HalfOpen

/-! The reset window of an open circuit, over every interleaving of the requests to the providers of a chain.
    Requests that were admitted before the circuit opened report their outcome during the window. -/

namespace Rpceth
namespace Traffic
open Lib

section ResetWindow
variable {s t : Traffic} {p : ProviderId} {op : Op} {r : Instant}

/-- The circuit of `p` is open, and its window ends at `r`. -/
def OpenUntil (s : Traffic) (p : ProviderId) (r : Instant) : Prop :=
  ∃ config f, s.circuit p = some ⟨config, .opened f r⟩

def isOpen (s : Traffic) (p : ProviderId) : Bool :=
  match s.circuit p with
  | some ⟨_, .opened _ _⟩ => true
  | _ => false

/-- `op` reports a failure of an attempt on `p`, which moves the end of the window. -/
def fails (p : ProviderId) : Op → Bool
  | .failure a => decide (a.provider = p)
  | _ => false

/-- `op` reports a success of an attempt on `p` while the circuit of `p` is open. -/
def closesEarly (p : ProviderId) (s : Traffic) (op : Op) : Bool :=
  match op with
  | .success a => decide (a.provider = p) && s.isOpen p
  | _ => false

/-- If the circuit of `p` is open before a step, it is open after it, or the step is a start on `p` at the end
    of the window or later, and the circuit is half-open. -/
def LeavesByProbe (p : ProviderId) (s : Traffic) (op : Op) (t : Traffic) : Prop :=
  ∀ config f r, s.circuit p = some ⟨config, .opened f r⟩ →
    (∃ f' r', t.circuit p = some ⟨config, .opened f' r'⟩) ∨
    (∃ request, op = .start request p ∧ r ≤ s.now ∧ t.circuit p = some ⟨config, .halfOpen f 0⟩)

/-- From `s` on, in steps that meet `ok`, the circuit of `p` leaves the open state by a probe only, and while
    no further failure moves the end of its window, `p` is not available before this end. -/
structure StaysShut (ok : Traffic → Op → Prop) (p : ProviderId) (s : Traffic) : Prop where
  leaves : ∀ op t, ok s op → s.step op = some t → LeavesByProbe p s op t
  shut : ∀ r t, s.OpenUntil p r → Reached step (fun s op => ok s op ∧ fails p op = false) s t → t.now < r →
    t.breaker.isAvailable t.now p = false

theorem OpenUntil.not_available (h : s.OpenUntil p r) (hnow : s.now < r) :
    s.breaker.isAvailable s.now p = false := by
  obtain ⟨config, f, hc⟩ := h
  rw [isAvailable_circuit, hc]
  exact decide_eq_false (Nat.not_le.mpr hnow)

theorem OpenUntil.isOpen (h : s.OpenUntil p r) : s.isOpen p = true := by
  obtain ⟨config, f, hc⟩ := h
  simp only [Traffic.isOpen, hc]

theorem isOpen_iff : s.isOpen p = true ↔ ∃ r, s.OpenUntil p r := by
  constructor
  · intro h
    unfold isOpen at h
    split at h
    · rename_i config f r hc
      exact ⟨r, config, f, hc⟩
    · cases h
  · rintro ⟨r, h⟩
    exact h.isOpen

theorem step_now (hs : s.step op = some t) : s.now ≤ t.now := by
  cases Step.of_step hs with
  | tick elapsed => exact Nat.le_add_right _ _
  | check | start | success | failure | cancel => exact Nat.le_refl _

theorem step_leavesByProbe (hop : closesEarly p s op = false) (hs : s.step op = some t) : LeavesByProbe p s op t := by
  intro config f r hc
  rcases step_circuit hs p with ⟨request, rfl, ht⟩ | ⟨a, rfl, ha, -⟩ | ⟨a, rfl, -, ht⟩ | ht
  · rw [hc, Option.map_some] at ht
    by_cases hdue : r ≤ s.now
    · rw [InnerState.onRequestStart_due hdue] at ht
      exact .inr ⟨request, rfl, hdue, ht⟩
    · rw [InnerState.onRequestStart_early hdue] at ht
      exact .inl ⟨f, r, ht⟩
  · have hopen : s.isOpen p = true := OpenUntil.isOpen ⟨config, f, hc⟩
    simp [closesEarly, ha, hopen] at hop
  · rw [hc, Option.map_some] at ht
    exact .inl ⟨_, _, ht⟩
  · exact .inl ⟨f, r, ht.trans hc⟩

/-- Without a failure that moves it, the end of the window stays where it is until it is reached. -/
theorem step_openUntil (h : s.OpenUntil p r) (hop : closesEarly p s op = false) (hfail : fails p op = false)
    (hs : s.step op = some t) (hnow : t.now < r) : t.OpenUntil p r := by
  have hlt : ¬r ≤ s.now := Nat.not_le.mpr (Nat.lt_of_le_of_lt (step_now hs) hnow)
  obtain ⟨config, f, hc⟩ := h
  rcases step_circuit hs p with ⟨request, rfl, ht⟩ | ⟨a, rfl, ha, -⟩ | ⟨a, rfl, ha, -⟩ | ht
  · rw [hc, Option.map_some] at ht
    rw [InnerState.onRequestStart_early hlt] at ht
    exact ⟨config, f, ht⟩
  · have hopen : s.isOpen p = true := OpenUntil.isOpen ⟨config, f, hc⟩
    simp [closesEarly, ha, hopen] at hop
  · simp [fails, ha] at hfail
  · exact ⟨config, f, ht.trans hc⟩

theorem reached_openUntil (h : s.OpenUntil p r)
    (hr : Reached step (fun s op => closesEarly p s op = false ∧ fails p op = false) s t) (hnow : t.now < r) :
    t.OpenUntil p r := by
  induction hr with
  | start => exact h
  | step _ hop hs ih =>
    have hbefore := ih (Nat.lt_of_le_of_lt (step_now hs) hnow)
    exact step_openUntil hbefore hop.1 hop.2 hs hnow

/-- In a run in which no attempt succeeds while the circuit is open, an open circuit stays shut for its window;
    and an attempt that succeeds while the circuit is open closes it, whenever its window ends. -/
theorem staysShut_unless_closed_early (handles : List ProviderHandle) (global : CircuitBreakerConfig)
    (now : Instant) (p : ProviderId) :
    (∀ s, Reached step (fun s op => closesEarly p s op = false) (new handles global now) s →
      StaysShut (fun s op => closesEarly p s op = false) p s) ∧
    (∀ s op t, Reached step (fun _ _ => True) (new handles global now) s → s.step op = some t →
      closesEarly p s op = true → ¬LeavesByProbe p s op t) := by
  constructor
  · intro s _
    constructor
    · intro op t hop hs
      exact step_leavesByProbe hop hs
    · intro r t hopen hr hnow
      exact (reached_openUntil hopen hr hnow).not_available hnow
  · intro s op t _ hs hop hleaves
    cases Step.of_step hs with
    | success a =>
      obtain ⟨ha, hopen⟩ := Bool.and_eq_true_iff.mp hop
      obtain rfl := of_decide_eq_true ha
      obtain ⟨r, config, f, hc⟩ := isOpen_iff.mp hopen
      have hclosed := circuit_success s a
      rw [hc, Option.map_some] at hclosed
      rcases hleaves config f r hc with ⟨f', r', ht⟩ | ⟨request, heq, -⟩
      · rw [hclosed] at ht
        cases ht
      · cases heq
    | tick | check | start | failure | cancel => cases hop

/-- Two requests are in flight, and the first one fails. -/
def lateOutcome : List Op :=
  [.check 0 ⟨"a"⟩, .start 0 ⟨"a"⟩, .check 1 ⟨"a"⟩, .start 1 ⟨"a"⟩, .failure ⟨0, ⟨"a"⟩, 0⟩]

/-- The other one succeeds, and closes the circuit that has just opened. -/
theorem not_always_staysShut :
    ¬∀ handles global now p s, Reached step (fun _ _ => True) (new handles global now) s →
      StaysShut (fun _ _ => True) p s := by
  intro h
  have hrun : (run (guarded step fun _ _ => True) (new [fragile] {} 0) lateOutcome).any
      (fun s => decide (s.circuit ⟨"a"⟩ = some ⟨⟨1, 1000000, 1⟩, .opened 1 1000000⟩) &&
        (s.step (.success ⟨1, ⟨"a"⟩, 0⟩)).any fun t =>
          decide (t.circuit ⟨"a"⟩ = some ⟨⟨1, 1000000, 1⟩, .closed 0⟩)) = true := by rfl
  obtain ⟨s, hs, hp⟩ := exists_reached_of_run hrun
  obtain ⟨hc, hnext⟩ := Bool.and_eq_true_iff.mp hp
  obtain ⟨t, ht, hclosed⟩ := (Option.any_eq_true _ _).mp hnext
  rcases (h [fragile] {} 0 ⟨"a"⟩ s hs).leaves _ t trivial ht _ _ _ (of_decide_eq_true hc) with
    ⟨f, r, hopen⟩ | ⟨request, heq, -⟩
  · rw [of_decide_eq_true hclosed] at hopen
    cases hopen
  · cases heq

/-- The other one is still in flight half-way through the window. -/
theorem staysShut_half_way :
    ∃ s t : Traffic, Reached step (fun s op => closesEarly ⟨"a"⟩ s op = false) (new [fragile] {} 0) s ∧
      s.OpenUntil ⟨"a"⟩ 1000000 ∧ t.now = 500000 ∧ t.breaker.isAvailable t.now ⟨"a"⟩ = false := by
  have hrun : (run (guarded step fun s op => closesEarly ⟨"a"⟩ s op = false) (new [fragile] {} 0) lateOutcome).any
      (fun s => decide (s.circuit ⟨"a"⟩ = some ⟨⟨1, 1000000, 1⟩, .opened 1 1000000⟩) && decide (s.now = 0)) =
      true := by rfl
  obtain ⟨s, hs, hp⟩ := exists_reached_of_run hrun
  obtain ⟨hc, hnow⟩ := Bool.and_eq_true_iff.mp hp
  have hopen : s.OpenUntil ⟨"a"⟩ 1000000 := ⟨_, _, of_decide_eq_true hc⟩
  have hwait : Reached step (fun s op => closesEarly ⟨"a"⟩ s op = false ∧ fails ⟨"a"⟩ op = false) s
      { s with now := s.now + 500000 } := .step (e := .tick 500000) .start ⟨rfl, rfl⟩ rfl
  have hlater : s.now + 500000 = 500000 := by rw [of_decide_eq_true hnow]
  have hstays := (staysShut_unless_closed_early [fragile] {} 0 ⟨"a"⟩).1 s hs
  refine ⟨s, _, hs, hopen, hlater, hstays.shut _ _ hopen hwait ?_⟩
  show s.now + 500000 < 1000000
  rw [hlater]
  decide

end ResetWindow
end Traffic
end Rpceth
