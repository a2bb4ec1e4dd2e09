import Mathlib.Data.Finset.Card
import Rpceth.Theorems.HalfOpen

/-! The attempts of a half-open period, over every interleaving of requests that are not cancelled: the counter
    of the circuit is one less than the number of attempts that have started since the transition, and all of
    them are still in flight. -/

namespace Rpceth
open Lib

/-- The request that an operation belongs to. -/
def Op.request : Op → Option Nat
  | .tick _ => none
  | .check r _ | .start r _ => some r
  | .success a | .failure a | .cancel a => some a.request

/-- The attempt that an operation starts, where `t` is the state after it. -/
def Op.started (t : Traffic) : Op → List Attempt
  | .start r p => [⟨r, p, t.reopenings p⟩]
  | _ => []

namespace Traffic

/-- A step, with the list of all attempts that have ever started, the last one first. -/
def logged (s : Traffic × List Attempt) (op : Op) : Option (Traffic × List Attempt) :=
  (s.1.step op).map fun t => (t, op.started t ++ s.2)

/-- The attempts on `p` in a list that started at the last transition to half-open or after it. -/
def since (s : Traffic) (p : ProviderId) (l : List Attempt) : List Attempt :=
  (l.filter (·.provider == p)).filter (·.reopening == s.reopenings p)

/-- The requests that work on a provider. -/
def working (s : Traffic) : List Nat := s.checked.map (·.1) ++ s.inFlight.map (·.request)

section Accounting
variable {s t : Traffic} {p : ProviderId} {op : Op} {log log' : List Attempt}

theorem logged_eq_some (h : logged (s, log) op = some (t, log')) : s.step op = some t ∧ log' = op.started t ++ log := by
  obtain ⟨u, hu, heq⟩ := Option.map_eq_some_iff.mp h
  cases heq
  exact ⟨hu, rfl⟩

theorem reached_of_logged {ok : Op → Prop} {start : Traffic} {x : Traffic × List Attempt}
    (h : Reached logged (fun _ op => ok op) (start, []) x) : Reached step (fun _ op => ok op) start x.1 := by
  refine h.invariant (I := fun x => Reached step (fun _ op => ok op) start x.1) .start ?_
  intro s op t ih hok hs
  exact .step ih hok (logged_eq_some hs).1

/-! ### Requests work on one provider at a time -/

theorem notMem_working {r : Nat} (h : s.busy r = false) : r ∉ s.working := by
  intro hmem
  simp only [busy, Bool.or_eq_false_iff, List.any_eq_false, beq_iff_eq] at h
  rcases List.mem_append.mp hmem with hmem | hmem
  · obtain ⟨x, hx, heq⟩ := List.mem_map.mp hmem
    exact h.1 x hx heq
  · obtain ⟨a, ha, heq⟩ := List.mem_map.mp hmem
    exact h.2 a ha heq

theorem working_started {r : Nat} (h : (r, p) ∈ s.checked) : (s.started r p).working.Perm s.working := by
  have hchecked : s.checked.Perm ((r, p) :: s.checked.erase (r, p)) := List.perm_cons_erase h
  have hmap := hchecked.map (·.1)
  refine List.perm_middle.trans ?_
  exact (hmap.append_right (s.inFlight.map (·.request))).symm

theorem working_ended (s : Traffic) (a : Attempt) (breaker : CircuitBreaker) :
    (s.ended a breaker).working.Sublist s.working :=
  (List.Sublist.refl _).append (List.erase_sublist.map _)

/-- The requests at work are distinct ones out of `R`. -/
structure WorkingIn (R : Finset Nat) (s : Traffic) : Prop where
  nodup : s.working.Nodup
  mem : ∀ r ∈ s.working, r ∈ R

theorem WorkingIn.sublist {R : Finset Nat} (h : WorkingIn R s) (hsub : t.working.Sublist s.working) :
    WorkingIn R t :=
  ⟨h.nodup.sublist hsub, fun r hr => h.mem r (hsub.subset hr)⟩

theorem step_workingIn {R : Finset Nat} (h : WorkingIn R s) (hop : ∀ r ∈ op.request, r ∈ R)
    (hs : s.step op = some t) : WorkingIn R t := by
  cases Step.of_step hs with
  | tick elapsed => exact ⟨h.nodup, h.mem⟩
  | check r p idle _ =>
    refine ⟨List.nodup_cons.mpr ⟨notMem_working idle, h.nodup⟩, fun r' hr' => ?_⟩
    rcases List.mem_cons.mp hr' with rfl | hr'
    · exact hop r' rfl
    · exact h.mem r' hr'
  | start r p hchecked =>
    have hperm := working_started hchecked
    exact ⟨hperm.nodup_iff.mpr h.nodup, fun r' hr' => h.mem r' (hperm.mem_iff.mp hr')⟩
  | success a => exact h.sublist (working_ended s a _)
  | failure a => exact h.sublist (working_ended s a _)
  | cancel a => exact h.sublist (working_ended s a _)

/-- The attempts of a half-open period are of distinct requests, so there are no more of them than requests. -/
theorem WorkingIn.since_length {R : Finset Nat} (h : WorkingIn R s) (p : ProviderId) :
    ((since s p s.inFlight).map (·.request)).Nodup ∧ (since s p s.inFlight).length ≤ R.card := by
  have hsub : (since s p s.inFlight).Sublist s.inFlight := List.filter_sublist.trans List.filter_sublist
  have hwork : ((since s p s.inFlight).map (·.request)).Sublist s.working :=
    (hsub.map _).trans (List.sublist_append_right _ _)
  have hnodup := h.nodup.sublist hwork
  refine ⟨hnodup, ?_⟩
  rw [← List.length_map (f := (·.request)), ← List.toFinset_card_of_nodup hnodup]
  exact Finset.card_le_card fun r hr => h.mem r (hwork.subset (List.mem_toFinset.mp hr))

/-! ### The count -/

/-- While the circuit of `p` is half-open, the attempts since the transition are those in flight, and one more
    than its counter. -/
def Accounted (p : ProviderId) (s : Traffic) (log : List Attempt) : Prop :=
  ∀ config f n, s.circuit p = some ⟨config, .halfOpen f n⟩ →
    since s p log = since s p s.inFlight ∧ (since s p log).length = n.toNat + 1

/-- No attempt on `p` has started after a transition that has not happened yet. -/
theorem since_started_reopens {l : List Attempt} (hle : ∀ a ∈ l, a.reopening ≤ s.reopenings a.provider)
    (h : s.reopens p = true) (r : Nat) :
    since (s.started r p) p (⟨r, p, (s.started r p).reopenings p⟩ :: l) =
      [⟨r, p, (s.started r p).reopenings p⟩] := by
  simp only [since, reopenings_reopened h, List.filter_cons, beq_self_eq_true, ↓reduceIte, filter_next_reopening hle]

theorem since_started (h : s.reopens p = false) (r : Nat) (l : List Attempt) :
    since (s.started r p) p (⟨r, p, (s.started r p).reopenings p⟩ :: l) =
      ⟨r, p, (s.started r p).reopenings p⟩ :: since s p l := by
  simp only [since, reopenings_not_reopened h, List.filter_cons, beq_self_eq_true, ↓reduceIte]

theorem step_log (hle : ∀ a ∈ log, a.reopening ≤ s.reopenings a.provider) (hs : s.step op = some t) :
    ∀ a ∈ op.started t ++ log, a.reopening ≤ t.reopenings a.provider := by
  intro a ha
  rcases List.mem_append.mp ha with ha | ha
  · cases op with
    | start r p =>
      rw [List.mem_singleton.mp ha]
    | tick | check | success | failure | cancel => cases ha
  · exact Nat.le_trans (hle a ha) (step_reopenings hs _)

theorem started_filter (h : ∀ r, op ≠ .start r p) (t : Traffic) :
    (op.started t).filter (·.provider == p) = [] := by
  cases op with
  | start r q =>
    have hq : q ≠ p := by
      rintro rfl
      exact h r rfl
    simp [Op.started, hq]
  | tick | check | success | failure | cancel => rfl

theorem step_accounted {R : Finset Nat} (hR : R.card < 2 ^ 32)
    (hle : ∀ a ∈ s.inFlight, a.reopening ≤ s.reopenings a.provider)
    (hlog : ∀ a ∈ log, a.reopening ≤ s.reopenings a.provider) (hwork : WorkingIn R t) (h : Accounted p s log)
    (hop : op.cancels = false) (hs : s.step op = some t) : Accounted p t (op.started t ++ log) := by
  intro config f n hc
  rcases step_halfOpen hs hc with ⟨r, rfl, rfl, hre, rfl⟩ | ⟨r, m, rfl, rfl, hre, hc', rfl⟩ | ⟨hc', hr, hatt⟩
  -- The start that makes the transition is the only attempt since then.
  · have hnew := since_started_reopens hlog hre r
    refine ⟨hnew.trans (since_started_reopens hle hre r).symm, ?_⟩
    exact congrArg List.length hnew
  -- A start in the period adds itself to both sides; there are not enough requests to saturate the counter.
  · obtain ⟨heq, hlen⟩ := h config f m hc'
    have hnew := since_started hre r log
    have hflying := since_started hre r s.inFlight
    have hboth : since (s.started r p) p (Op.started (s.started r p) (.start r p) ++ log) =
        since (s.started r p) p (s.started r p).inFlight := hnew.trans ((congrArg _ heq).trans hflying.symm)
    have hlength : (since (s.started r p) p (Op.started (s.started r p) (.start r p) ++ log)).length =
        m.toNat + 2 := by
      refine (congrArg List.length hnew).trans ?_
      rw [List.length_cons, hlen]
    refine ⟨hboth, hlength.trans ?_⟩
    have hcard := (hwork.since_length p).2
    rw [← hboth, hlength] at hcard
    rw [toNat_saturatingSucc]
    omega
  -- No other step of a request that is not cancelled touches the attempts on `p`.
  · obtain ⟨heq, hlen⟩ := h config f n hc'
    have hsame : t.attemptsOn p = s.attemptsOn p := by
      rcases hatt with hatt | ⟨a, rfl, -, -⟩
      · exact hatt
      · cases hop
    have hnostart : ∀ r, op ≠ .start r p := by
      rintro r rfl
      cases Step.of_step hs with
      | start _ _ hchecked =>
        have hlonger := congrArg List.length (hsame.symm.trans (attemptsOn_started s r p))
        rw [List.length_cons] at hlonger
        omega
    have hnew : since t p (op.started t ++ log) = since s p log := by
      rw [since, List.filter_append, started_filter hnostart, List.nil_append, hr]
      rfl
    have hflying : since t p t.inFlight = since s p s.inFlight := by
      unfold since
      rw [hr]
      exact congrArg _ hsame
    rw [hnew, hflying]
    exact ⟨heq, hlen⟩

/-- What every state of a run without cancellations keeps, together with its log. -/
theorem reached_accounted {handles : List ProviderHandle} {global : CircuitBreakerConfig} {now : Instant}
    (p : ProviderId) {R : Finset Nat} (hR : R.card < 2 ^ 32) {x : Traffic × List Attempt}
    (h : Reached logged (fun _ op => op.cancels = false ∧ ∀ r ∈ op.request, r ∈ R) (new handles global now, []) x) :
    WorkingIn R x.1 ∧ (∀ a ∈ x.2, a.reopening ≤ x.1.reopenings a.provider) ∧ Accounted p x.1 x.2 := by
  induction h with
  | start =>
    refine ⟨⟨List.nodup_nil, fun _ hr => absurd hr List.not_mem_nil⟩, ?_, ?_⟩
    · intro a ha
      cases ha
    · intro config f n hc
      cases circuit_new hc
  | @step x y op hprefix hok hs ih =>
    obtain ⟨s, log⟩ := x
    obtain ⟨t, log'⟩ := y
    obtain ⟨hstep, rfl⟩ := logged_eq_some hs
    obtain ⟨hwork, hlog, hacc⟩ := ih
    have hwork' := step_workingIn hwork hok.2 hstep
    have hle := reopening_le (reached_of_logged hprefix)
    exact ⟨hwork', step_log hlog hstep, step_accounted hR hle hlog hwork' hacc hok.1 hstep⟩

end Accounting

/-- In a run without cancellations, with fewer than `2 ^ 32` requests: while the circuit of `p` is half-open with
    `n` attempts, exactly `n + 1` distinct requests have started on `p` since the transition, and they are all in
    flight; so without a request in flight the circuit is closed or open. -/
theorem halfOpen_accounting (handles : List ProviderHandle) (global : CircuitBreakerConfig) (now : Instant)
    (p : ProviderId) (R : Finset Nat) (hR : R.card < 2 ^ 32) (s : Traffic) (log : List Attempt)
    (h : Reached logged (fun _ op => op.cancels = false ∧ ∀ r ∈ op.request, r ∈ R) (new handles global now, [])
      (s, log)) :
    (∀ config f n, s.circuit p = some ⟨config, .halfOpen f n⟩ →
      (since s p log).length = n.toNat + 1 ∧ ((since s p log).map (·.request)).Nodup ∧
      ∀ a ∈ since s p log, a ∈ s.inFlight) ∧
    (s.attemptsOn p = [] → ∀ e, s.circuit p = some e →
      (∃ f, e.state = .closed f) ∨ ∃ f retryAt, e.state = .opened f retryAt) := by
  obtain ⟨hwork, -, hacc⟩ := reached_accounted p hR h
  constructor
  · intro config f n hc
    obtain ⟨heq, hlen⟩ := hacc config f n hc
    refine ⟨hlen, heq ▸ (hwork.since_length p).1, fun a ha => ?_⟩
    rw [heq] at ha
    exact (List.mem_filter.mp (List.mem_filter.mp ha).1).1
  · intro hidle e he
    obtain ⟨config, state⟩ := e
    cases state with
    | closed f => exact .inl ⟨f, rfl⟩
    | opened f retryAt => exact .inr ⟨f, retryAt, rfl⟩
    | halfOpen f n =>
      obtain ⟨heq, hlen⟩ := hacc config f n he
      have hnil : since s p s.inFlight = [] := by
        show (s.attemptsOn p).filter _ = []
        rw [hidle]
        rfl
      rw [heq, hnil] at hlen
      cases hlen

/-- The request that reopened the circuit, and one after it. -/
theorem halfOpen_accounting_two :
    ∃ s log config, Reached logged (fun _ op => op.cancels = false ∧ ∀ r ∈ op.request, r ∈ ({0, 1, 2} : Finset Nat))
        (new [fragile] {} 0, []) (s, log) ∧
      s.circuit ⟨"a"⟩ = some ⟨config, .halfOpen 1 1⟩ ∧ (since s ⟨"a"⟩ log).length = 2 := by
  have hrun : (run (guarded logged fun _ op => op.cancels = false ∧ ∀ r ∈ op.request, r ∈ ({0, 1, 2} : Finset Nat))
      (new [fragile] {} 0, []) (reopening ++ [.check 2 ⟨"a"⟩, .start 2 ⟨"a"⟩])).any
      (fun x => decide (x.1.circuit ⟨"a"⟩ = some ⟨⟨1, 1000000, 1⟩, .halfOpen 1 1⟩)) = true := by rfl
  obtain ⟨⟨s, log⟩, hs, hp⟩ := exists_reached_of_run hrun
  have hc := of_decide_eq_true hp
  have haccount := (halfOpen_accounting [fragile] {} 0 ⟨"a"⟩ {0, 1, 2} (by decide) s log hs).1 _ _ _ hc
  exact ⟨s, log, _, hs, hc, haccount.1⟩

end Traffic
end Rpceth
