import Mathlib.Data.List.Count
import Mathlib.Logic.Function.Basic
import Rpceth.Lib.Machine
import Rpceth.Circuit

/-! The tasks that serve requests, as far as they touch the circuit breaker of a chain: `select_provider`
    and the attempt body of `proxy_handler_impl`. A task checks a provider, starts an attempt on it and
    reports the outcome, unless it is dropped while it waits for the provider. Every call of the breaker
    is one step, and the steps of different tasks interleave in any order. -/

namespace Rpceth
open Lib

/-- An attempt after `on_request_start` and before its outcome. -/
structure Attempt where
  request : Nat
  provider : ProviderId
  /-- How often the circuit had turned half-open when the attempt had started. -/
  reopening : Nat
  deriving DecidableEq, Repr

structure Traffic where
  breaker : CircuitBreaker
  now : Instant
  /-- Requests that saw their provider available and have not started on it. -/
  checked : List (Nat × ProviderId)
  inFlight : List Attempt
  /-- How often the circuit of a provider turned half-open. Nothing reads it. -/
  reopenings : ProviderId → Nat

inductive Op where
  | tick (elapsed : Duration)
  | check (request : Nat) (provider : ProviderId)
  | start (request : Nat) (provider : ProviderId)
  | success (attempt : Attempt)
  | failure (attempt : Attempt)
  | cancel (attempt : Attempt)
  deriving DecidableEq, Repr

def Op.cancels : Op → Bool
  | .cancel _ => true
  | _ => false

namespace Traffic

def new (handles : List ProviderHandle) (global : CircuitBreakerConfig) (now : Instant) : Traffic where
  breaker := CircuitBreaker.new handles global
  now := now
  checked := []
  inFlight := []
  reopenings := fun _ => 0

def circuit (s : Traffic) (p : ProviderId) : Option ProviderCircuit := s.breaker.entries.lookup p

/-- A request works on one provider at a time. -/
def busy (s : Traffic) (request : Nat) : Bool :=
  s.checked.any (·.1 == request) || s.inFlight.any (·.request == request)

def attemptsOn (s : Traffic) (p : ProviderId) : List Attempt := s.inFlight.filter (·.provider == p)

/-- The attempts in flight that started at the last transition to half-open or after it. -/
def probes (s : Traffic) (p : ProviderId) : Nat := (s.attemptsOn p).countP (·.reopening == s.reopenings p)

/-- A start now turns the circuit half-open. -/
def reopens (s : Traffic) (p : ProviderId) : Bool :=
  match s.circuit p with
  | some ⟨_, .opened _ retryAt⟩ => decide (retryAt ≤ s.now)
  | _ => false

def started (s : Traffic) (request : Nat) (p : ProviderId) : Traffic :=
  let reopenings := if s.reopens p then Function.update s.reopenings p (s.reopenings p + 1) else s.reopenings
  { s with
    breaker := s.breaker.onRequestStart s.now p
    checked := s.checked.erase (request, p)
    inFlight := ⟨request, p, reopenings p⟩ :: s.inFlight
    reopenings }

def ended (s : Traffic) (attempt : Attempt) (breaker : CircuitBreaker) : Traffic :=
  { s with inFlight := s.inFlight.erase attempt, breaker }

def step (s : Traffic) : Op → Option Traffic
  | .tick elapsed => some { s with now := s.now + elapsed }
  | .check request p =>
    if s.busy request = false ∧ s.breaker.isAvailable s.now p = true then
      some { s with checked := (request, p) :: s.checked }
    else none
  | .start request p => if (request, p) ∈ s.checked then some (s.started request p) else none
  | .success a => if a ∈ s.inFlight then some (s.ended a (s.breaker.onSuccess a.provider)) else none
  | .failure a => if a ∈ s.inFlight then some (s.ended a (s.breaker.onFailure s.now a.provider)) else none
  | .cancel a => if a ∈ s.inFlight then some (s.ended a s.breaker) else none

variable {s t : Traffic} {p : ProviderId} {a : Attempt}

theorem circuit_new {handles : List ProviderHandle} {global : CircuitBreakerConfig} {now : Instant}
    {e : ProviderCircuit} (h : (new handles global now).circuit p = some e) : e.state = .closed 0 :=
  (CircuitBreaker.lookup_new h).1

theorem isAvailable_circuit (s : Traffic) (now : Instant) (p : ProviderId) :
    s.breaker.isAvailable now p = match s.circuit p with
      | some e => e.state.isAvailable e.config now
      | none => true := rfl

/-! ### The attempts on a provider -/

theorem attemptsOn_started (s : Traffic) (request : Nat) (p : ProviderId) :
    (s.started request p).attemptsOn p =
      ⟨request, p, (s.started request p).reopenings p⟩ :: s.attemptsOn p := by
  simp [attemptsOn, started]

theorem attemptsOn_started_ne {q : ProviderId} (h : q ≠ p) (s : Traffic) (request : Nat) :
    (s.started request q).attemptsOn p = s.attemptsOn p := by
  simp [attemptsOn, started, h]

theorem attemptsOn_ended (s : Traffic) (a : Attempt) (breaker : CircuitBreaker) (p : ProviderId) :
    (s.ended a breaker).attemptsOn p = (s.attemptsOn p).erase a :=
  List.erase_filter.symm

theorem attemptsOn_ended_ne (h : a.provider ≠ p) (s : Traffic) (breaker : CircuitBreaker) :
    (s.ended a breaker).attemptsOn p = s.attemptsOn p := by
  rw [attemptsOn_ended, List.erase_of_not_mem]
  intro ha
  exact h (beq_iff_eq.mp (List.mem_filter.mp ha).2)

theorem reopenings_started (s : Traffic) (request : Nat) (p : ProviderId) :
    (s.started request p).reopenings p = if s.reopens p then s.reopenings p + 1 else s.reopenings p := by
  unfold started
  split
  · exact Function.update_self ..
  · rfl

theorem reopenings_reopened (h : s.reopens p = true) (request : Nat) :
    (s.started request p).reopenings p = s.reopenings p + 1 := by
  rw [reopenings_started, if_pos h]

theorem reopenings_not_reopened (h : s.reopens p = false) (request : Nat) :
    (s.started request p).reopenings p = s.reopenings p := by
  rw [reopenings_started, h]
  rfl

/-- Attempts of reopenings so far are not from the next one. -/
theorem filter_next_reopening {l : List Attempt} (hle : ∀ a ∈ l, a.reopening ≤ s.reopenings a.provider) :
    (l.filter (·.provider == p)).filter (·.reopening == s.reopenings p + 1) = [] := by
  rw [List.filter_eq_nil_iff]
  intro a ha heq
  obtain ⟨hmem, hp⟩ := List.mem_filter.mp ha
  have hlea := hle a hmem
  rw [beq_iff_eq.mp hp, beq_iff_eq.mp heq] at hlea
  omega

theorem reopenings_started_ne {q : ProviderId} (h : p ≠ q) (s : Traffic) (request : Nat) :
    (s.started request q).reopenings p = s.reopenings p := by
  unfold started
  split
  · exact Function.update_of_ne h _ _
  · rfl

/-! ### The circuit of a provider -/

theorem circuit_started (s : Traffic) (request : Nat) (p : ProviderId) :
    (s.started request p).circuit p =
      (s.circuit p).map fun e => { e with state := e.state.onRequestStart s.now } := by
  refine (CircuitBreaker.lookup_updateState _ _ _ _).trans ?_
  rw [if_pos rfl]
  rfl

theorem circuit_started_ne {q : ProviderId} (h : p ≠ q) (s : Traffic) (request : Nat) :
    (s.started request q).circuit p = s.circuit p :=
  CircuitBreaker.lookup_updateState_ne h _

theorem circuit_success (s : Traffic) (a : Attempt) :
    (s.ended a (s.breaker.onSuccess a.provider)).circuit a.provider =
      (s.circuit a.provider).map fun e => { e with state := e.state.onSuccess } := by
  refine (CircuitBreaker.lookup_updateState _ _ _ _).trans ?_
  rw [if_pos rfl]
  rfl

theorem circuit_failure (s : Traffic) (a : Attempt) :
    (s.ended a (s.breaker.onFailure s.now a.provider)).circuit a.provider =
      (s.circuit a.provider).map fun e => { e with state := e.state.onFailure e.config s.now } := by
  refine (CircuitBreaker.lookup_updateState _ _ _ _).trans ?_
  rw [if_pos rfl]
  rfl

/-! ### Steps -/

/-- The steps that are possible, and where they lead. -/
inductive Step (s : Traffic) : Op → Traffic → Prop where
  | tick (elapsed : Duration) : Step s (.tick elapsed) { s with now := s.now + elapsed }
  | check (request : Nat) (p : ProviderId) (idle : s.busy request = false)
      (available : s.breaker.isAvailable s.now p = true) :
      Step s (.check request p) { s with checked := (request, p) :: s.checked }
  | start (request : Nat) (p : ProviderId) (checked : (request, p) ∈ s.checked) :
      Step s (.start request p) (s.started request p)
  | success (a : Attempt) (inFlight : a ∈ s.inFlight) :
      Step s (.success a) (s.ended a (s.breaker.onSuccess a.provider))
  | failure (a : Attempt) (inFlight : a ∈ s.inFlight) :
      Step s (.failure a) (s.ended a (s.breaker.onFailure s.now a.provider))
  | cancel (a : Attempt) (inFlight : a ∈ s.inFlight) : Step s (.cancel a) (s.ended a s.breaker)

theorem Step.of_step {op : Op} (hs : s.step op = some t) : Step s op t := by
  cases op with
  | tick elapsed =>
    cases hs
    exact .tick elapsed
  | check r p =>
    obtain ⟨⟨hidle, havailable⟩, hs⟩ := Option.ite_none_right_eq_some.mp hs
    cases hs
    exact .check r p hidle havailable
  | start r p =>
    obtain ⟨hchecked, hs⟩ := Option.ite_none_right_eq_some.mp hs
    cases hs
    exact .start r p hchecked
  | success a =>
    obtain ⟨ha, hs⟩ := Option.ite_none_right_eq_some.mp hs
    cases hs
    exact .success a ha
  | failure a =>
    obtain ⟨ha, hs⟩ := Option.ite_none_right_eq_some.mp hs
    cases hs
    exact .failure a ha
  | cancel a =>
    obtain ⟨ha, hs⟩ := Option.ite_none_right_eq_some.mp hs
    cases hs
    exact .cancel a ha

/-- What a step does to the circuit of a provider: a start, a success or a failure of an attempt on it
    updates its state, and everything else leaves it as it is. -/
theorem step_circuit {op : Op} (hs : s.step op = some t) (p : ProviderId) :
    (∃ r, op = .start r p ∧
      t.circuit p = (s.circuit p).map fun e => { e with state := e.state.onRequestStart s.now }) ∨
    (∃ a, op = .success a ∧ a.provider = p ∧
      t.circuit p = (s.circuit p).map fun e => { e with state := e.state.onSuccess }) ∨
    (∃ a, op = .failure a ∧ a.provider = p ∧
      t.circuit p = (s.circuit p).map fun e => { e with state := e.state.onFailure e.config s.now }) ∨
    t.circuit p = s.circuit p := by
  cases Step.of_step hs with
  | tick elapsed => exact .inr (.inr (.inr rfl))
  | check r q => exact .inr (.inr (.inr rfl))
  | cancel a => exact .inr (.inr (.inr rfl))
  | start r q =>
    by_cases hq : p = q
    · subst hq
      exact .inl ⟨r, rfl, circuit_started s r p⟩
    · exact .inr (.inr (.inr (circuit_started_ne hq s r)))
  | success a =>
    by_cases ha : p = a.provider
    · subst ha
      exact .inr (.inl ⟨a, rfl, rfl, circuit_success s a⟩)
    · exact .inr (.inr (.inr (CircuitBreaker.lookup_updateState_ne ha _)))
  | failure a =>
    by_cases ha : p = a.provider
    · subst ha
      exact .inr (.inr (.inl ⟨a, rfl, rfl, circuit_failure s a⟩))
    · exact .inr (.inr (.inr (CircuitBreaker.lookup_updateState_ne ha _)))

/-- How a circuit comes to be half-open after a step: the step is a start that reopens it, a start in the
    half-open period, or it leaves the circuit and, unless it is a cancellation, the attempts on the
    provider as they are. -/
theorem step_halfOpen {op : Op} {config : ResolvedCircuitBreaker} {f n : UInt32} (hs : s.step op = some t)
    (h : t.circuit p = some ⟨config, .halfOpen f n⟩) :
    (∃ r, op = .start r p ∧ t = s.started r p ∧ s.reopens p = true ∧ n = 0) ∨
    (∃ r m, op = .start r p ∧ t = s.started r p ∧ s.reopens p = false ∧
      s.circuit p = some ⟨config, .halfOpen f m⟩ ∧ n = saturatingSucc m) ∨
    (s.circuit p = some ⟨config, .halfOpen f n⟩ ∧ t.reopenings p = s.reopenings p ∧
      (t.attemptsOn p = s.attemptsOn p ∨
        ∃ a, op = .cancel a ∧ a.provider = p ∧ t.attemptsOn p = (s.attemptsOn p).erase a)) := by
  cases Step.of_step hs with
  | tick elapsed => exact .inr (.inr ⟨h, rfl, .inl rfl⟩)
  | check r q => exact .inr (.inr ⟨h, rfl, .inl rfl⟩)
  | start r q =>
    by_cases hq : p = q
    · subst hq
      rw [circuit_started, Option.map_eq_some_iff] at h
      obtain ⟨⟨config', state⟩, he, heq⟩ := h
      obtain ⟨rfl, hstate⟩ := ProviderCircuit.mk.inj heq
      rcases InnerState.onRequestStart_eq_halfOpen hstate with ⟨retryAt, rfl, hdue, rfl⟩ | ⟨m, rfl, rfl⟩
      · exact .inl ⟨r, rfl, rfl, by simp only [reopens, he, hdue, decide_true], rfl⟩
      · exact .inr (.inl ⟨r, m, rfl, rfl, by simp only [reopens, he], he, rfl⟩)
    · rw [circuit_started_ne hq] at h
      exact .inr (.inr ⟨h, reopenings_started_ne hq s r, .inl (attemptsOn_started_ne (Ne.symm hq) s r)⟩)
  | success a =>
    by_cases ha : p = a.provider
    · subst ha
      rw [circuit_success, Option.map_eq_some_iff] at h
      obtain ⟨e, -, heq⟩ := h
      cases heq
    · have hc := (CircuitBreaker.lookup_updateState_ne ha _).symm.trans h
      exact .inr (.inr ⟨hc, rfl, .inl (attemptsOn_ended_ne (Ne.symm ha) s _)⟩)
  | failure a =>
    by_cases ha : p = a.provider
    · subst ha
      rw [circuit_failure, Option.map_eq_some_iff] at h
      obtain ⟨e, -, heq⟩ := h
      exact absurd (ProviderCircuit.mk.inj heq).2 (InnerState.onFailure_ne_halfOpen _ _ _ _ _)
    · have hc := (CircuitBreaker.lookup_updateState_ne ha _).symm.trans h
      exact .inr (.inr ⟨hc, rfl, .inl (attemptsOn_ended_ne (Ne.symm ha) s _)⟩)
  | cancel a =>
    refine .inr (.inr ⟨h, rfl, ?_⟩)
    by_cases ha : a.provider = p
    · exact .inr ⟨a, rfl, ha, attemptsOn_ended s a _ p⟩
    · exact .inl (attemptsOn_ended_ne ha s _)

theorem step_inFlight {op : Op} (hs : s.step op = some t) (ha : a ∈ t.inFlight) :
    a ∈ s.inFlight ∨ ∃ r, op = .start r a.provider ∧ a = ⟨r, a.provider, t.reopenings a.provider⟩ := by
  cases Step.of_step hs with
  | start r q =>
    rcases List.mem_cons.mp ha with rfl | ha
    · exact .inr ⟨r, rfl, rfl⟩
    · exact .inl ha
  | tick elapsed => exact .inl ha
  | check r q => exact .inl ha
  | success b | failure b | cancel b => exact .inl (List.mem_of_mem_erase ha)

theorem step_reopenings {op : Op} (hs : s.step op = some t) (q : ProviderId) :
    s.reopenings q ≤ t.reopenings q := by
  cases Step.of_step hs with
  | start r p =>
    by_cases hq : q = p
    · subst hq
      rw [reopenings_started]
      split <;> omega
    · rw [reopenings_started_ne hq]
  | tick elapsed => exact Nat.le_refl _
  | check r p => exact Nat.le_refl _
  | success b | failure b | cancel b => exact Nat.le_refl _

/-- No attempt in flight is from a reopening that has not happened yet. -/
theorem reopening_le {ok : Traffic → Op → Prop} {handles : List ProviderHandle} {global : CircuitBreakerConfig}
    {now : Instant} (h : Reached step ok (new handles global now) s) :
    ∀ a ∈ s.inFlight, a.reopening ≤ s.reopenings a.provider := by
  refine h.invariant (I := fun s => ∀ a ∈ s.inFlight, a.reopening ≤ s.reopenings a.provider) ?_ ?_
  · intro a ha
    cases ha
  · intro s op t ih _ hs a ha
    rcases step_inFlight hs ha with ha | ⟨r, -, heq⟩
    · exact Nat.le_trans (ih a ha) (step_reopenings hs _)
    · rw [heq]

theorem step_config {op : Op} (hs : s.step op = some t) (q : ProviderId) :
    (t.circuit q).map (·.config) = (s.circuit q).map (·.config) := by
  have updated : ∀ (b : CircuitBreaker) provider f,
      ((b.updateState provider f).entries.lookup q).map (·.config) = (b.entries.lookup q).map (·.config) := by
    intro b provider f
    rw [CircuitBreaker.lookup_updateState]
    split
    · rw [Option.map_map]
      rfl
    · rfl
  cases Step.of_step hs with
  | tick elapsed => rfl
  | check r p => rfl
  | cancel b => rfl
  | start r p => exact updated _ _ _
  | success b => exact updated _ _ _
  | failure b => exact updated _ _ _

theorem config_eq {ok : Traffic → Op → Prop} (h : Reached step ok s t) (p : ProviderId) :
    (t.circuit p).map (·.config) = (s.circuit p).map (·.config) := by
  induction h with
  | start => rfl
  | step _ _ hs ih => rw [step_config hs, ih]

/-! ### Counting the attempts since the last reopening -/

theorem probes_started (h : s.reopens p = false) (r : Nat) : (s.started r p).probes p = s.probes p + 1 := by
  unfold probes
  rw [attemptsOn_started, reopenings_not_reopened h, List.countP_cons, if_pos (beq_self_eq_true _)]

/-- The start that reopens the circuit is the only attempt since then: all others are older. -/
theorem probes_started_reopens (hle : ∀ a ∈ s.inFlight, a.reopening ≤ s.reopenings a.provider)
    (h : s.reopens p = true) (r : Nat) : (s.started r p).probes p = 1 := by
  have hold : (s.attemptsOn p).countP (·.reopening == s.reopenings p + 1) = 0 := by
    rw [List.countP_eq_length_filter, attemptsOn, filter_next_reopening hle]
    rfl
  unfold probes
  rw [attemptsOn_started, reopenings_reopened h, List.countP_cons, if_pos (beq_self_eq_true _), hold]

theorem probes_congr (ha : t.attemptsOn p = s.attemptsOn p) (hr : t.reopenings p = s.reopenings p) :
    t.probes p = s.probes p := by
  rw [probes, probes, ha, hr]

theorem probes_erase_le (ha : t.attemptsOn p = (s.attemptsOn p).erase a) (hr : t.reopenings p = s.reopenings p) :
    t.probes p ≤ s.probes p := by
  rw [probes, probes, ha, hr]
  exact List.erase_sublist.countP_le

end Traffic
end Rpceth
