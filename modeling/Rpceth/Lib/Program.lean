import Mathlib.Init
import Rpceth.Lib.Machine

/-! Programs that call operations and go on with the answers. What answers is left open: `answer m op` is the
    answer to `op` at the moment `m`, or `none` while there is none. A log lists the operations called, each
    with the moment of its answer. -/

namespace Lib

/-- Where a list with one more entry may be split. -/
theorem split_snoc {α : Type} {l before after : List α} {x y : α} (h : l ++ [x] = before ++ y :: after) :
    (before = l ∧ y = x) ∨ ∃ after', l = before ++ y :: after' := by
  rcases List.eq_nil_or_concat after with rfl | ⟨after', z, rfl⟩
  · obtain ⟨rfl, heq⟩ := List.append_inj' h rfl
    exact .inl ⟨rfl, (List.singleton_inj.mp heq).symm⟩
  · refine .inr ⟨after', ?_⟩
    have hsplit : l ++ [x] = (before ++ y :: after') ++ [z] := by simpa using h
    exact (List.append_inj' hsplit rfl).1

inductive Program (Op : Type) (Ans : Op → Type) (α : Type) where
  | done (result : α)
  | call (op : Op) (next : Ans op → Program Op Ans α)

/-- A protocol: which operations may be called in a state, and the state after the answer. -/
structure Protocol (Op : Type) (Ans : Op → Type) (τ : Type) where
  allowed : τ → Op → Prop
  next : τ → (op : Op) → Ans op → τ

namespace Program
variable {Op : Type} {Ans : Op → Type} {α β κ μ τ : Type}

def bind : Program Op Ans α → (α → Program Op Ans β) → Program Op Ans β
  | done a, f => f a
  | call op next, f => call op fun answer => (next answer).bind f

instance : Monad (Program Op Ans) where
  pure := done
  bind := bind

/-- The program that calls one operation. -/
def ask (op : Op) : Program Op Ans (Ans op) := call op done

@[simp] theorem pure_eq (a : α) : (pure a : Program Op Ans α) = done a := rfl

@[simp] theorem bind_eq (p : Program Op Ans α) (f : α → Program Op Ans β) : (p >>= f) = p.bind f := rfl

@[simp] theorem done_bind (a : α) (f : α → Program Op Ans β) : (done a).bind f = f a := rfl

@[simp] theorem call_bind (op : Op) (next : Ans op → Program Op Ans α) (f : α → Program Op Ans β) :
    (call op next).bind f = call op fun answer => (next answer).bind f := rfl

@[simp] theorem ask_bind (op : Op) (f : Ans op → Program Op Ans β) : (ask op).bind f = call op f := rfl

/-- The program that runs `f` on one member of a list after the other. -/
def forEach (f : κ → Program Op Ans α) : List κ → Program Op Ans (List α)
  | [] => done []
  | k :: ks => (f k).bind fun a => (forEach f ks).bind fun as => done (a :: as)

/-! ### Execution -/

section
variable {answer : μ → (op : Op) → Option (Ans op)}

/-- `p` becomes `q` by the calls of a log. -/
inductive Leads (answer : μ → (op : Op) → Option (Ans op)) :
    Program Op Ans α → List (μ × Op) → Program Op Ans α → Prop where
  | refl (p : Program Op Ans α) : Leads answer p [] p
  | call {op : Op} {next : Ans op → Program Op Ans α} {m : μ} {a : Ans op} {log : List (μ × Op)}
      {q : Program Op Ans α} (answered : answer m op = some a) (rest : Leads answer (next a) log q) :
      Leads answer (.call op next) ((m, op) :: log) q

variable {p q r : Program Op Ans α} {f : α → Program Op Ans β} {log log' : List (μ × Op)}

theorem Leads.append (h : Leads answer p log q) (h' : Leads answer q log' r) : Leads answer p (log ++ log') r := by
  induction h with
  | refl p => exact h'
  | call answered _ ih => exact .call answered (ih h')

theorem Leads.snoc {op : Op} {next : Ans op → Program Op Ans α} {m : μ} {a : Ans op}
    (h : Leads answer p log (.call op next)) (answered : answer m op = some a) :
    Leads answer p (log ++ [(m, op)]) (next a) :=
  h.append (.call answered (.refl _))

@[simp] theorem leads_done_iff {a : α} : Leads answer (.done a) log q ↔ log = [] ∧ q = .done a := by
  constructor
  · intro h
    cases h
    exact ⟨rfl, rfl⟩
  · rintro ⟨rfl, rfl⟩
    exact .refl _

/-- An execution of a call to its end takes the answer at some moment first. -/
@[simp] theorem leads_call_done_iff {op : Op} {next : Ans op → Program Op Ans α} {b : α} :
    Leads answer (.call op next) log (.done b) ↔
      ∃ m a rest, log = (m, op) :: rest ∧ answer m op = some a ∧ Leads answer (next a) rest (.done b) := by
  constructor
  · intro h
    cases h with
    | call answered rest => exact ⟨_, _, _, rfl, answered, rest⟩
  · rintro ⟨m, a, rest, rfl, answered, hrest⟩
    exact .call answered hrest

/-- An execution of a sequence to its end is one of the first part and then one of the second. -/
theorem leads_bind_done_iff {b : β} :
    Leads answer (p.bind f) log (.done b) ↔
      ∃ a first second, log = first ++ second ∧ Leads answer p first (.done a) ∧
        Leads answer (f a) second (.done b) := by
  constructor
  · intro h
    induction p generalizing log with
    | done a => exact ⟨a, [], log, rfl, .refl _, h⟩
    | call op next ih =>
      obtain ⟨m, x, rest, rfl, answered, hrest⟩ := leads_call_done_iff.mp h
      obtain ⟨a, first, second, rfl, hfirst, hsecond⟩ := ih x hrest
      exact ⟨a, (m, op) :: first, second, rfl, .call answered hfirst, hsecond⟩
  · rintro ⟨a, first, second, rfl, hfirst, hsecond⟩
    induction p generalizing first with
    | done a' =>
      obtain ⟨rfl, heq⟩ := leads_done_iff.mp hfirst
      cases heq
      exact hsecond
    | call op next ih =>
      obtain ⟨m, x, rest, rfl, answered, hrest⟩ := leads_call_done_iff.mp hfirst
      exact .call answered (ih x rest hrest)

/-- A moment that answers everything takes every program to its end. -/
theorem exists_leads_done {m : μ} (answers : ∀ op, (answer m op).isSome) (p : Program Op Ans α) :
    ∃ log a, Leads answer p log (.done a) ∧ ∀ entry ∈ log, entry.1 = m := by
  induction p with
  | done a => exact ⟨[], a, .refl _, fun _ h => absurd h List.not_mem_nil⟩
  | call op next ih =>
    obtain ⟨x, answered⟩ := Option.isSome_iff_exists.mp (answers op)
    obtain ⟨log, a, hlog, hall⟩ := ih x
    refine ⟨(m, op) :: log, a, .call answered hlog, fun entry hentry => ?_⟩
    rcases List.mem_cons.mp hentry with rfl | hentry
    · rfl
    · exact hall entry hentry

end

/-! ### Bounded programs -/

/-- The program makes at most so many calls, whatever the answers are. -/
def Within : Program Op Ans α → Nat → Prop
  | done _, _ => True
  | call _ _, 0 => False
  | call _ next, n + 1 => ∀ a, (next a).Within n

section
variable {p q : Program Op Ans α} {f : α → Program Op Ans β} {m n : Nat}

@[simp] theorem within_done (a : α) (n : Nat) : (done a : Program Op Ans α).Within n := trivial

theorem Within.mono (h : p.Within m) (hle : m ≤ n) : p.Within n := by
  induction p generalizing m n with
  | done a => exact trivial
  | call op next ih =>
    obtain _ | m := m
    · exact False.elim h
    · obtain ⟨k, rfl⟩ := Nat.exists_eq_add_of_le' (Nat.le_trans (Nat.le_add_left 1 m) hle)
      exact fun a => ih a (h a) (Nat.le_of_succ_le_succ hle)

theorem Within.bind (hp : p.Within m) (hf : ∀ a, (f a).Within n) : (p.bind f).Within (m + n) := by
  induction p generalizing m with
  | done a => exact (hf a).mono (Nat.le_add_left n m)
  | call op next ih =>
    obtain _ | m := m
    · exact False.elim hp
    · rw [Nat.succ_add]
      exact fun a => ih a (hp a)

theorem Within.forEach {f : β → Program Op Ans α} (hf : ∀ b, (f b).Within n) (bs : List β) :
    (forEach f bs).Within (bs.length * n) := by
  induction bs with
  | nil => exact trivial
  | cons b bs ih =>
    rw [List.length_cons, Nat.succ_mul, Nat.add_comm]
    exact (hf b).bind fun a => ih.bind (n := 0) fun as => trivial

/-- An execution uses up the bound. -/
theorem Within.leads {answer : μ → (op : Op) → Option (Ans op)} {log : List (μ × Op)} (hp : p.Within n)
    (h : Leads answer p log q) : log.length ≤ n ∧ q.Within (n - log.length) := by
  induction h generalizing n with
  | refl p => exact ⟨Nat.zero_le n, hp⟩
  | call answered _ ih =>
    obtain _ | n := n
    · exact False.elim hp
    · obtain ⟨hle, hrest⟩ := ih (hp _)
      rw [List.length_cons, Nat.succ_sub_succ]
      exact ⟨Nat.succ_le_succ hle, hrest⟩

end

/-! ### Protocols -/

/-- Every call that the program makes from `s` on is allowed, and every result meets `Q`. -/
def Follows (P : Protocol Op Ans τ) (Q : τ → α → Prop) : τ → Program Op Ans α → Prop
  | s, done a => Q s a
  | s, call op next => P.allowed s op ∧ ∀ a, Follows P Q (P.next s op a) (next a)

section
variable {P : Protocol Op Ans τ} {Q : τ → α → Prop} {R : τ → β → Prop} {s : τ}

theorem Follows.done {a : α} (h : Q s a) : Follows P Q s (.done a) := h

theorem Follows.call {op : Op} {next : Ans op → Program Op Ans α} (hallowed : P.allowed s op)
    (h : ∀ a, Follows P Q (P.next s op a) (next a)) : Follows P Q s (.call op next) := ⟨hallowed, h⟩

theorem Follows.bind {p : Program Op Ans α} {f : α → Program Op Ans β} (hp : Follows P Q s p)
    (hf : ∀ s a, Q s a → Follows P R s (f a)) : Follows P R s (p.bind f) := by
  induction p generalizing s with
  | done a => exact hf s a hp
  | call op next ih => exact ⟨hp.1, fun a => ih a (hp.2 a)⟩

/-- What the run on one more member keeps, of the members and the results so far, the run on a list keeps. -/
theorem Follows.forEach {I : τ → List κ → List α → Prop} {f : κ → Program Op Ans α}
    (hstep : ∀ s ks as k, I s ks as → Follows P (fun s a => I s (ks ++ [k]) (as ++ [a])) s (f k)) (h : I s [] [])
    (ks : List κ) : Follows P (fun s as => I s ks as) s (forEach f ks) := by
  have later : ∀ ks before results s, I s before results →
      Follows P (fun s as => I s (before ++ ks) (results ++ as)) s (Program.forEach f ks) := by
    intro ks
    induction ks with
    | nil => exact fun before results s h => Follows.done (by simpa using h)
    | cons k ks ih =>
      intro before results s h
      refine Follows.bind (hstep s before results k h) fun s' a ha => ?_
      exact Follows.bind (ih _ _ s' ha) fun s'' as has => Follows.done (by simpa using has)
  exact later ks [] [] s h

/-- A protocol that allows more. -/
theorem Follows.weaken {P' : Protocol Op Ans τ} {p : Program Op Ans α} (hp : Follows P Q s p)
    (hnext : P'.next = P.next) (hallowed : ∀ s op, P.allowed s op → P'.allowed s op) : Follows P' Q s p := by
  induction p generalizing s with
  | done a => exact hp
  | call op next ih =>
    refine ⟨hallowed s op hp.1, fun a => ?_⟩
    rw [hnext]
    exact ih a (hp.2 a)

end
end Program

namespace Protocol
variable {Op : Type} {Ans : Op → Type} {α μ τ : Type} (P : Protocol Op Ans τ)
  (answer : μ → (op : Op) → Option (Ans op))

/-- The state after a call at a moment. -/
def advance (s : τ) (entry : μ × Op) : τ :=
  match answer entry.1 entry.2 with
  | some a => P.next s entry.2 a
  | none => s

/-- The state after a log. -/
def after (s : τ) (log : List (μ × Op)) : τ := log.foldl (P.advance answer) s

variable {P answer} {s : τ}

@[simp] theorem after_nil : P.after answer s [] = s := rfl

@[simp] theorem after_cons (entry : μ × Op) (log : List (μ × Op)) :
    P.after answer s (entry :: log) = P.after answer (P.advance answer s entry) log := rfl

theorem advance_some {m : μ} {op : Op} {a : Ans op} (h : answer m op = some a) :
    P.advance answer s (m, op) = P.next s op a := by
  unfold advance
  rw [h]

/-- A program that keeps to the protocol keeps to it after any part of an execution. -/
theorem follows_leads {Q : τ → α → Prop} {p q : Program Op Ans α} {log : List (μ × Op)}
    (hp : Program.Follows P Q s p) (h : Program.Leads answer p log q) :
    Program.Follows P Q (P.after answer s log) q := by
  induction h generalizing s with
  | refl p => exact hp
  | call answered _ ih =>
    rw [after_cons, advance_some answered]
    exact ih (hp.2 _)

/-- The rule for executions of a program that keeps to the protocol: what every allowed call keeps, of the state
    and the log so far, an execution keeps. -/
theorem follows_invariant {Q : τ → α → Prop} {I : τ → List (μ × Op) → Prop}
    (hstep : ∀ s before m op a, I s before → P.allowed s op → answer m op = some a →
      I (P.next s op a) (before ++ [(m, op)]))
    {p q : Program Op Ans α} {log before : List (μ × Op)} (hp : Program.Follows P Q s p)
    (h : Program.Leads answer p log q) (hI : I s before) : I (P.after answer s log) (before ++ log) := by
  induction h generalizing s before with
  | refl p => simpa using hI
  | call answered _ ih =>
    have hnext := ih (hp.2 _) (hstep _ _ _ _ _ hI hp.1 answered)
    rw [after_cons, advance_some answered]
    simpa using hnext

end Protocol
end Lib
