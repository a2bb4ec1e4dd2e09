import Mathlib.Logic.Function.Basic
import Rpceth.Lib.Program

/-! Tasks over one memory. A task runs the program of its job; a call of an operation is one step on the memory,
    with whatever comes in from outside at that moment, and the steps of the tasks interleave in any order. A
    task that waits in an operation that can suspend it may be dropped there. -/

namespace Lib
open Program

/-- What runs: the programs of the jobs, and how an operation acts on the memory. `exec` is `none` while the
    operation does not return. -/
structure Runtime (κ Op : Type) (Ans : Op → Type) (α σ ι ε : Type) where
  code : κ → Program Op Ans α
  exec : σ → ι → (op : Op) → Option (Ans op × σ)
  suspends : Op → Bool
  /-- What else changes the memory. -/
  outside : σ → ε → Option σ

/-- A task, with the operations it has called and the memory and the input at each of them. -/
structure Task (κ Op : Type) (Ans : Op → Type) (α σ ι : Type) where
  job : κ
  program : Program Op Ans α
  log : List ((σ × ι) × Op)
  dropped : Bool

structure World (κ Op : Type) (Ans : Op → Type) (α σ ι : Type) where
  memory : σ
  tasks : Nat → Option (Task κ Op Ans α σ ι)

inductive Action (κ ι ε : Type) where
  | spawn (id : Nat) (job : κ)
  | access (id : Nat) (input : ι)
  | drop (id : Nat)
  | outside (event : ε)

namespace World
variable {κ Op : Type} {Ans : Op → Type} {α σ ι : Type} (w : World κ Op Ans α σ ι)

/-- No task yet. -/
def start (memory : σ) : World κ Op Ans α σ ι := ⟨memory, fun _ => none⟩

def put (id : Nat) (task : Task κ Op Ans α σ ι) : World κ Op Ans α σ ι :=
  { w with tasks := Function.update w.tasks id (some task) }

def withMemory (memory : σ) : World κ Op Ans α σ ι := { w with memory }

@[simp] theorem memory_put (id : Nat) (task : Task κ Op Ans α σ ι) : (w.put id task).memory = w.memory := rfl

@[simp] theorem memory_withMemory (memory : σ) : (w.withMemory memory).memory = memory := rfl

@[simp] theorem tasks_withMemory (memory : σ) : (w.withMemory memory).tasks = w.tasks := rfl

@[simp] theorem tasks_put (id : Nat) (task : Task κ Op Ans α σ ι) : (w.put id task).tasks id = some task :=
  Function.update_self ..

variable {w}

theorem tasks_put_ne {id i : Nat} (h : i ≠ id) (task : Task κ Op Ans α σ ι) :
    (w.put id task).tasks i = w.tasks i :=
  Function.update_of_ne h _ _

theorem tasks_put_eq_some {id i : Nat} {task t : Task κ Op Ans α σ ι} (h : (w.put id task).tasks i = some t) :
    (i = id ∧ t = task) ∨ (i ≠ id ∧ w.tasks i = some t) := by
  by_cases hi : i = id
  · subst hi
    rw [tasks_put] at h
    exact .inl ⟨rfl, (Option.some.inj h).symm⟩
  · rw [tasks_put_ne hi] at h
    exact .inr ⟨hi, h⟩

end World

namespace Runtime
variable {κ Op : Type} {Ans : Op → Type} {α σ ι ε τ : Type} (R : Runtime κ Op Ans α σ ι ε)

/-- The answer to an operation, by the memory and the input. -/
def answer (m : σ × ι) (op : Op) : Option (Ans op) := (R.exec m.1 m.2 op).map Prod.fst

def step (w : World κ Op Ans α σ ι) : Action κ ι ε → Option (World κ Op Ans α σ ι)
  | .spawn id job =>
    match w.tasks id with
    | none => some (w.put id ⟨job, R.code job, [], false⟩)
    | some _ => none
  | .access id input =>
    match w.tasks id with
    | some ⟨job, .call op next, log, false⟩ =>
      (R.exec w.memory input op).map fun (a, memory) =>
        (w.withMemory memory).put id ⟨job, next a, log ++ [((w.memory, input), op)], false⟩
    | _ => none
  | .drop id =>
    match w.tasks id with
    | some ⟨job, .call op next, log, false⟩ =>
      if R.suspends op then some (w.put id ⟨job, .call op next, log, true⟩) else none
    | _ => none
  | .outside event => (R.outside w.memory event).map w.withMemory

/-- The steps that are possible, and where they lead. -/
inductive Step (w : World κ Op Ans α σ ι) : Action κ ι ε → World κ Op Ans α σ ι → Prop where
  | spawn (id : Nat) (job : κ) (free : w.tasks id = none) :
      Step w (.spawn id job) (w.put id ⟨job, R.code job, [], false⟩)
  | access (id : Nat) (input : ι) (job : κ) (op : Op) (next : Ans op → Program Op Ans α)
      (log : List ((σ × ι) × Op)) (a : Ans op) (memory : σ)
      (found : w.tasks id = some ⟨job, .call op next, log, false⟩)
      (executed : R.exec w.memory input op = some (a, memory)) :
      Step w (.access id input)
        ((w.withMemory memory).put id ⟨job, next a, log ++ [((w.memory, input), op)], false⟩)
  | drop (id : Nat) (job : κ) (op : Op) (next : Ans op → Program Op Ans α) (log : List ((σ × ι) × Op))
      (found : w.tasks id = some ⟨job, .call op next, log, false⟩) (suspends : R.suspends op = true) :
      Step w (.drop id) (w.put id ⟨job, .call op next, log, true⟩)
  | outside (event : ε) (memory : σ) (changed : R.outside w.memory event = some memory) :
      Step w (.outside event) (w.withMemory memory)

variable {R} {w w' : World κ Op Ans α σ ι} {action : Action κ ι ε}

theorem Step.of_step (h : R.step w action = some w') : R.Step w action w' := by
  cases action with
  | spawn id job =>
    simp only [step] at h
    split at h
    · rename_i hfree
      cases h
      exact .spawn id job hfree
    · cases h
  | access id input =>
    simp only [step] at h
    split at h
    · rename_i job op next log hfound
      obtain ⟨⟨a, memory⟩, hexec, heq⟩ := Option.map_eq_some_iff.mp h
      cases heq
      exact .access id input job op next log a memory hfound hexec
    · cases h
  | drop id =>
    simp only [step] at h
    split at h
    · rename_i job op next log hfound
      obtain ⟨hsuspends, heq⟩ := Option.ite_none_right_eq_some.mp h
      cases heq
      exact .drop id job op next log hfound hsuspends
    · cases h
  | outside event =>
    obtain ⟨memory, hchanged, rfl⟩ := Option.map_eq_some_iff.mp h
    exact .outside event memory hchanged

theorem Step.to_step (h : R.Step w action w') : R.step w action = some w' := by
  cases h with
  | spawn id job free => simp only [step, free]
  | access id input job op next log a memory found executed =>
    simp only [step, found, executed, Option.map_some]
  | drop id job op next log found suspends => simp only [step, found, suspends, ↓reduceIte]
  | outside event memory changed => simp only [step, changed, Option.map_some]

theorem answer_eq_some {memory memory' : σ} {input : ι} {op : Op} {a : Ans op}
    (h : R.exec memory input op = some (a, memory')) : R.answer (memory, input) op = some a := by
  simp only [answer, h, Option.map_some]

/-! ### What holds in every reached world -/

section
variable {ok : World κ Op Ans α σ ι → Action κ ι ε → Prop} {memory : σ}

/-- The program of a task is where its log has led the code of its job. -/
theorem task_leads (h : Reached R.step ok (.start memory) w) {id : Nat} {t : Task κ Op Ans α σ ι}
    (ht : w.tasks id = some t) : Leads R.answer (R.code t.job) t.log t.program := by
  revert id t
  refine h.invariant (I := fun w => ∀ id t, w.tasks id = some t → Leads R.answer (R.code t.job) t.log t.program)
    ?_ ?_ _ _
  · intro id t ht
    cases ht
  · intro w action w' ih _ hs id t ht
    cases Step.of_step hs with
    | spawn i job _ =>
      rcases World.tasks_put_eq_some ht with ⟨-, rfl⟩ | ⟨-, ht⟩
      · exact .refl _
      · exact ih id t ht
    | access i input job op next log a memory found executed =>
      rcases World.tasks_put_eq_some ht with ⟨-, rfl⟩ | ⟨-, ht⟩
      · exact (ih i _ found).snoc (answer_eq_some executed)
      · exact ih id t ht
    | drop i job op next log found _ =>
      rcases World.tasks_put_eq_some ht with ⟨-, rfl⟩ | ⟨-, ht⟩
      · have hleads := ih i _ found
        exact hleads
      · exact ih id t ht
    | outside event memory _ => exact ih id t ht

/-- A job that runs was admitted. -/
theorem job_admitted (h : Reached R.step ok (.start memory) w) {id : Nat} {t : Task κ Op Ans α σ ι}
    (ht : w.tasks id = some t) : ∃ w', ok w' (.spawn id t.job) := by
  revert id t
  refine h.invariant (I := fun w => ∀ id t, w.tasks id = some t → ∃ w', ok w' (.spawn id t.job)) ?_ ?_ _ _
  · intro id t ht
    cases ht
  · intro w action w' ih hok hs id t ht
    cases Step.of_step hs with
    | spawn i job _ =>
      rcases World.tasks_put_eq_some ht with ⟨rfl, rfl⟩ | ⟨-, ht⟩
      · exact ⟨w, hok⟩
      · exact ih id t ht
    | access i input job op next log a memory found _ =>
      rcases World.tasks_put_eq_some ht with ⟨rfl, rfl⟩ | ⟨-, ht⟩
      · have hadmitted := ih id _ found
        exact hadmitted
      · exact ih id t ht
    | drop i job op next log found _ =>
      rcases World.tasks_put_eq_some ht with ⟨rfl, rfl⟩ | ⟨-, ht⟩
      · have hadmitted := ih id _ found
        exact hadmitted
      · exact ih id t ht
    | outside event memory _ => exact ih id t ht

/-- What every change of the memory keeps to, the memories that a task has seen keep to in their order. -/
theorem task_memories (le : σ → σ → Prop) (htrans : ∀ a b c, le a b → le b c → le a c)
    (hexec : ∀ m input op a m', R.exec m input op = some (a, m') → le m m')
    (houtside : ∀ m event m', R.outside m event = some m' → le m m') (h : Reached R.step ok (.start memory) w)
    {id : Nat} {t : Task κ Op Ans α σ ι} (ht : w.tasks id = some t) :
    (t.log.map Prod.fst).Pairwise (fun a b => le a.1 b.1) ∧ ∀ entry ∈ t.log, le entry.1.1 w.memory := by
  have later : ∀ {m m' : σ} {log : List ((σ × ι) × Op)}, le m m' → (∀ entry ∈ log, le entry.1.1 m) →
      ∀ entry ∈ log, le entry.1.1 m' := fun hle hlog entry hentry => htrans _ _ _ (hlog entry hentry) hle
  revert id t
  refine h.invariant (I := fun w => ∀ id t, w.tasks id = some t →
    (t.log.map Prod.fst).Pairwise (fun a b => le a.1 b.1) ∧ ∀ entry ∈ t.log, le entry.1.1 w.memory) ?_ ?_ _ _
  · intro id t ht
    cases ht
  · intro w action w' ih _ hs id t ht
    cases Step.of_step hs with
    | spawn i job _ =>
      rcases World.tasks_put_eq_some ht with ⟨-, rfl⟩ | ⟨-, ht⟩
      · exact ⟨.nil, fun _ hentry => absurd hentry List.not_mem_nil⟩
      · exact ih id t ht
    | access i input job op next log a m found executed =>
      have hle := hexec _ _ _ _ _ executed
      rcases World.tasks_put_eq_some ht with ⟨-, rfl⟩ | ⟨-, ht⟩
      · obtain ⟨hpairwise, hlog⟩ := ih i _ found
        simp only [List.map_append, List.map_cons, List.map_nil]
        refine ⟨List.pairwise_append.mpr ⟨hpairwise, List.pairwise_singleton _ _, ?_⟩, ?_⟩
        · intro x hx y hy
          obtain ⟨entry, hentry, rfl⟩ := List.mem_map.mp hx
          rw [List.mem_singleton.mp hy]
          exact hlog entry hentry
        · intro entry hentry
          rcases List.mem_append.mp hentry with hentry | hentry
          · exact later hle hlog entry hentry
          · rw [List.mem_singleton.mp hentry]
            exact hle
      · exact ⟨(ih id t ht).1, later hle (ih id t ht).2⟩
    | drop i job op next log found _ =>
      rcases World.tasks_put_eq_some ht with ⟨-, rfl⟩ | ⟨-, ht⟩
      · have hfound := ih i _ found
        exact hfound
      · exact ih id t ht
    | outside event m changed =>
      exact ⟨(ih id t ht).1, later (houtside _ _ _ changed) (ih id t ht).2⟩

/-- A code that keeps to a protocol keeps to it in every task, whatever the others do. -/
theorem task_follows {P : κ → Protocol Op Ans τ} {Q : κ → τ → α → Prop} {s₀ : κ → τ}
    (hcode : ∀ job, Follows (P job) (Q job) (s₀ job) (R.code job)) (h : Reached R.step ok (.start memory) w)
    {id : Nat} {t : Task κ Op Ans α σ ι} (ht : w.tasks id = some t) :
    Follows (P t.job) (Q t.job) ((P t.job).after R.answer (s₀ t.job) t.log) t.program :=
  Protocol.follows_leads (hcode t.job) (task_leads h ht)

/-- A task that is not dropped comes to its end by the steps that its bound leaves to it, if what it calls returns. -/
theorem exists_finish {id : Nat} {t : Task κ Op Ans α σ ι} {n : Nat} (ht : w.tasks id = some t)
    (hdropped : t.dropped = false) (hwithin : t.program.Within n) {inputs : List ι}
    (hreturns : ∀ input ∈ inputs, ∀ m op, (R.exec m input op).isSome) (hlen : n ≤ inputs.length) :
    ∃ front back, inputs = front ++ back ∧ front.length ≤ n ∧ ∃ w' t' a,
      run R.step w (front.map (.access id)) = some w' ∧ w'.tasks id = some t' ∧ t'.job = t.job ∧
        t'.program = .done a := by
  induction inputs generalizing n w t with
  | nil =>
    obtain ⟨job, program, log, dropped⟩ := t
    cases program with
    | done a => exact ⟨[], [], rfl, Nat.zero_le n, w, _, a, rfl, ht, rfl, rfl⟩
    | call op next =>
      obtain rfl := Nat.le_zero.mp hlen
      exact False.elim hwithin
  | cons input inputs ih =>
    obtain ⟨job, program, log, dropped⟩ := t
    obtain rfl : dropped = false := hdropped
    cases program with
    | done a => exact ⟨[], input :: inputs, rfl, Nat.zero_le n, w, _, a, rfl, ht, rfl, rfl⟩
    | call op next =>
      obtain _ | n := n
      · exact False.elim hwithin
      · obtain ⟨⟨a, m⟩, hexec⟩ := Option.isSome_iff_exists.mp (hreturns input List.mem_cons_self w.memory op)
        have hstep := (Step.access id input job op next log a m ht hexec : R.Step w _ _).to_step
        obtain ⟨front, back, rfl, hfront, w', t', b, hrun, ht', hjob, hdone⟩ :=
          ih (World.tasks_put _ id ⟨job, next a, log ++ [((w.memory, input), op)], false⟩) rfl (hwithin a)
            (fun i hi => hreturns i (List.mem_cons_of_mem _ hi)) (Nat.le_of_succ_le_succ hlen)
        refine ⟨input :: front, back, rfl, Nat.succ_le_succ hfront, w', t', b, ?_, ht', hjob, hdone⟩
        rw [List.map_cons, run, hstep]
        exact hrun

end
end Runtime
end Lib
