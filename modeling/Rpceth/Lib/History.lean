import Mathlib.Algebra.BigOperators.Group.Finset.Piecewise
import Rpceth.Lib.Interleaving

/-! The history of a memory: one list of all that has happened to it, whose parts are the logs of the tasks. -/

namespace Lib

inductive Happening (Op ι ε : Type) where
  | access (id : Nat) (input : ι) (op : Op)
  | outside (event : ε)

namespace Happening
variable {Op σ ι ε : Type}

/-- A happening with the memory before it, as the access of a task. -/
def access? : σ × Happening Op ι ε → Option (Nat × (σ × ι) × Op)
  | (memory, .access id input op) => some (id, (memory, input), op)
  | (_, .outside _) => none

/-- The accesses of a history, with the tasks that made them. -/
def accesses (hs : List (σ × Happening Op ι ε)) : List (Nat × (σ × ι) × Op) := hs.filterMap access?

/-- The accesses of one task. -/
def logOf (id : Nat) (hs : List (σ × Happening Op ι ε)) : List ((σ × ι) × Op) :=
  ((accesses hs).filter (·.1 == id)).map Prod.snd

variable {hs : List (σ × Happening Op ι ε)} {memory : σ}

@[simp] theorem accesses_nil : accesses ([] : List (σ × Happening Op ι ε)) = [] := rfl

@[simp] theorem accesses_snoc_access (id : Nat) (input : ι) (op : Op) :
    accesses (hs ++ [(memory, .access id input op)]) = accesses hs ++ [(id, (memory, input), op)] := by
  simp [accesses, access?]

@[simp] theorem accesses_snoc_outside (event : ε) :
    accesses (hs ++ [(memory, .outside event)]) = accesses hs := by
  simp [accesses, access?]

@[simp] theorem logOf_nil (id : Nat) : logOf id ([] : List (σ × Happening Op ι ε)) = [] := rfl

@[simp] theorem logOf_snoc_access (id : Nat) (input : ι) (op : Op) :
    logOf id (hs ++ [(memory, .access id input op)]) = logOf id hs ++ [((memory, input), op)] := by
  simp [logOf]

theorem logOf_snoc_access_ne {i id : Nat} (h : i ≠ id) (input : ι) (op : Op) :
    logOf i (hs ++ [(memory, .access id input op)]) = logOf i hs := by
  simp [logOf, Ne.symm h]

@[simp] theorem logOf_snoc_outside (id : Nat) (event : ε) :
    logOf id (hs ++ [(memory, .outside event)]) = logOf id hs := by
  simp [logOf]

/-- The accesses of a kind are those in the logs of all tasks together. -/
theorem countP_accesses (P : (σ × ι) × Op → Bool) {ids : Finset Nat}
    (hids : ∀ access ∈ accesses hs, access.1 ∈ ids) :
    (accesses hs).countP (fun access => P access.2) = ∑ id ∈ ids, (logOf id hs).countP P := by
  have hmap : ∀ id, (logOf id hs).countP P =
      (accesses hs).countP fun access => P access.2 && access.1 == id := by
    intro id
    rw [logOf, List.countP_map, List.countP_filter]
    rfl
  simp only [hmap]
  generalize accesses hs = l at hids ⊢
  induction l with
  | nil => simp
  | cons access l ih =>
    have hmem : access.1 ∈ ids := hids access List.mem_cons_self
    have hone : ∑ id ∈ ids, (if P access.2 && access.1 == id then 1 else 0) = if P access.2 then 1 else 0 := by
      by_cases hP : P access.2 = true <;> simp [hP, hmem, Finset.sum_ite_eq]
    simp only [List.countP_cons, Finset.sum_add_distrib, hone]
    rw [ih fun a ha => hids a (List.mem_cons_of_mem _ ha)]

end Happening

namespace Runtime
open Happening
variable {κ Op : Type} {Ans : Op → Type} {α σ ι ε β γ : Type} (R : Runtime κ Op Ans α σ ι ε)

def happen (memory : σ) : Happening Op ι ε → Option σ
  | .access _ input op => (R.exec memory input op).map Prod.snd
  | .outside event => R.outside memory event

/-- The memory came from `start` by these happenings. -/
inductive Timeline (start : σ) : List (σ × Happening Op ι ε) → σ → Prop where
  | nil : Timeline start [] start
  | snoc {hs : List (σ × Happening Op ι ε)} {memory memory' : σ} {h : Happening Op ι ε}
      (before : Timeline start hs memory) (happened : R.happen memory h = some memory') :
      Timeline start (hs ++ [(memory, h)]) memory'

variable {R} {start memory : σ} {hs : List (σ × Happening Op ι ε)} {w : World κ Op Ans α σ ι}
  {ok : World κ Op Ans α σ ι → Action κ ι ε → Prop}

/-- A part of the memory that some of the happenings act on is what these make of it, in their order. -/
theorem Timeline.replay (part : σ → β) (pick : σ × Happening Op ι ε → Option γ) (act : β → γ → β)
    (hstep : ∀ m h m', R.happen m h = some m' → part m' = ((pick (m, h)).map (act (part m))).getD (part m))
    (h : R.Timeline start hs memory) : part memory = (hs.filterMap pick).foldl act (part start) := by
  induction h with
  | nil => rfl
  | @snoc hs m m' h _ happened ih =>
    rw [List.filterMap_append, List.foldl_append, ← ih, hstep m h m' happened]
    cases hpick : pick (m, h) <;> simp [hpick]

/-- What every happening keeps to, the memories of a history keep to in their order. -/
theorem Timeline.chronological (le : σ → σ → Prop) (htrans : ∀ a b c, le a b → le b c → le a c)
    (hstep : ∀ m h m', R.happen m h = some m' → le m m') (h : R.Timeline start hs memory) :
    hs.Pairwise (fun x y => le x.1 y.1) ∧ ∀ x ∈ hs, le x.1 memory := by
  induction h with
  | nil => exact ⟨.nil, fun _ hx => absurd hx List.not_mem_nil⟩
  | @snoc hs m m' happening _ happened ih =>
    obtain ⟨hpairwise, hle⟩ := ih
    have hnew := hstep m happening m' happened
    refine ⟨List.pairwise_append.mpr ⟨hpairwise, List.pairwise_singleton _ _, fun x hx y hy => ?_⟩, fun x hx => ?_⟩
    · rw [List.mem_singleton.mp hy]
      exact hle x hx
    · rcases List.mem_append.mp hx with hx | hx
      · exact htrans _ _ _ (hle x hx) hnew
      · rw [List.mem_singleton.mp hx]
        exact hnew

/-- The memory at a happening came from what had happened before it. -/
theorem Timeline.front (h : R.Timeline start hs memory) {front rest : List (σ × Happening Op ι ε)}
    {x : σ × Happening Op ι ε} (hsplit : hs = front ++ x :: rest) : R.Timeline start front x.1 := by
  induction h generalizing rest with
  | nil => simp at hsplit
  | snoc before _ ih =>
    rcases split_snoc hsplit with ⟨rfl, rfl⟩ | ⟨rest', hsplit'⟩
    · exact before
    · exact ih hsplit'

/-- The memory that a task saw at an access came from what had happened before it. -/
theorem Timeline.front_of_log (h : R.Timeline start hs memory) {id : Nat} {entry : (σ × ι) × Op}
    (hentry : entry ∈ logOf id hs) :
    ∃ front happening rest, hs = front ++ (entry.1.1, happening) :: rest ∧ R.Timeline start front entry.1.1 := by
  obtain ⟨access, haccess, rfl⟩ := List.mem_map.mp hentry
  obtain ⟨⟨m, happening⟩, hx, heq⟩ := List.mem_filterMap.mp (List.mem_filter.mp haccess).1
  obtain ⟨front, rest, hsplit⟩ := List.append_of_mem hx
  obtain rfl : access.2.1.1 = m := by
    cases happening with
    | access i input op =>
      cases heq
      rfl
    | outside event => cases heq
  exact ⟨front, happening, rest, hsplit, h.front hsplit⟩

/-- In every reached world there is one history of the memory, and the log of each task is its part of it. -/
theorem exists_timeline (h : Reached R.step ok (.start memory) w) :
    ∃ hs, R.Timeline memory hs w.memory ∧ ∀ id, logOf id hs = ((w.tasks id).map Task.log).getD [] := by
  refine h.invariant (I := fun w => ∃ hs, R.Timeline memory hs w.memory ∧
    ∀ id, logOf id hs = ((w.tasks id).map Task.log).getD []) ⟨[], .nil, fun _ => rfl⟩ ?_
  rintro w action w' ⟨hs, htime, hlogs⟩ - hstep
  cases Step.of_step hstep with
  | spawn i job free =>
    refine ⟨hs, htime, fun id => ?_⟩
    by_cases hid : id = i
    · subst hid
      simpa [free] using hlogs id
    · rw [World.tasks_put_ne hid]
      exact hlogs id
  | access i input job op next log a m found executed =>
    refine ⟨hs ++ [(w.memory, .access i input op)], .snoc htime ?_, fun id => ?_⟩
    · simp only [happen, executed, Option.map_some, World.memory_put, World.memory_withMemory]
    · by_cases hid : id = i
      · subst hid
        simpa [found] using hlogs id
      · rw [logOf_snoc_access_ne hid, World.tasks_put_ne hid]
        exact hlogs id
  | drop i job op next log found _ =>
    refine ⟨hs, htime, fun id => ?_⟩
    by_cases hid : id = i
    · subst hid
      simpa [found] using hlogs id
    · rw [World.tasks_put_ne hid]
      exact hlogs id
  | outside event m changed =>
    have hhappen : R.happen w.memory (.outside event) = some m := changed
    exact ⟨_, .snoc htime hhappen, fun id => by simpa using hlogs id⟩

/-- Every access in the history is one of a task. -/
theorem task_of_access (hlogs : ∀ id, logOf id hs = ((w.tasks id).map Task.log).getD [])
    {access : Nat × (σ × ι) × Op} (ha : access ∈ accesses hs) :
    ∃ t, w.tasks access.1 = some t ∧ access.2 ∈ t.log := by
  have hmem : access.2 ∈ logOf access.1 hs :=
    List.mem_map.mpr ⟨access, List.mem_filter.mpr ⟨ha, beq_self_eq_true _⟩, rfl⟩
  rw [hlogs] at hmem
  cases ht : w.tasks access.1 with
  | none => simp [ht] at hmem
  | some t => exact ⟨t, rfl, by simpa [ht] using hmem⟩

end Runtime
end Lib
