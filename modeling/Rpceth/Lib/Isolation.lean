import Mathlib.Data.List.Forall2
import Rpceth.Lib.Interleaving

/-! One side of a runtime: some of its jobs, and the memories that look alike to them. If the operations and the
    events of the other jobs keep the memory alike, then whatever the whole runtime does, the side does the same
    with nothing else running. -/

namespace Lib
open Program

/-- The jobs, operations and events of a side, and the memories that look alike to it. -/
structure Side {κ Op : Type} {Ans : Op → Type} {α σ ι ε : Type} (R : Runtime κ Op Ans α σ ι ε) where
  job : κ → Prop
  op : Op → Prop
  event : ε → Prop
  alike : σ → σ → Prop
  exec_own : ∀ {m n m' : σ} {input : ι} {o : Op} {a : Ans o}, op o → alike m n →
    R.exec m input o = some (a, m') → ∃ n', R.exec n input o = some (a, n') ∧ alike m' n'
  exec_other : ∀ {m n m' : σ} {input : ι} {o : Op} {a : Ans o}, ¬op o → alike m n →
    R.exec m input o = some (a, m') → alike m' n
  outside_own : ∀ {m n m' : σ} {e : ε}, event e → alike m n → R.outside m e = some m' →
    ∃ n', R.outside n e = some n' ∧ alike m' n'
  outside_other : ∀ {m n m' : σ} {e : ε}, ¬event e → alike m n → R.outside m e = some m' → alike m' n

namespace Side
variable {κ Op : Type} {Ans : Op → Type} {α σ ι ε : Type} {R : Runtime κ Op Ans α σ ι ε} (S : Side R)

/-- The actions in which nothing of the other side begins. -/
def Own : Action κ ι ε → Prop
  | .spawn _ job => S.job job
  | .outside event => S.event event
  | .access _ _ | .drop _ => True

/-- The same operation with the same input, at memories that look alike. -/
def Same (x y : (σ × ι) × Op) : Prop := y.2 = x.2 ∧ y.1.2 = x.1.2 ∧ S.alike x.1.1 y.1.1

/-- The same task, in a world that looks alike. -/
structure Twin (t t' : Task κ Op Ans α σ ι) : Prop where
  job : t'.job = t.job
  program : t'.program = t.program
  dropped : t'.dropped = t.dropped
  log : List.Forall₂ S.Same t.log t'.log

/-- `v` is what the side sees of `w`. -/
structure Shows (w v : World κ Op Ans α σ ι) : Prop where
  memory : S.alike w.memory v.memory
  own : ∀ id t, w.tasks id = some t → S.job t.job → ∃ t', v.tasks id = some t' ∧ S.Twin t t'
  only : ∀ id t', v.tasks id = some t' → ∃ t, w.tasks id = some t ∧ S.job t.job ∧ S.Twin t t'

variable {S} {w v w' : World κ Op Ans α σ ι} {action : Action κ ι ε} {m n : σ} {id : Nat}
  {t t' : Task κ Op Ans α σ ι}

theorem map_of_same {l l' : List ((σ × ι) × Op)} (h : List.Forall₂ S.Same l l') :
    l'.map (fun x => (x.1.2, x.2)) = l.map fun x => (x.1.2, x.2) := by
  induction h with
  | nil => rfl
  | cons hsame _ ih => rw [List.map_cons, List.map_cons, ih, hsame.1, hsame.2.1]

theorem shows_start (h : S.alike m n) : S.Shows (.start m) (.start n) :=
  ⟨h, fun _ _ ht => (nomatch ht), fun _ _ ht => (nomatch ht)⟩

theorem Shows.withMemory (h : S.Shows w v) (hmemory : S.alike m n) : S.Shows (w.withMemory m) (v.withMemory n) :=
  ⟨hmemory, h.own, h.only⟩

theorem Shows.put_own (h : S.Shows w v) (hjob : S.job t.job) (htwin : S.Twin t t') :
    S.Shows (w.put id t) (v.put id t') where
  memory := h.memory
  own i x hx hxjob := by
    rcases World.tasks_put_eq_some hx with ⟨rfl, rfl⟩ | ⟨hi, hx⟩
    · exact ⟨t', World.tasks_put .., htwin⟩
    · rw [World.tasks_put_ne hi]
      exact h.own i x hx hxjob
  only i x hx := by
    rcases World.tasks_put_eq_some hx with ⟨rfl, rfl⟩ | ⟨hi, hx⟩
    · exact ⟨t, World.tasks_put .., hjob, htwin⟩
    · rw [World.tasks_put_ne hi]
      exact h.only i x hx

/-- What the task of the other side has become does not show. -/
theorem Shows.put_other (h : S.Shows w v) (hjob : ¬S.job t.job) (hnone : v.tasks id = none) :
    S.Shows (w.put id t) v where
  memory := h.memory
  own i x hx hxjob := by
    rcases World.tasks_put_eq_some hx with ⟨rfl, rfl⟩ | ⟨-, hx⟩
    · exact absurd hxjob hjob
    · exact h.own i x hx hxjob
  only i x hx := by
    have hi : i ≠ id := fun heq => by rw [heq, hnone] at hx; cases hx
    rw [World.tasks_put_ne hi]
    exact h.only i x hx

theorem Shows.none_of_other (h : S.Shows w v) (ht : ∀ t, w.tasks id = some t → ¬S.job t.job) :
    v.tasks id = none := by
  refine Option.eq_none_iff_forall_ne_some.mpr fun t' ht' => ?_
  obtain ⟨t, hfound, hjob, -⟩ := h.only id t' ht'
  exact ht t hfound hjob

theorem Shows.found (h : S.Shows w v) {job : κ} {program : Program Op Ans α} {log : List ((σ × ι) × Op)}
    {dropped : Bool} (ht : w.tasks id = some ⟨job, program, log, dropped⟩) (hjob : S.job job) :
    ∃ log', v.tasks id = some ⟨job, program, log', dropped⟩ ∧ List.Forall₂ S.Same log log' := by
  obtain ⟨⟨job', program', log', dropped'⟩, hfound, hjob', hprogram, hdropped, hlog⟩ := h.own id _ ht hjob
  cases hjob'
  cases hprogram
  cases hdropped
  exact ⟨log', hfound, hlog⟩

/-- What the side sees of a step is the same step, or nothing. -/
theorem Shows.step (h : S.Shows w v)
    (hops : ∀ id t op next, w.tasks id = some t → t.program = .call op next → (S.op op ↔ S.job t.job))
    (hs : R.step w action = some w') :
    S.Shows w' v ∨ S.Own action ∧ ∃ v', R.step v action = some v' ∧ S.Shows w' v' := by
  cases Runtime.Step.of_step hs with
  | spawn id job free =>
    have hfree : v.tasks id = none := h.none_of_other fun t ht => by rw [free] at ht; cases ht
    by_cases hjob : S.job job
    · exact .inr ⟨hjob, _, (Runtime.Step.spawn id job hfree).to_step, h.put_own hjob ⟨rfl, rfl, rfl, .nil⟩⟩
    · exact .inl (h.put_other hjob hfree)
  | access id input job op next log a m found executed =>
    have hop := hops id _ op next found rfl
    by_cases hjob : S.job job
    · obtain ⟨log', hfound, hlog⟩ := h.found found hjob
      obtain ⟨n, hexec, halike⟩ := S.exec_own (hop.mpr hjob) h.memory executed
      refine .inr ⟨trivial, _, (Runtime.Step.access id input _ op next log' a n hfound hexec).to_step, ?_⟩
      refine (h.withMemory halike).put_own hjob ⟨rfl, rfl, rfl, ?_⟩
      exact List.rel_append hlog (.cons ⟨rfl, rfl, h.memory⟩ .nil)
    · have hnone : v.tasks id = none := h.none_of_other fun t ht => by rw [found] at ht; cases ht; exact hjob
      have halike : S.alike m v.memory := S.exec_other (fun ho => hjob (hop.mp ho)) h.memory executed
      exact .inl (Shows.put_other (h.withMemory halike) hjob hnone)
  | drop id job op next log found suspends =>
    by_cases hjob : S.job job
    · obtain ⟨log', hfound, hlog⟩ := h.found found hjob
      exact .inr ⟨trivial, _, (Runtime.Step.drop id _ op next log' hfound suspends).to_step,
        h.put_own hjob ⟨rfl, rfl, rfl, hlog⟩⟩
    · have hnone : v.tasks id = none := h.none_of_other fun t ht => by rw [found] at ht; cases ht; exact hjob
      exact .inl (h.put_other hjob hnone)
  | outside event m changed =>
    by_cases hevent : S.event event
    · obtain ⟨n, hchanged, halike⟩ := S.outside_own hevent h.memory changed
      exact .inr ⟨hevent, _, (Runtime.Step.outside event n hchanged).to_step, h.withMemory halike⟩
    · exact .inl (h.withMemory (S.outside_other hevent h.memory changed))

/-- The rule for a side: what it sees of a run is a run in which nothing of the other side begins. -/
theorem isolate {ok : World κ Op Ans α σ ι → Action κ ι ε → Prop}
    (hops : ∀ w, Reached R.step ok (.start m) w → ∀ id t op next, w.tasks id = some t → t.program = .call op next →
      (S.op op ↔ S.job t.job))
    (h : Reached R.step ok (.start m) w) (hstart : S.alike m n) :
    ∃ v, Reached R.step (fun _ action => S.Own action) (.start n) v ∧ S.Shows w v := by
  refine h.simulate (R := S.Shows) (shows_start hstart) ?_
  intro w action w' v hr _ hs hshows
  rcases hshows.step (hops w hr) hs with hstay | ⟨hown, v', hstep, hshows'⟩
  · exact ⟨v, .start, hstay⟩
  · exact ⟨v', .step .start hown hstep, hshows'⟩

end Side
end Lib
