import Mathlib.Data.Finset.Card
import Mathlib.Data.Finset.SDiff

/-! Search by exclusion: ask a source for a candidate, accept it, or exclude its key and ask again. The
    source may answer every question differently, but a candidate's key is in a fixed finite pool and
    never excluded, so the search ends and asks at most once more than there are keys left. -/

namespace Lib

/-- A source of candidates. `draw n excluded` answers the `n`-th question. -/
structure Source (ι β : Type) [DecidableEq ι] where
  key : β → ι
  pool : Finset ι
  draw : Nat → Finset ι → Option β
  mem_pool : ∀ {n excluded b}, draw n excluded = some b → key b ∈ pool
  fresh : ∀ {n excluded b}, draw n excluded = some b → key b ∉ excluded

namespace Source
variable {ι β : Type} [DecidableEq ι] (S : Source ι β) (accept : Nat → β → Bool)

theorem card_sdiff_lt {n : Nat} {excluded : Finset ι} {b : β} (h : S.draw n excluded = some b) :
    (S.pool \ insert (S.key b) excluded).card < (S.pool \ excluded).card := by
  refine Finset.card_lt_card ⟨?_, fun hsub => ?_⟩
  · exact Finset.sdiff_subset_sdiff (Finset.Subset.refl _) (Finset.subset_insert _ _)
  · have hkey : S.key b ∈ S.pool \ excluded := Finset.mem_sdiff.mpr ⟨S.mem_pool h, S.fresh h⟩
    exact (Finset.mem_sdiff.mp (hsub hkey)).2 (Finset.mem_insert_self _ _)

/-- The accepted candidate, if any, and the number of the next question. -/
def search (excluded : Finset ι) (n : Nat) : Option β × Nat :=
  match h : S.draw n excluded with
  | none => (none, n + 1)
  | some b =>
    if accept n b then (some b, n + 1)
    else search (insert (S.key b) excluded) (n + 1)
termination_by (S.pool \ excluded).card
decreasing_by exact S.card_sdiff_lt h

variable {S accept}

theorem search_none {excluded : Finset ι} {n : Nat} (h : S.draw n excluded = none) :
    S.search accept excluded n = (none, n + 1) := by
  rw [search]
  split
  · rfl
  · rename_i b hb
    rw [h] at hb
    cases hb

theorem search_some {excluded : Finset ι} {n : Nat} {b : β} (h : S.draw n excluded = some b) :
    S.search accept excluded n =
      if accept n b then (some b, n + 1) else S.search accept (insert (S.key b) excluded) (n + 1) := by
  rw [search]
  split
  · rename_i hb
    rw [h] at hb
    cases hb
  · rename_i b' hb
    rw [h] at hb
    cases hb
    rfl

/-- A rule for what a search returns: from the exclusions so far, `P` of the result follows when the
    source has nothing, when the candidate is accepted, and when it is excluded and the search goes on. -/
theorem search_induct (accept : Nat → β → Bool) {P : Finset ι → Nat → Option β × Nat → Prop}
    (none : ∀ excluded n, S.draw n excluded = none → P excluded n (none, n + 1))
    (accepted : ∀ excluded n b, S.draw n excluded = some b → accept n b = true → P excluded n (some b, n + 1))
    (rejected : ∀ excluded n b r, S.draw n excluded = some b → accept n b = false →
      P (insert (S.key b) excluded) (n + 1) r → P excluded n r)
    (excluded : Finset ι) (n : Nat) : P excluded n (S.search accept excluded n) := by
  induction hk : (S.pool \ excluded).card using Nat.strong_induction_on generalizing excluded n with
  | _ k ih =>
    subst hk
    cases h : S.draw n excluded with
    | none =>
      rw [search_none h]
      exact none _ _ h
    | some b =>
      rw [search_some h]
      cases ha : accept n b with
      | true => exact accepted _ _ _ h ha
      | false => exact rejected _ _ _ _ h ha (ih _ (S.card_sdiff_lt h) _ _ rfl)

/-- The result is what the source offers to one of the questions, with at least the first exclusions, and it is
    accepted there. -/
theorem search_drawn (excluded : Finset ι) (n : Nat) {b : β} (h : (S.search accept excluded n).1 = some b) :
    ∃ m excluded', n ≤ m ∧ m < (S.search accept excluded n).2 ∧ excluded ⊆ excluded' ∧
      S.draw m excluded' = some b ∧ accept m b = true := by
  revert h
  refine search_induct accept
    (P := fun excluded n r => r.1 = some b → ∃ m excluded', n ≤ m ∧ m < r.2 ∧ excluded ⊆ excluded' ∧
      S.draw m excluded' = some b ∧ accept m b = true)
    ?_ ?_ ?_ excluded n
  · intro _ _ _ h
    cases h
  · intro excluded n b' hb ha h
    cases h
    exact ⟨n, excluded, Nat.le_refl n, Nat.lt_succ_self n, Finset.Subset.refl _, hb, ha⟩
  · intro excluded n b' r _ _ ih h
    obtain ⟨m, excluded', hm, hlt, hsub, hb, ha⟩ := ih h
    exact ⟨m, excluded', Nat.le_of_succ_le hm, hlt, (Finset.subset_insert _ _).trans hsub, hb, ha⟩

theorem search_sound (excluded : Finset ι) (n : Nat) {b : β} (h : (S.search accept excluded n).1 = some b) :
    S.key b ∈ S.pool ∧ S.key b ∉ excluded ∧ ∃ m, n ≤ m ∧ accept m b = true := by
  obtain ⟨m, excluded', hm, -, hsub, hb, ha⟩ := search_drawn excluded n h
  exact ⟨S.mem_pool hb, fun hmem => S.fresh hb (hsub hmem), m, hm, ha⟩

/-- While a key is left that the source offers whenever it is not excluded, and whose candidates are
    accepted, at all the questions that are asked, the search succeeds. -/
theorem search_complete {i : ι} {excluded : Finset ι} {n : Nat}
    (hdraw : ∀ m excluded', n ≤ m → m < (S.search accept excluded n).2 → i ∉ excluded' → (S.draw m excluded').isSome)
    (haccept : ∀ m b, n ≤ m → m < (S.search accept excluded n).2 → S.key b = i → accept m b = true)
    (hi : i ∉ excluded) : ((S.search accept excluded n).1).isSome := by
  generalize hN : (S.search accept excluded n).2 = last at hdraw haccept
  have hsearch : n < (S.search accept excluded n).2 ∧
      (i ∉ excluded → n ≤ n → (S.search accept excluded n).2 ≤ last → (S.search accept excluded n).1.isSome) := by
    refine search_induct accept (P := fun excluded m r => m < r.2 ∧ (i ∉ excluded → n ≤ m → r.2 ≤ last → r.1.isSome))
      ?_ ?_ ?_ excluded n
    · intro excluded m h
      refine ⟨Nat.lt_succ_self m, fun hi hm hlast => ?_⟩
      have hsome := hdraw m excluded hm hlast hi
      rw [h] at hsome
      cases hsome
    · intro _ m _ _ _
      exact ⟨Nat.lt_succ_self m, fun _ _ _ => rfl⟩
    · rintro excluded m b r - ha ⟨hlt, ih⟩
      refine ⟨Nat.lt_of_succ_lt hlt, fun hi hm hlast => ih (fun hmem => ?_) (Nat.le_succ_of_le hm) hlast⟩
      rcases Finset.mem_insert.mp hmem with rfl | hmem
      · rw [haccept m b hm (by omega) rfl] at ha
        cases ha
      · exact hi hmem
  exact hsearch.2 hi (Nat.le_refl n) (Nat.le_of_eq hN)

/-- A search asks at least once. -/
theorem search_asks (excluded : Finset ι) (n : Nat) : n < (S.search accept excluded n).2 := by
  refine search_induct accept (P := fun _ n r => n < r.2) ?_ ?_ ?_ excluded n
  · exact fun _ n _ => Nat.lt_succ_self n
  · exact fun _ n _ _ _ => Nat.lt_succ_self n
  · exact fun _ n _ _ _ _ ih => Nat.lt_of_succ_lt ih

/-- A search asks at most once more than there are keys left in the pool. -/
theorem search_questions (excluded : Finset ι) (n : Nat) :
    (S.search accept excluded n).2 ≤ n + (S.pool \ excluded).card + 1 := by
  refine search_induct accept (P := fun excluded n r => r.2 ≤ n + (S.pool \ excluded).card + 1)
    ?_ ?_ ?_ excluded n
  · intro excluded n _
    simp only
    omega
  · intro excluded n _ _ _
    simp only
    omega
  · intro excluded n b r hb _ ih
    have := S.card_sdiff_lt hb
    omega

end Source
end Lib
