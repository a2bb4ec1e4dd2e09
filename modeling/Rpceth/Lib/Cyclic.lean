import Mathlib.Data.List.Rotate
import Mathlib.Data.Nat.ModEq
import Mathlib.Order.Basic

/-! Scanning a list in cyclic order from a cursor. The cursor moves past every element that is looked at,
    and wraps around at the end of the list. -/

namespace Lib.Cyclic
variable {α : Type}

/-- Look at up to `fuel` elements from `cursor` on, for the first one with `p`. Returns it, if there is
    one, and the cursor after it. -/
def scan (l : List α) (p : α → Bool) : Nat → Nat → Option α × Nat
  | 0, cursor => (none, cursor)
  | fuel + 1, cursor =>
    match l[cursor % l.length]? with
    | some x => if p x then (some x, (cursor + 1) % l.length) else scan l p fuel ((cursor + 1) % l.length)
    | none => scan l p fuel ((cursor + 1) % l.length)

variable {l : List α} {p : α → Bool}

theorem succ_mod_add_mod (n cursor j : Nat) : ((cursor + 1) % n + j) % n = (cursor + (j + 1)) % n := by
  rw [Nat.mod_add_mod]
  congr 1
  omega

/-- The element found is the first one with `p` in cyclic order, and the cursor stands right after it. -/
theorem scan_eq_some {fuel cursor cursor' : Nat} {x : α} (h : scan l p fuel cursor = (some x, cursor')) :
    ∃ j < fuel, l[(cursor + j) % l.length]? = some x ∧ p x = true ∧
      (∀ i < j, ∀ y, l[(cursor + i) % l.length]? = some y → p y = false) ∧
      cursor' = (cursor + j + 1) % l.length := by
  induction fuel generalizing cursor with
  | zero => cases h
  | succ fuel ih =>
    -- The first element is found, or skipped; in the second case the rest is shifted by one.
    have skip : scan l p fuel ((cursor + 1) % l.length) = (some x, cursor') →
        (∀ y, l[cursor % l.length]? = some y → p y = false) →
        ∃ j < fuel + 1, l[(cursor + j) % l.length]? = some x ∧ p x = true ∧
          (∀ i < j, ∀ y, l[(cursor + i) % l.length]? = some y → p y = false) ∧
          cursor' = (cursor + j + 1) % l.length := by
      intro hrest hfirst
      obtain ⟨j, hj, hx, hp, hbefore, hcur⟩ := ih hrest
      refine ⟨j + 1, by omega, succ_mod_add_mod _ _ _ ▸ hx, hp, fun i hi y hy => ?_, ?_⟩
      · cases i with
        | zero => exact hfirst y hy
        | succ i => exact hbefore i (by omega) y (by rwa [succ_mod_add_mod])
      · rw [hcur, Nat.add_assoc, succ_mod_add_mod]
        rfl
    rw [scan] at h
    split at h
    · rename_i y hy
      split at h
      · rename_i hpy
        cases h
        exact ⟨0, by omega, hy, hpy, fun i hi => absurd hi (by omega), rfl⟩
      · rename_i hpy
        refine skip h fun z hz => ?_
        rw [hy] at hz
        cases hz
        exact Bool.eq_false_iff.mpr hpy
    · rename_i hnone
      refine skip h fun z hz => ?_
      rw [hnone] at hz
      cases hz

theorem scan_eq_none {fuel cursor : Nat} (h : (scan l p fuel cursor).1 = none) :
    ∀ i < fuel, ∀ y, l[(cursor + i) % l.length]? = some y → p y = false := by
  induction fuel generalizing cursor with
  | zero => exact fun i hi => absurd hi (by omega)
  | succ fuel ih =>
    have later : (scan l p fuel ((cursor + 1) % l.length)).1 = none →
        (∀ y, l[cursor % l.length]? = some y → p y = false) →
        ∀ i < fuel + 1, ∀ y, l[(cursor + i) % l.length]? = some y → p y = false := by
      intro hrest hfirst i hi y hy
      cases i with
      | zero => exact hfirst y hy
      | succ i => exact ih hrest i (by omega) y (by rwa [succ_mod_add_mod])
    rw [scan] at h
    split at h
    · rename_i y hy
      split at h
      · cases h
      · rename_i hpy
        refine later h fun z hz => ?_
        rw [hy] at hz
        cases hz
        exact Bool.eq_false_iff.mpr hpy
    · rename_i hnone
      refine later h fun z hz => ?_
      rw [hnone] at hz
      cases hz

/-- How many steps index `i` is ahead of the cursor in a cycle of length `n`. -/
def ahead (n cursor i : Nat) : Nat := (i + (n - cursor % n)) % n

theorem ahead_lt {n : Nat} (hn : 0 < n) (cursor i : Nat) : ahead n cursor i < n := Nat.mod_lt _ hn

theorem add_ahead {n : Nat} (cursor : Nat) {i : Nat} (hi : i < n) : (cursor + ahead n cursor i) % n = i := by
  have hlt := Nat.mod_lt cursor (Nat.zero_lt_of_lt hi)
  rw [ahead, Nat.add_mod_mod, ← Nat.mod_add_mod]
  have : cursor % n + (i + (n - cursor % n)) = i + n := by omega
  rw [this, Nat.add_mod_right, Nat.mod_eq_of_lt hi]

theorem ahead_eq {n cursor d i : Nat} (hd : d < n) (h : (cursor + d) % n = i) : ahead n cursor i = d := by
  have hn := Nat.zero_lt_of_lt hd
  have hi : i < n := h ▸ Nat.mod_lt _ hn
  have hmod : cursor + ahead n cursor i ≡ cursor + d [MOD n] := (add_ahead cursor hi).trans h.symm
  exact Nat.ModEq.eq_of_lt_of_lt (Nat.ModEq.add_left_cancel' cursor hmod) (ahead_lt hn cursor i) hd

theorem scan_round_isSome {x : α} (hx : x ∈ l) (hp : p x = true) (cursor : Nat) :
    ((scan l p l.length cursor).1).isSome := by
  obtain ⟨i, hi, rfl⟩ := List.mem_iff_getElem.mp hx
  cases h : (scan l p l.length cursor).1 with
  | some y => rfl
  | none =>
    have hget : l[(cursor + ahead l.length cursor i) % l.length]? = some l[i] := by
      rw [add_ahead cursor hi, List.getElem?_eq_getElem hi]
    have hfalse := scan_eq_none h _ (ahead_lt (Nat.zero_lt_of_lt hi) cursor i) _ hget
    rw [hp] at hfalse
    cases hfalse

/-! ### Rounds -/

/-- A scan over a full round returns the element at `i`, if this has `p`, or brings the cursor closer to it. -/
theorem scan_approaches {i : Nat} (hi : i < l.length) (hp : p l[i] = true) (cursor : Nat) :
    ∃ x cursor', scan l p l.length cursor = (some x, cursor') ∧
      (x = l[i] ∨ ahead l.length cursor' i < ahead l.length cursor i) := by
  obtain ⟨x, hx⟩ := Option.isSome_iff_exists.mp (scan_round_isSome (List.getElem_mem hi) hp cursor)
  have hlt := ahead_lt (Nat.zero_lt_of_lt hi) cursor i
  have hget : l[(cursor + ahead l.length cursor i) % l.length]? = some l[i] := by
    rw [add_ahead cursor hi, List.getElem?_eq_getElem hi]
  have hscan : scan l p l.length cursor = (some x, (scan l p l.length cursor).2) := Prod.ext hx rfl
  generalize (scan l p l.length cursor).2 = cursor' at hscan
  obtain ⟨j, -, hj, -, hbefore, hcursor⟩ := scan_eq_some hscan
  refine ⟨x, cursor', hscan, ?_⟩
  rcases Nat.lt_trichotomy j (ahead l.length cursor i) with hjlt | heq | hgt
  -- What is found before `i` is skipped by the cursor, which then has a part of the way left.
  · right
    have hrest : ahead l.length cursor' i = ahead l.length cursor i - (j + 1) := by
      refine ahead_eq (by omega) ?_
      rw [hcursor, Nat.mod_add_mod]
      have : cursor + j + 1 + (ahead l.length cursor i - (j + 1)) = cursor + ahead l.length cursor i := by omega
      rw [this, add_ahead cursor hi]
    omega
  · left
    rw [heq, hget] at hj
    exact (Option.some.inj hj).symm
  · have hfalse := hbefore _ hgt _ hget
    rw [hp] at hfalse
    cases hfalse

/-- Scans over a full round one after the other, each from the cursor that the one before it left. -/
def scans (l : List α) : Nat → List (α → Bool) → List (Option α)
  | _, [] => []
  | cursor, p :: ps => (scan l p l.length cursor).1 :: scans l (scan l p l.length cursor).2 ps

theorem mem_scans {ps : List (α → Bool)} {cursor i : Nat} (hi : i < l.length) (hps : ∀ p ∈ ps, p l[i] = true)
    (hmany : ahead l.length cursor i < ps.length) : some l[i] ∈ scans l cursor ps := by
  induction ps generalizing cursor with
  | nil => exact absurd hmany (Nat.not_lt_zero _)
  | cons p ps ih =>
    obtain ⟨x, cursor', hscan, hfound | hcloser⟩ := scan_approaches hi (hps p List.mem_cons_self) cursor
    · rw [scans, hscan, hfound]
      exact List.mem_cons_self
    · rw [scans, hscan]
      rw [List.length_cons] at hmany
      have hmany' : ahead l.length cursor' i < ps.length := by omega
      exact List.mem_cons_of_mem _ (ih (fun q hq => hps q (List.mem_cons_of_mem _ hq)) hmany')

/-! ### Rotation -/

/-- A scan takes the first element with `p` from the front of the cyclic order, and leaves it at the back. -/
theorem scan_rotates {cursor cursor' : Nat} {x : α} (h : scan l p l.length cursor = (some x, cursor')) :
    ∃ rest, (l.rotate cursor).filter p = x :: rest ∧ (l.rotate cursor').filter p = rest ++ [x] := by
  obtain ⟨j, hj, hget, hp, hbefore, hcursor⟩ := scan_eq_some h
  have hlen : j < (l.rotate cursor).length := by rwa [List.length_rotate]
  have hx : (l.rotate cursor)[j] = x := by
    have hget' := List.getElem?_rotate (n := cursor) hj
    rw [Nat.add_comm, hget, List.getElem?_eq_getElem hlen] at hget'
    exact Option.some.inj hget'
  have hskipped : ((l.rotate cursor).take j).filter p = [] := by
    refine List.filter_eq_nil_iff.mpr fun y hy => ?_
    obtain ⟨i, hi, rfl⟩ := List.mem_take_iff_getElem.mp hy
    have hij : i < j := Nat.lt_of_lt_of_le hi (Nat.min_le_left _ _)
    have hget' := List.getElem?_rotate (n := cursor) (Nat.lt_trans hij hj)
    rw [Nat.add_comm, List.getElem?_eq_getElem (Nat.lt_trans hij hlen)] at hget'
    rw [hbefore i hij _ hget'.symm]
    exact Bool.false_ne_true
  have htake : ((l.rotate cursor).take (j + 1)).filter p = [x] := by
    rw [List.take_succ_eq_append_getElem hlen, List.filter_append, hskipped, hx, List.filter_cons_of_pos hp]
    rfl
  refine ⟨((l.rotate cursor).drop (j + 1)).filter p, ?_, ?_⟩
  · rw [← List.take_append_drop (j + 1) (l.rotate cursor), List.filter_append, htake, List.take_append_drop]
    rfl
  · rw [hcursor, List.rotate_mod, Nat.add_assoc, ← List.rotate_rotate, List.rotate_eq_drop_append_take hlen,
      List.filter_append, htake]

/-- What stands in front of the cyclic order is returned first, and then stands at its back. -/
theorem scans_prefix {t u : List α} {cursor : Nat} (h : (l.rotate cursor).filter p = t ++ u) (ps : List (α → Bool)) :
    ∃ cursor', (l.rotate cursor').filter p = u ++ t ∧
      scans l cursor (List.replicate t.length p ++ ps) = t.map some ++ scans l cursor' ps := by
  induction t generalizing u cursor with
  | nil =>
    refine ⟨cursor, ?_, rfl⟩
    rw [h, List.append_nil]
    rfl
  | cons x t ih =>
    have hx : x ∈ (l.rotate cursor).filter p := h ▸ List.mem_cons_self
    obtain ⟨hmem, hp⟩ := List.mem_filter.mp hx
    obtain ⟨y, hy⟩ := Option.isSome_iff_exists.mp (scan_round_isSome (List.mem_rotate.mp hmem) hp cursor)
    obtain ⟨rest, hfront, hback⟩ := scan_rotates (Prod.ext hy rfl)
    rw [h, List.cons_append] at hfront
    obtain ⟨rfl, rfl⟩ := List.cons.inj hfront
    rw [List.append_assoc] at hback
    obtain ⟨cursor', horder, hscans⟩ := ih hback
    refine ⟨cursor', ?_, ?_⟩
    · rw [horder, List.append_assoc]
      rfl
    · rw [List.length_cons, List.replicate_succ, List.cons_append, scans, hy, hscans]
      rfl

/-- As many scans as there are elements with `p` return them once in cyclic order from the cursor, and so do the
    next ones, over and over. -/
theorem scans_rotate {order : List α} {cursor : Nat} (h : (l.rotate cursor).filter p = order) (m : Nat) :
    scans l cursor (List.replicate (m * order.length) p) = (List.replicate m (order.map some)).flatten := by
  induction m generalizing cursor with
  | zero =>
    rw [Nat.zero_mul]
    rfl
  | succ m ih =>
    rw [← List.append_nil order] at h
    obtain ⟨cursor', horder, hscans⟩ := scans_prefix h (List.replicate (m * order.length) p)
    rw [Nat.succ_mul, Nat.add_comm, List.replicate_add, hscans, ih horder]
    rfl

end Lib.Cyclic
