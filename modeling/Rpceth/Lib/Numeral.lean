import Mathlib.Data.List.Forall2
import Mathlib.Data.Nat.Digits.Defs

/-! Numerals: the number that a list of digits denotes, and reading one below a bound. -/

namespace Lib
variable {α : Type*} {digit : α → Option Nat} {b bound acc n : Nat} {l : List α}

/-- All characters are digits, the most significant first, and their number in base `b` is `n`. -/
def Denotes (digit : α → Option Nat) (b : Nat) (l : List α) (n : Nat) : Prop :=
  ∃ ds, List.Forall₂ (fun c d => digit c = some d) l ds ∧ Nat.ofDigits b ds.reverse = n

theorem Denotes.unique {m : Nat} (h : Denotes digit b l m) (h' : Denotes digit b l n) : m = n := by
  obtain ⟨ds, hds, rfl⟩ := h
  obtain ⟨ds', hds', rfl⟩ := h'
  have heq : ds = ds' := List.right_unique_forall₂' (fun _ _ _ hd hd' => Option.some.inj (hd.symm.trans hd')) hds hds'
  rw [heq]

theorem exists_denotes_iff : (∃ n, Denotes digit b l n) ↔ ∀ c ∈ l, digit c ≠ none := by
  constructor
  · rintro ⟨n, ds, hds, -⟩ c hc hnone
    obtain ⟨i, hi, rfl⟩ := List.mem_iff_getElem.mp hc
    have hd := hds.get hi (hds.length_eq ▸ hi)
    rw [List.get_eq_getElem, hnone] at hd
    cases hd
  · intro h
    induction l with
    | nil => exact ⟨_, [], .nil, rfl⟩
    | cons c l ih =>
      obtain ⟨d, hd⟩ := Option.ne_none_iff_exists'.mp (h c List.mem_cons_self)
      obtain ⟨-, ds, hds, -⟩ := ih fun c' hc' => h c' (List.mem_cons_of_mem _ hc')
      exact ⟨_, d :: ds, .cons hd hds, rfl⟩

/-- Reads the digits into `acc`, and stops at what is no digit or at the first number that reaches the bound. -/
def readDigits (digit : α → Option Nat) (b bound : Nat) (acc : Nat) : List α → Option Nat
  | [] => some acc
  | c :: l => (digit c).bind fun d =>
    if acc * b + d < bound then readDigits digit b bound (acc * b + d) l else none

theorem readDigits_acc_iff (hb : 0 < b) (hacc : acc < bound) : readDigits digit b bound acc l = some n ↔
    n < bound ∧ ∃ ds, List.Forall₂ (fun c d => digit c = some d) l ds ∧
      acc * b ^ ds.length + Nat.ofDigits b ds.reverse = n := by
  induction l generalizing acc with
  | nil =>
    simp only [readDigits, Option.some.injEq, List.forall₂_nil_left_iff, exists_eq_left, List.length_nil, pow_zero,
      mul_one, List.reverse_nil, Nat.ofDigits_nil, add_zero]
    constructor
    · rintro rfl
      exact ⟨hacc, rfl⟩
    · rintro ⟨-, h⟩
      exact h
  | cons c l ih =>
    -- A number that is read further does not get smaller, so none of the prefixes reaches the bound.
    have hshift : ∀ (d : Nat) (ds : List Nat), acc * b ^ (d :: ds).length + Nat.ofDigits b (d :: ds).reverse =
        (acc * b + d) * b ^ ds.length + Nat.ofDigits b ds.reverse := by
      intro d ds
      rw [Nat.ofDigits_reverse_cons, List.length_cons, pow_succ]
      ring
    simp only [readDigits, Option.bind_eq_some_iff, Option.ite_none_right_eq_some]
    constructor
    · rintro ⟨d, hd, hlt, hrest⟩
      obtain ⟨hn, ds, hds, heq⟩ := (ih hlt).mp hrest
      exact ⟨hn, d :: ds, .cons hd hds, (hshift d ds).trans heq⟩
    · rintro ⟨hn, ds', hds', heq⟩
      obtain ⟨d, ds, hd, hds, rfl⟩ := List.forall₂_cons_left_iff.mp hds'
      rw [hshift] at heq
      have hle : acc * b + d ≤ (acc * b + d) * b ^ ds.length := Nat.le_mul_of_pos_right _ (Nat.pow_pos hb)
      have hlt : acc * b + d < bound := by omega
      exact ⟨d, hd, hlt, (ih hlt).mpr ⟨hn, ds, hds, heq⟩⟩

/-- What is read is the number that the digits denote, if it is below the bound. -/
theorem readDigits_iff (hb : 0 < b) (hbound : 0 < bound) :
    readDigits digit b bound 0 l = some n ↔ n < bound ∧ Denotes digit b l n := by
  rw [readDigits_acc_iff hb hbound]
  simp only [Denotes, zero_mul, zero_add]

end Lib
