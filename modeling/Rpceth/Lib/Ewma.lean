import Mathlib.Algebra.Order.Archimedean.Basic
import Mathlib.Data.List.Forall2
import Mathlib.Tactic.Ring

/-! Exponential moving averages: a step keeps the order and the bounds, and samples on one side of a bound
    bring the average to it geometrically. -/

namespace Lib

/-- Not below the least of some samples, and not above the greatest. -/
def Between {K : Type*} [LE K] (samples : List K) (x : K) : Prop := (∃ lo ∈ samples, lo ≤ x) ∧ ∃ hi ∈ samples, x ≤ hi

theorem between_of_mem {K : Type*} [Preorder K] {samples : List K} {x : K} (hx : x ∈ samples) : Between samples x :=
  ⟨⟨x, hx, le_refl x⟩, x, hx, le_refl x⟩

variable {K : Type*} [CommRing K]

/-- The average `x` after the sample `y`, with the smoothing factor `a`. -/
def ewma (a x y : K) : K := (1 - a) * x + a * y

/-- The average after some samples. -/
def ewmas (a x : K) (samples : List K) : K := samples.foldl (ewma a) x

theorem ewma_self (a x : K) : ewma a x x = x := by
  unfold ewma
  ring

variable [LinearOrder K] [IsStrictOrderedRing K] {a x x' y y' b : K} {samples samples' : List K}

theorem ewma_mono (h₀ : 0 ≤ a) (h₁ : a ≤ 1) (hx : x ≤ x') (hy : y ≤ y') : ewma a x y ≤ ewma a x' y' :=
  add_le_add (mul_le_mul_of_nonneg_left hx (sub_nonneg.mpr h₁)) (mul_le_mul_of_nonneg_left hy h₀)

theorem ewma_le (h₀ : 0 ≤ a) (h₁ : a ≤ 1) (hx : x ≤ b) (hy : y ≤ b) : ewma a x y ≤ b :=
  (ewma_mono h₀ h₁ hx hy).trans_eq (ewma_self a b)

theorem le_ewma (h₀ : 0 ≤ a) (h₁ : a ≤ 1) (hx : b ≤ x) (hy : b ≤ y) : b ≤ ewma a x y :=
  (ewma_self a b).symm.trans_le (ewma_mono h₀ h₁ hx hy)

theorem Between.ewma (h : Between samples x) (h₀ : 0 ≤ a) (h₁ : a ≤ 1) (y : K) :
    Between (samples ++ [y]) (ewma a x y) := by
  obtain ⟨⟨lo, hlo, hle⟩, hi, hhi, hge⟩ := h
  have hy : y ∈ samples ++ [y] := List.mem_append_right _ (List.mem_singleton_self y)
  constructor
  · rcases le_total lo y with hly | hyl
    · exact ⟨lo, List.mem_append_left _ hlo, le_ewma h₀ h₁ hle hly⟩
    · exact ⟨y, hy, le_ewma h₀ h₁ (hyl.trans hle) (le_refl y)⟩
  · rcases le_total y hi with hyh | hhy
    · exact ⟨hi, List.mem_append_left _ hhi, ewma_le h₀ h₁ hge hyh⟩
    · exact ⟨y, hy, ewma_le h₀ h₁ (hge.trans hhy) (le_refl y)⟩

theorem ewma_pos (h₀ : 0 ≤ a) (h₁ : a ≤ 1) (hx : 0 < x) (hy : 0 < y) : 0 < ewma a x y :=
  (lt_min hx hy).trans_le (le_ewma h₀ h₁ (min_le_left x y) (min_le_right x y))

/-- A sample that is not above the bound leaves a part of the distance to it. -/
theorem ewma_le_add (h₀ : 0 ≤ a) (h₁ : a ≤ 1) {c : K} (hx : x ≤ b + c) (hy : y ≤ b) :
    ewma a x y ≤ b + (1 - a) * c := by
  refine (ewma_mono h₀ h₁ hx hy).trans_eq ?_
  unfold ewma
  ring

theorem sub_le_ewma (h₀ : 0 ≤ a) (h₁ : a ≤ 1) {c : K} (hx : b - c ≤ x) (hy : b ≤ y) :
    b - (1 - a) * c ≤ ewma a x y := by
  refine le_of_eq_of_le ?_ (ewma_mono h₀ h₁ hx hy)
  unfold ewma
  ring

theorem ewmas_mono (h₀ : 0 ≤ a) (h₁ : a ≤ 1) (hx : x ≤ x') (hs : List.Forall₂ (· ≤ ·) samples samples') :
    ewmas a x samples ≤ ewmas a x' samples' := by
  induction hs generalizing x x' with
  | nil => exact hx
  | cons hy _ ih => exact ih (ewma_mono h₀ h₁ hx hy)

/-- Samples that are not below a bound bring the average to it by the same factor each. -/
theorem sub_le_ewmas (h₀ : 0 ≤ a) (h₁ : a ≤ 1) {c : K} (hx : b - c ≤ x) (hs : ∀ y ∈ samples, b ≤ y) :
    b - (1 - a) ^ samples.length * c ≤ ewmas a x samples := by
  induction samples generalizing x c with
  | nil =>
    rw [List.length_nil, pow_zero, one_mul]
    exact hx
  | cons y samples ih =>
    have hstep := sub_le_ewma h₀ h₁ hx (hs y List.mem_cons_self)
    have hrest := ih hstep fun z hz => hs z (List.mem_cons_of_mem _ hz)
    rw [List.length_cons, pow_succ, mul_assoc]
    exact hrest

/-- What is left of a distance falls below any bound, and stays there. -/
theorem exists_pow_mul_lt {K : Type*} [Field K] [LinearOrder K] [IsStrictOrderedRing K] [Archimedean K] {r ε : K}
    (h₀ : 0 ≤ r) (h₁ : r < 1) (hε : 0 < ε) (c : K) : ∃ N, ∀ n, N ≤ n → r ^ n * c < ε := by
  rcases le_or_gt c 0 with hc | hc
  · exact ⟨0, fun n _ => (mul_nonpos_of_nonneg_of_nonpos (pow_nonneg h₀ n) hc).trans_lt hε⟩
  · obtain ⟨N, hN⟩ := exists_pow_lt_of_lt_one (div_pos hε hc) h₁
    refine ⟨N, fun n hn => (lt_div_iff₀ hc).mp ?_⟩
    exact (pow_le_pow_of_le_one h₀ (le_of_lt h₁) hn).trans_lt hN

end Lib
