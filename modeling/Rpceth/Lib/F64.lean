import Mathlib.Data.Rat.Defs
import Mathlib.Algebra.Order.Ring.Rat
import Mathlib.Algebra.Order.Ring.Unbundled.Rat
import Mathlib.Tactic.Linarith

/-! Double precision numbers as rationals with a NaN and the two infinities. The comparisons and the
    special values are those of IEEE 754; the finite arithmetic is exact, without rounding or overflow. -/

namespace Lib

inductive F64 where
  | nan
  | inf (negative : Bool)
  | fin (q : Rat)
  deriving DecidableEq, Repr

namespace F64

/-- `a <= b`; a NaN compares with nothing. -/
def le : F64 → F64 → Bool
  | nan, _ | _, nan => false
  | inf true, _ | _, inf false => true
  | inf false, _ | _, inf true => false
  | fin a, fin b => decide (a ≤ b)

/-- `(lo..=hi).contains(&x)` for finite bounds. -/
def contains (lo hi : Rat) (x : F64) : Bool := le (fin lo) x && le x (fin hi)

/-- The sign of a product that has an infinite factor; with a zero factor there is none. -/
def infMul (negative : Bool) (q : Rat) : F64 :=
  if q = 0 then nan else inf (negative != decide (q < 0))

def mul : F64 → F64 → F64
  | nan, _ | _, nan => nan
  | inf a, inf b => inf (a != b)
  | inf a, fin q | fin q, inf a => infMul a q
  | fin a, fin b => fin (a * b)

/-- `f64::max`: a NaN operand is ignored. -/
def max : F64 → F64 → F64
  | nan, b => b
  | a, nan => a
  | a, b => if le a b then b else a

@[simp] theorem le_fin (a b : Rat) : le (fin a) (fin b) = decide (a ≤ b) := rfl

@[simp] theorem mul_fin (a b : Rat) : mul (fin a) (fin b) = fin (a * b) := rfl

@[simp] theorem max_fin (a b : Rat) : max (fin a) (fin b) = fin (Max.max a b) := by
  simp only [max, le_fin, decide_eq_true_eq, max_def]
  split <;> rfl

theorem contains_iff {lo hi : Rat} {x : F64} : contains lo hi x = true ↔ ∃ q, x = fin q ∧ lo ≤ q ∧ q ≤ hi := by
  cases x with
  | nan => simp [contains, le]
  | inf negative => cases negative <;> simp [contains, le]
  | fin q => simp [contains]

/-- A finite number that is no less than `lo`. -/
def finiteFrom (lo : Rat) : F64 → Bool
  | fin q => decide (lo ≤ q)
  | _ => false

theorem finiteFrom_iff {lo : Rat} {x : F64} : finiteFrom lo x = true ↔ ∃ q, x = fin q ∧ lo ≤ q := by
  cases x <;> simp [finiteFrom]

end F64
end Lib
