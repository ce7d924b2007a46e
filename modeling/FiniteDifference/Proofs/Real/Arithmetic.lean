import Mathlib.Analysis.SpecialFunctions.Pow.Real
import Mathlib.Data.Int.Log
import FiniteDifference.Evaluation
import FiniteDifference.Quantity

/-!
# Real arithmetic

The real numbers as scalars.  Nothing is rounded and nothing overflows, as with the rational numbers, and
the powers with a fractional exponent are the exact ones.
-/

namespace FiniteDifference

open scoped Classical in
/-- **Real scalars.** Every rational number is a real one, every real number is finite, and no text is
read. -/
noncomputable instance Real.scalar : Scalar ℝ where
  nearest q := q
  toRat? x := if h : ∃ q : ℚ, (q : ℝ) = x then some h.choose else none
  isFinite _ := true
  abs x := |x|
  lt x y := decide (x < y)
  same x y := decide (x = y)
  isPositive x := decide (0 < x)
  power x k := x ^ k
  rootPower x y := x ^ y
  ceilPowerOfTwo? x := some ((2 : ℚ) ^ Int.clog 2 x : ℚ)
  read? _ := none
  missing := 0

namespace Real

/-! ## Numbers -/

theorem isZero_eq_false {x : ℝ} (hx : x ≠ 0) : Scalar.isZero x = false :=
  decide_eq_false fun h => hx (h.trans Rat.cast_zero)

theorem quotient_eq (x : ℝ) {y : ℝ} (hy : y ≠ 0) : Evaluation.quotient x y = .ok (x / y) := by
  rw [Evaluation.quotient, isZero_eq_false hy]
  rfl

end Real

/-! ## Quantities -/

namespace Quantity

/-- The real number that a quantity is. -/
def value : Quantity ℝ → ℝ
  | .int i => i
  | .fraction q => q
  | .real x => x

theorem toScalar_eq (a : Quantity ℝ) : a.toScalar = .ok a.value := by
  cases a with
  | int i => exact congrArg Except.ok (Rat.cast_intCast i)
  | fraction q => rfl
  | real x => rfl

/-- **Products.** The value of a product is the product of the values, whatever the kinds are. -/
theorem exists_mul_eq (a b : Quantity ℝ) : ∃ c, a.mul b = .ok c ∧ c.value = a.value * b.value := by
  have hscalars : ∀ a b : Quantity ℝ,
      (do return .real ((← a.toScalar) * (← b.toScalar)) : Except (Fault ℝ) (Quantity ℝ))
        = .ok (.real (a.value * b.value)) := by
    intro a b
    rw [toScalar_eq, toScalar_eq]
    rfl
  match a, b with
  | .int i, .int j => exact ⟨_, rfl, Int.cast_mul i j⟩
  | .int i, .fraction q => exact ⟨_, rfl, (Rat.cast_mul _ q).trans (by rw [Rat.cast_intCast]; rfl)⟩
  | .fraction p, .int j => exact ⟨_, rfl, (Rat.cast_mul p _).trans (by rw [Rat.cast_intCast]; rfl)⟩
  | .fraction p, .fraction q => exact ⟨_, rfl, Rat.cast_mul p q⟩
  | .int i, .real y => exact ⟨_, hscalars (.int i) (.real y), rfl⟩
  | .fraction p, .real y => exact ⟨_, hscalars (.fraction p) (.real y), rfl⟩
  | .real x, b => exact ⟨_, hscalars (.real x) b, rfl⟩

end Quantity

end FiniteDifference
