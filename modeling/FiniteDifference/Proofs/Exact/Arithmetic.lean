import FiniteDifference.Proofs.Evaluation.Outcome
import FiniteDifference.Scalar.Exact
import FiniteDifference.Workers
import Mathlib.Algebra.BigOperators.Group.List.Basic
import Mathlib.Algebra.Order.Field.Rat

/-!
# Exact arithmetic

With rational numbers as scalars nothing is rounded and nothing overflows: contractions are sums,
quotients by nonzero numbers are those of the rational numbers, and any request for workers is met.
-/

namespace FiniteDifference

/-- **Fractional powers.** The function that stands for the powers with a fractional exponent in exact
arithmetic. -/
class FractionalPower where
  rootPower : ℚ → ℚ → ℚ

/-- Rational numbers are scalars once their fractional powers are given. -/
instance Exact.scalar [FractionalPower] : Scalar ℚ := Scalar.exact FractionalPower.rootPower

namespace Exact

variable [FractionalPower]

/-! ## Numbers -/

/-- A positive rational number is a checked one. -/
def positive (h : ℚ) (hh : 0 < h) : Positive ℚ := ⟨h, decide_eq_true hh⟩

/-- The checked number one. -/
def unit : Positive ℚ := positive 1 (by decide)

/-- A list of positive rational numbers is a list of checked ones. -/
theorem exists_positives {hs : List ℚ} (hpos : ∀ h ∈ hs, 0 < h) :
    ∃ ps : List (Positive ℚ), ps.map (·.val) = hs := by
  induction hs with
  | nil => exact ⟨[], rfl⟩
  | cons h hs ih =>
    rw [List.forall_mem_cons] at hpos
    obtain ⟨ps, rfl⟩ := ih hpos.2
    exact ⟨positive h hpos.1 :: ps, rfl⟩

theorem forall_val_pos (ps : List (Positive ℚ)) : ∀ h ∈ ps.map (·.val), 0 < h := by
  intro h hh
  obtain ⟨p, -, rfl⟩ := List.mem_map.mp hh
  exact of_decide_eq_true p.isPositive

theorem requirePositive_real {h : ℚ} (hh : 0 < h) (name : String) :
    Validation.requirePositive (.real h) name = .ok (positive h hh) :=
  dif_pos (decide_eq_true hh)

theorem quotient_eq (x : ℚ) {y : ℚ} (hy : y ≠ 0) : Evaluation.quotient x y = .ok (x / y) :=
  if_neg fun h => hy (of_decide_eq_true h)

/-! ## Lists -/

theorem sum_eq (xs : List ℚ) : Scalar.sum xs = xs.sum := List.sum_eq_foldl.symm

/-- **Contraction.** The contraction is the sum of the products. -/
theorem contract_eq (coefficients samples : List ℚ) :
    Evaluation.contract coefficients samples
      = (List.zipWith (· * ·) coefficients samples).sum := by
  unfold Evaluation.contract
  split
  · next product heq => exact (List.sum_singleton.symm.trans (congrArg List.sum heq.symm))
  · exact sum_eq _

/-- Exact coefficients are not rounded. -/
theorem generatedScalars_eq [Memory] (d : Descriptor) :
    (Cache.generatedScalars d : Except (Fault ℚ) (List ℚ)) = d.generated := by
  have hnearest : ∀ xs : List ℚ, xs.map Scalar.nearest = xs := List.map_id
  rw [Cache.generatedScalars, funext hnearest]
  cases (d.generated : Except (Fault ℚ) (List ℚ)) <;> rfl

/-! ## Grids -/

/-- **The outcome of a grid.** If the coefficients are found and the divisor is not zero, it is the sum of
the products of coefficients and samples over the divisor. -/
theorem outcome_eq_ok [Memory] {d : Descriptor} {coefficients samples : List ℚ} {bandwidth : Argument ℚ}
    {divisor : ℚ} (hgen : (d.generated : Except (Fault ℚ) (List ℚ)) = .ok coefficients)
    (hlen : samples.length = coefficients.length)
    (hscale : Evaluation.scale (.descriptor d) bandwidth = .ok divisor) (hne : divisor ≠ 0) :
    Evaluation.outcome d samples bandwidth
      = .ok ((List.zipWith (· * ·) coefficients samples).sum / divisor) := by
  rw [Evaluation.outcome, generatedScalars_eq, hgen]
  show (Validation.checkSize samples.length coefficients.length "grid length" >>= _) = _
  rw [Validation.checkSize, if_pos hlen]
  show (Evaluation.scale (.descriptor d) bandwidth >>= _) = _
  rw [hscale]
  show Evaluation.quotient (Evaluation.contract coefficients samples) divisor = _
  rw [quotient_eq _ hne, contract_eq]

/-! ## Workers -/

/-- Any request for workers is met by some number of them. -/
theorem exists_resolve (machine : Machine) (request : Argument ℚ) (tasks : ℤ) :
    ∃ workers, Workers.resolve machine request tasks = .ok workers := by
  cases request <;> exact ⟨_, rfl⟩

end Exact

end FiniteDifference
