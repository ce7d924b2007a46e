import FiniteDifference.Evaluation
import FiniteDifference.Proofs.Argument.Vectors
import FiniteDifference.Proofs.Cache.Lookups

/-!
# Outcomes of grids

On a sound cache the evaluation of a grid of numbers calls no function, and its outcome is that of the
generated coefficients.
-/

open FiniteDifference.Action

namespace FiniteDifference.Evaluation

variable [Memory] {α : Type} [Scalar α]

/-- **The outcome of a grid.** The coefficients are generated, the number of samples and the bandwidth are
checked, and the contraction is divided by the scale. -/
def outcome (d : Descriptor) (samples : List α) (bandwidth : Argument α) : Except (Fault α) α := do
  let coefficients ← Cache.generatedScalars d
  Validation.checkSize samples.length coefficients.length "grid length"
  let divisor ← scale (.descriptor d) bandwidth
  quotient (contract coefficients samples) divisor

/-- A stencil is the key of its coefficients. -/
theorem yields_coefficients_descriptor (d : Descriptor) :
    Yields (Cache.coefficients (.descriptor d) : Action α (List α)) (Cache.generatedScalars d) [] :=
  Cache.yields_coefficients (.descriptor d)

/-- **Evaluating a grid.** Whatever is stored, it has the outcome of the generated coefficients. -/
theorem yields_grid (d : Descriptor) (samples : List α) (bandwidth : Argument α) :
    Yields (grid (.descriptor d) (Argument.ofReals samples) bandwidth)
      (outcome d samples bandwidth) [] := by
  refine Yields.silent_bind (b := Argument.ofReals samples) (Yields.ofExcept _) ?_
  refine Yields.bind_outcome (yields_coefficients_descriptor d) fun coefficients => ?_
  rw [Argument.toBlock_ofReals]
  refine Yields.silent_bind (b := Block.mk [samples.length] samples) (Yields.ofExcept _) ?_
  rw [if_neg (by simp)]
  exact Yields.bind_outcome (Yields.ofExcept _) fun _ =>
    Yields.bind_outcome (Yields.ofExcept _) fun _ => Yields.ofExcept _

end FiniteDifference.Evaluation
