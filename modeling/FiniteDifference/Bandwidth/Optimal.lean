import FiniteDifference.Evaluation
import FiniteDifference.Quantity

/-!
# Optimal bandwidths

The bandwidth that balances the truncation error of a stencil against the condition and round-off
errors of the samples.
-/

namespace FiniteDifference.Optimal

variable {α : Type} [Scalar α]

/-- A power with any exponent: a zero base has no finite negative powers, and a power that leaves the
range of the scalars is a fault. -/
def root (base exponent : α) : Except (Fault α) α :=
  if Scalar.isZero base && Scalar.lt exponent Scalar.zero && Scalar.isFinite exponent then
    .error (.zeroDivision .negativePower)
  else
    let y := Scalar.rootPower base exponent
    if Scalar.isFinite base && Scalar.isFinite exponent && !Scalar.isFinite y
        && !Scalar.isMissing y then
      .error (.tooLarge .power)
    else .ok y

/-- The balance of a truncation error against the sum of a condition and a round-off error. -/
def balance (ratio scale condition roundOff total : α) : Except (Fault α) α := do
  root (ratio * scale * (condition + roundOff)) (← Evaluation.quotient Scalar.one total)

/-- Half the machine epsilon times a magnitude. -/
def roundOff (size : α) : α := Scalar.epsilon * size / Scalar.nearest 2

/-- **Optimal bandwidth.** With derivative order `d` and error order `n`, the root of order `n + d` of
`d / n * scale * (epsilon * size + roundOff size)`, where `size` is the magnitude of the samples times
the norm of the stencil. -/
def bandwidth (d n scale epsilon norm magnitude : α) : Except (Fault α) α := do
  let size := magnitude * norm
  balance (← Evaluation.quotient d n) scale (epsilon * size) (roundOff size) (n + d)

/-- The optimal bandwidth for a stencil. -/
def ofStencil (s : Stencil) (scale epsilon norm magnitude : α) : Except (Fault α) α := do
  let d ← Argument.scalarOfInt s.order
  let n ← Argument.scalarOfInt s.accuracy
  bandwidth d n scale epsilon norm magnitude

/-- The optimal bandwidth for orders of any kind and quantities that may be exact: products of exact
quantities are exact. -/
def ofArguments (order accuracy : Argument α) (scale epsilon norm magnitude : Quantity α) :
    Except (Fault α) α := do
  let d ← order.toScalar
  let n ← accuracy.toScalar
  let size ← magnitude.mul norm
  let ratio ← Evaluation.quotient d n
  let scale ← scale.toScalar
  let condition ← epsilon.mul size
  let size ← size.toScalar
  balance ratio scale (← condition.toScalar) (roundOff size) (n + d)

end FiniteDifference.Optimal
