import FiniteDifference.Cache.Requests
import FiniteDifference.Validation

/-!
# Evaluating a grid

The estimate of a derivative from the samples of a function on the grid of a stencil: the samples are
contracted with the coefficients and divided by the bandwidth to the power of the derivative order.
-/

namespace FiniteDifference

variable [Memory] {α : Type} [Scalar α]

namespace Evaluation

/-- A natural power of a finite number, a fault if it is not finite. -/
def power (x : α) (k : Nat) (fault : Fault α) : Except (Fault α) α := do
  let _ ← Argument.scalarOfInt (α := α) k
  let y := Scalar.power x k
  if Scalar.isFinite x && !Scalar.isFinite y then throw fault
  return y

/-- A quotient, a fault if the divisor is zero. -/
def quotient (x y : α) : Except (Fault α) α :=
  if Scalar.isZero y then .error (.zeroDivision .real) else .ok (x / y)

/-- The divisor of a stencil for a positive bandwidth. -/
def stencilScale (s : Stencil) (h : Positive α) : Except (Fault α) α :=
  power h.val s.order (.tooLarge .power)

/-- The product of powers of positive bandwidths, from left to right. -/
def productScale (acc : α) : List (Positive α × Nat) → Except (Fault α) α
  | [] => .ok acc
  | (h, d) :: rest => do
    let y ← power h.val d (.tooLarge .power)
    productScale (acc * y) rest

/-- The divisor of a tensor stencil for a vector of positive bandwidths. -/
def tensorScale (t : Tensor) (hs : List (Positive α)) : Except (Fault α) α :=
  productScale Scalar.one (hs.zip t.orders)

/-- **Divisors.** The bandwidth to the power of the derivative order, or the product of these powers
over the axes of a tensor stencil. -/
def scale (descriptor bandwidth : Argument α) : Except (Fault α) α :=
  match descriptor with
  | .descriptor (.axis s) => do
    stencilScale s (← Validation.requirePositive bandwidth "bandwidth")
  | .descriptor (.tensor t) => do
    let hs ← Validation.requirePositiveVector bandwidth "bandwidth"
    Validation.checkSize hs.length t.dimension "bandwidth dimension"
    tensorScale t hs
  | a => .error (.invalid (.notScalable a.kindName))

/-- **Contraction.** The sum of the products of coefficients and samples, from left to right.  A single
product is not added to anything, so it keeps the sign of a zero. -/
def contract (coefficients samples : List α) : α :=
  match List.zipWith (· * ·) coefficients samples with
  | [product] => product
  | products => Scalar.sum products

/-- **Evaluating a grid.** -/
def grid (descriptor samples bandwidth : Argument α) : Action α α := do
  let samples ← Action.ofExcept (Validation.requirePresent samples "grid")
  let coefficients ← Cache.coefficients descriptor
  let block ← Action.ofExcept samples.toBlock
  if block.shape.length ≠ 1 then Action.fail (.invalid (.notVector "grid" block.shape))
  Action.ofExcept
    (Validation.checkSize block.entries.length coefficients.length "grid length")
  let divisor ← Action.ofExcept (scale descriptor bandwidth)
  Action.ofExcept (quotient (contract coefficients block.entries) divisor)

end Evaluation

end FiniteDifference
