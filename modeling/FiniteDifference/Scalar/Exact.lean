import FiniteDifference.Scalar
import FiniteDifference.Number.Binary64

/-!
# Exact scalars

Rational arithmetic with one fixed function for the powers with a fractional exponent, which rational
numbers lack.
-/

namespace FiniteDifference

/-- The least power of two that is at least a positive rational number. -/
def leastPowerOfTwo (q : Rat) : Rat :=
  let k : Int := (Nat.log2 q.num.natAbs : Int) - (Nat.log2 q.den : Int)
  if q ≤ Binary64.dyadic 1 (k - 1) then Binary64.dyadic 1 (k - 1)
  else if q ≤ Binary64.dyadic 1 k then Binary64.dyadic 1 k
  else Binary64.dyadic 1 (k + 1)

/-- **Exact arithmetic.** The rational numbers as scalars; `root` is the power function. -/
@[reducible] def Scalar.exact (root : Rat → Rat → Rat) : Scalar Rat where
  nearest q := q
  toRat? q := some q
  isFinite _ := true
  abs := Rat.abs
  lt x y := decide (x < y)
  same x y := decide (x = y)
  isPositive x := decide (0 < x)
  power x k := x ^ k
  rootPower := root
  ceilPowerOfTwo? x := some (leastPowerOfTwo x)
  read? _ := none
  missing := 0

end FiniteDifference
