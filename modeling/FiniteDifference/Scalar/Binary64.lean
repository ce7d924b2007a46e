import FiniteDifference.Scalar
import FiniteDifference.Number.Reading

/-!
# Double-precision scalars

The scalars of the running program.
-/

namespace FiniteDifference

instance : Scalar Float where
  nearest := Binary64.nearest
  toRat? := Binary64.toRat?
  isFinite := Binary64.isFinite
  abs := Float.abs
  lt x y := decide (x < y)
  same x y := x == y
  isPositive := Binary64.isPositive
  power := Binary64.power
  rootPower := Float.pow
  ceilPowerOfTwo? := Binary64.ceilPowerOfTwo?
  read? := Reading.float?
  missing := Binary64.missing

end FiniteDifference
