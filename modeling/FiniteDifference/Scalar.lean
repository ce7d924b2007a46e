/-!
# Scalars

The library computes with one type of real numbers, given by the class `Scalar`.  The running
program takes double-precision numbers; in exact arithmetic the same definitions are about rational
or real numbers, where `nearest` changes nothing and no operation overflows.
-/

namespace FiniteDifference

/-- **Scalars.** A type of numbers with its arithmetic, its rounding of rational numbers and the
tests that the library makes on numbers. -/
class Scalar (α : Type) extends Add α, Sub α, Mul α, Div α, Neg α where
  /-- The number nearest to a rational one. -/
  nearest : Rat → α
  /-- The rational value of a number, if it has one. -/
  toRat? : α → Option Rat
  /-- Whether a number is finite. -/
  isFinite : α → Bool
  /-- The absolute value. -/
  abs : α → α
  /-- The strict order of the numbers; a missing number is not ordered. -/
  lt : α → α → Bool
  /-- Equality of numbers; a missing number does not equal itself. -/
  same : α → α → Bool
  /-- Whether a number is finite and above zero. -/
  isPositive : α → Bool
  /-- Natural powers. -/
  power : α → Nat → α
  /-- Powers with a fractional exponent, for a base that is not zero. -/
  rootPower : α → α → α
  /-- The least power of two that is at least a given positive number. -/
  ceilPowerOfTwo? : α → Option α
  /-- The number that a text writes. -/
  read? : String → Option α
  /-- The number that stands for a missing value. -/
  missing : α

namespace Scalar

variable {α : Type} [Scalar α]

/-- Zero. -/
def zero : α := nearest 0

/-- One. -/
def one : α := nearest 1

/-- Whether a number is zero. -/
def isZero (x : α) : Bool := same x zero

/-- Whether a number is the missing one. -/
def isMissing (x : α) : Bool := !same x x

/-- Whether a rational number lies in the range of the scalars. -/
def fits (q : Rat) : Bool := isFinite (nearest q : α)

/-- **Machine epsilon.** The distance from one to the next double. -/
def epsilon : α := nearest (1 / 4503599627370496)

/-- The sum of the numbers of a list from left to right. -/
def sum (xs : List α) : α := xs.foldl (· + ·) zero

/-- The greater of one and a number, one if the number is missing. -/
def atLeastOne (x : α) : α := if lt one x then x else one

end Scalar

end FiniteDifference
