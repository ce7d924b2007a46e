import FiniteDifference.Validation

/-!
# Quantities

Sums and products of numbers of mixed kinds.  Integers stay integers, an integer with a fraction
makes a fraction, and whatever meets a scalar becomes one.
-/

namespace FiniteDifference

/-- **Quantities.** An exact whole number, an exact fraction or a scalar. -/
inductive Quantity (α : Type) where
  | int (i : Int)
  | fraction (q : Rat)
  | real (x : α)

namespace Quantity

variable {α : Type}

/-- The quantity of an argument that is a real number. -/
def ofArgument? : Argument α → Option (Quantity α)
  | .bool b => some (.int (if b then 1 else 0))
  | .int i => some (.int i)
  | .real x => some (.real x)
  | .fraction q => some (.fraction q)
  | _ => none

/-- A quantity as an argument. -/
def toArgument : Quantity α → Argument α
  | .int i => .int i
  | .fraction q => .fraction q
  | .real x => .real x

variable [Scalar α]

/-- The exact value of a quantity, none if it is not finite. -/
def rational? : Quantity α → Option Rat
  | .int i => some i
  | .fraction q => some q
  | .real x => Scalar.toRat? x

/-- A quantity as a scalar. -/
def toScalar (a : Quantity α) : Except (Fault α) α := a.toArgument.toScalar

/-- An operation on quantities from the operation on integers, on fractions and on scalars. -/
def combine (ints : Int → Int → Int) (fractions : Rat → Rat → Rat) (scalars : α → α → α) :
    Quantity α → Quantity α → Except (Fault α) (Quantity α)
  | .int i, .int j => .ok (.int (ints i j))
  | .int i, .fraction q => .ok (.fraction (fractions i q))
  | .fraction p, .int j => .ok (.fraction (fractions p j))
  | .fraction p, .fraction q => .ok (.fraction (fractions p q))
  | a, b => do return .real (scalars (← a.toScalar) (← b.toScalar))

/-- The sum of two quantities. -/
def add : Quantity α → Quantity α → Except (Fault α) (Quantity α) :=
  combine (· + ·) (· + ·) (· + ·)

/-- The product of two quantities. -/
def mul : Quantity α → Quantity α → Except (Fault α) (Quantity α) :=
  combine (· * ·) (· * ·) (· * ·)

/-- The place of a quantity among the infinities: a finite one stands for zero there. -/
def atInfinity : Quantity α → α
  | .real x => if Scalar.isFinite x then Scalar.zero else x
  | _ => Scalar.zero

/-- **Order.** Whether a quantity is less than another; a missing number is less than none and greater
than none. -/
def lt (a b : Quantity α) : Bool :=
  match a.rational?, b.rational? with
  | some p, some q => decide (p < q)
  | _, _ => Scalar.lt a.atInfinity b.atInfinity

/-- Whether a quantity is at least zero and below a bound. -/
def isIndexBelow (a : Quantity α) (bound : Nat) : Bool :=
  match a.rational? with
  | some q => decide (0 ≤ q) && decide (q < (bound : Rat))
  | none => false

end Quantity

end FiniteDifference
