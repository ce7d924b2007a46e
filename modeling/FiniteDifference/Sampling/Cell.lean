import FiniteDifference.Argument.Nested

/-!
# Cells

An array that is made of nothing among its numbers keeps its entries as they were given.  A number of its
own and a number that was taken out of an array stay apart in it: the first has faults where the second
has infinities.
-/

namespace FiniteDifference

variable {α : Type}

/-- **Cells.** The entries of a mixed array. -/
inductive Cell (α : Type) where
  | absent
  | number (x : α)
  /-- A number taken out of an array. -/
  | entry (x : α)

namespace Cell

/-- The number of a cell, none if it holds nothing. -/
def value? : Cell α → Option α
  | .absent => none
  | .number x => some x
  | .entry x => some x

/-- A cell as an argument. -/
def toArgument (c : Cell α) : Argument α :=
  match c.value? with
  | some x => .real x
  | none => .absent

/-- The name of the kind of a cell. -/
def kindName (c : Cell α) : String := c.toArgument.kindName

end Cell

end FiniteDifference
