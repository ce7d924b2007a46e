import FiniteDifference.Fault.Basic

/-!
# Numbers and arrays of numbers

How arguments become scalars and arrays of scalars.
-/

namespace FiniteDifference

variable {α : Type}

/-- **Blocks.** An array of numbers: its axis lengths and its entries in row-major order.  A single
number is a block without axes. -/
structure Block (α : Type) where
  shape : List Nat
  entries : List α

/-- The part of the shape of nested lists that holds for all of them, and whether they disagree
below it. -/
structure Extent where
  shape : List Nat
  uneven : Bool
  deriving DecidableEq

namespace Extent

/-- The axes on which two shapes agree, from the first on. -/
def agreement : List Nat → List Nat → List Nat
  | m :: ms, n :: ns => if m = n then m :: agreement ms ns else []
  | _, _ => []

/-- What two neighbouring elements have in common. -/
def join (a b : Extent) : Extent :=
  ⟨agreement a.shape b.shape, a.uneven || b.uneven || a.shape != b.shape⟩

/-- The greatest number of axes of an array. -/
def axisLimit : Nat := 64

/-- **The shape of an even extent.** Lists that are uneven below the last possible axis are nested too
deeply. -/
def evenShape (e : Extent) : Except (Fault α) (List Nat) :=
  if e.uneven then
    .error (.malformed (if e.shape.length = axisLimit then .tooDeep else .ragged e.shape))
  else .ok e.shape

end Extent

namespace Argument

/-- **Whole numbers as scalars.** Fails beyond the range of the scalars. -/
def scalarOfInt [Scalar α] (i : Int) : Except (Fault α) α :=
  if Scalar.fits (α := α) i then .ok (Scalar.nearest i) else .error (.tooLarge .integer)

/-- **Fractions as scalars.** Fails beyond the range of the scalars. -/
def scalarOfRat [Scalar α] (q : Rat) : Except (Fault α) α :=
  if Scalar.fits (α := α) q then .ok (Scalar.nearest q) else .error (.tooLarge .ratio)

/-- **Arguments as scalars.** Real numbers of any kind and texts that write one. -/
def toScalar [Scalar α] : Argument α → Except (Fault α) α
  | .bool b => .ok (Scalar.nearest (if b then 1 else 0))
  | .int i => scalarOfInt i
  | .real x => .ok x
  | .fraction q => scalarOfRat q
  | .text s =>
    match Scalar.read? s with
    | some x => .ok x
    | none => .error (.malformed (.unreadable s))
  | a => .error (.unsuitable (.notNumeric a.kindName))

/-- **Arguments as array entries.** An absent value becomes the missing number. -/
def toEntry [Scalar α] : Argument α → Except (Fault α) α
  | .absent => .ok Scalar.missing
  | a => a.toScalar

mutual

/-- The extent of an argument with at most `axes` axes: lists have axes, anything else has none, and a
list where no axis is left is uneven. -/
def extentWithin (axes : Nat) : Argument α → Extent
  | .list items =>
    match axes with
    | 0 => ⟨[], true⟩
    | axes + 1 =>
      match commonExtentWithin axes items with
      | some e => ⟨items.length :: e.shape, e.uneven⟩
      | none => ⟨[0], false⟩
  | _ => ⟨[], false⟩

/-- The common extent of the elements of a list, none if the list is empty. -/
def commonExtentWithin (axes : Nat) : List (Argument α) → Option Extent
  | [] => none
  | a :: rest =>
    match commonExtentWithin axes rest with
    | some e => some (Extent.join (extentWithin axes a) e)
    | none => some (extentWithin axes a)

end

/-- **The extent of an argument.** -/
def extent (a : Argument α) : Extent := extentWithin Extent.axisLimit a

mutual

/-- The elements of nested lists that are not lists themselves, in order. -/
def leaves : Argument α → List (Argument α)
  | .list items => leavesOfAll items
  | a => [a]

/-- The leaves of the elements of a list. -/
def leavesOfAll : List (Argument α) → List (Argument α)
  | [] => []
  | a :: rest => leaves a ++ leavesOfAll rest

end

/-- **Arguments as blocks.** Nested lists of equal lengths; their shape is checked before any of
their elements is converted. -/
def toBlock [Scalar α] (a : Argument α) : Except (Fault α) (Block α) := do
  let shape ← a.extent.evenShape
  let entries ← a.leaves.mapM toEntry
  return ⟨shape, entries⟩

/-- A list of numbers as an argument. -/
def ofReals (xs : List α) : Argument α := .list (xs.map .real)

end Argument

end FiniteDifference
