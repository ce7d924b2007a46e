import FiniteDifference.Stencil.Coefficients
import FiniteDifference.Stencil.Construction
import FiniteDifference.Stencil.Indexing
import FiniteDifference.Stencil.Listing

/-!
# Exact coefficients

The exact coefficients of stencils and tensor stencils, with the faults that asking for them can have.
-/

namespace FiniteDifference

variable [Memory] {α : Type}

namespace Coefficients

/-- **Exact coefficients of a grid.** The derivative order must be below the number of points, and no
offset may be repeated. -/
def ofGrid (offsets : List Int) (order : Nat) (label : String) : Except (Fault α) (List Rat) :=
  if order < offsets.length then
    match solve? offsets order with
    | some coefficients => .ok coefficients
    | none => .error (.singular label)
  else .error (.told (.index (.term order)))

/-- **Exact coefficients of a grid at an order of either sign.** A negative order selects a power from
the end, but its factorial has no value: it makes an infinite coefficient, or an undefined one where the
coefficient of that power is zero. -/
def ofSignedGrid (offsets : List Int) (order : Int) (label : String) :
    Except (Fault α) (List Rat) :=
  if 0 ≤ order then ofGrid offsets order.toNat label
  else
    match place? offsets.length order with
    | none => .error (.told (.index (.term (order + offsets.length))))
    | some power =>
      match solve? offsets power with
      | none => .error (.singular label)
      | some coefficients =>
        .error (.unsuitable (.notExact (if coefficients.head? = some 0 then "nan" else "zoo")))

/-- **Exact coefficients of a stencil.** -/
def ofStencil (s : Stencil) : Except (Fault α) (List Rat) := do
  ofGrid (← s.listedOffsets) s.order s.label

/-- The tensor coefficients of rows that were looked up. -/
def ofRows (lengths : List Nat) (rows : List (List Rat)) : Except (Fault α) (List Rat) := do
  let _ ← RowMajor.countedSize lengths
  match tensorProduct? lengths rows with
  | some coefficients => return coefficients
  | none => throw (.index .tuple)

/-- **Exact coefficients of a tensor stencil.** `lookup` is asked for the coefficients of each axis in
turn, before the size of the tensor is checked. -/
def ofTensor {m : Type → Type} [Monad m] [MonadLiftT (Except (Fault α)) m]
    (lookup : Stencil → m (List Rat)) (t : Tensor) : m (List Rat) := do
  let rows ← t.axes.mapM lookup
  liftM (ofRows t.lengths rows : Except (Fault α) (List Rat))

/-- A row of a table, or the fault of reading it. -/
abbrev Row (α : Type) := Except (Fault α) (List Rat)

/-- A lookup from a table of rows: the next row is read and is the answer, and the stencil that was looked
up is remembered. -/
def tableLookup (s : Stencil) :
    StateT (List (Row α) × List Stencil) (Except (Fault α)) (List Rat) := do
  let (rows, seen) ← get
  match rows with
  | row :: rest =>
    set (rest, seen ++ [s])
    row
  | [] => throw (.index .list)

/-- The coefficients of a tensor stencil from a table of rows, and the stencils looked up.  Rows beyond
the axes are not read. -/
def ofTable (t : Tensor) (rows : List (Row α)) : Except (Fault α) (List Rat × List Stencil) := do
  let (coefficients, _, seen) ← (ofTensor (α := α) tableLookup t).run (rows, [])
  return (coefficients, seen)

/-- The coefficients of an argument from a table of rows.  The elements of an argument that is no
tensor stencil are looked up as well, but it has no axis lengths. -/
def ofTableFor (a : Argument α) (rows : List (Row α)) :
    Except (Fault α) (List Rat × List Stencil) :=
  match a with
  | .descriptor (.tensor t) => ofTable t rows
  | a =>
    match a.elements? with
    | none => .error (.unsuitable (.notIterable a.kindName))
    | some items => do
      let _ ← (rows.take items.length).mapM id
      if rows.length < items.length then throw (.index .list)
      throw (a.noAttribute "lengths")

/-! ## Arguments -/

/-- The stencil of an argument whose grid is asked for. -/
def gridOf (a : Argument α) : Except (Fault α) Stencil :=
  match a with
  | .descriptor (.axis s) => .ok s
  | a => .error (a.noAttribute "offsets")

/-- The exact coefficients of an argument that must be a stencil. -/
def ofArgument (a : Argument α) : Except (Fault α) (List Rat) := gridOf a >>= ofStencil

/-- The tensor stencil of an argument whose axes are looked up one by one.  A list of stencils has axes
with coefficients of their own, but no axis lengths. -/
def axesOf (a : Argument α) : Except (Fault α) Tensor :=
  match a with
  | .descriptor (.tensor t) => .ok t
  | a =>
    match a.elements? with
    | none => .error (.unsuitable (.notIterable a.kindName))
    | some items => do
      let _ ← items.mapM ofArgument
      throw (a.noAttribute "lengths")

/-- **Moments of a stencil.** Those of its own coefficients. -/
def momentsOf (a : Argument α) (greatest : Int) : Except (Fault α) (List Rat) := do
  let s ← gridOf a
  return moments (← s.listedOffsets) (← ofStencil s) greatest

/-- **Truncation order of an argument.** For given coefficients, or for its own ones. -/
def truncationOrderOf (a : Argument α) (given : Option (List Rat)) :
    Except (Fault α) (Option Nat) :=
  match given with
  | some coefficients => do
    let s ← a.stencil
    let _ ← s.listedOffsets
    return truncationOrder? s coefficients
  | none => do
    let s ← gridOf a
    return truncationOrder? s (← ofStencil s)

end Coefficients

end FiniteDifference
