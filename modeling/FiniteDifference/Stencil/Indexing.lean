import FiniteDifference.Fault.Lookup
import FiniteDifference.Quantity
import FiniteDifference.Stencil.RowMajor

/-!
# Index spaces

Rectangular index spaces from arguments of any kind, and the linear position of a multi-index.
-/

namespace FiniteDifference.RowMajor

variable {α : Type}

/-- The axis lengths of a list of integers, each of which must be positive. -/
def positiveLengths : List Int → Except (Fault α) (List Nat)
  | [] => .ok []
  | n :: rest =>
    if n ≤ 0 then .error (.refusal (.lengthNotPositive n))
    else (positiveLengths rest).map (n.toNat :: ·)

/-- **Axis lengths.** The kinds of all lengths are checked before the first value. -/
def lengthsOfList (items : List (Argument α)) : Except (Fault α) (List Nat) := do
  let lengths ← items.mapM (Validation.requireInteger · "length")
  if lengths = [] then throw (.invalid .noLengths)
  positiveLengths lengths

/-- The axis lengths of one argument that holds them all. -/
def lengthsOfArgument (a : Argument α) : Except (Fault α) (List Nat) :=
  match a with
  | .absent => .error (.invalid (.missing "lengths"))
  | a =>
    match a.elements? with
    | some items => lengthsOfList items
    | none => .error (.unsuitable (.notIterable a.kindName))

/-- **Index spaces.** The axis lengths of several arguments; a single argument that can be traversed
stands for its elements. -/
def lengthsOfArguments (arguments : List (Argument α)) : Except (Fault α) (List Nat) :=
  match arguments with
  | [a] => lengthsOfList (a.elements?.getD [a])
  | arguments => lengthsOfList arguments

/-- **Counting.** The size of an index space, which must lie below the bound. -/
def countedSize (lengths : List Nat) : Except (Fault α) Nat :=
  if size lengths < sizeBound then .ok (size lengths) else .error (.tooLarge .size)

/-- The written form of an index space. -/
def label (lengths : List Nat) : String :=
  "RowMajorIteration" ++
    match lengths with
    | [n] => "(" ++ toString n ++ ",)"
    | lengths => "(" ++ String.intercalate ", " (lengths.map fun n => toString n) ++ ")"

/-- **Answers of traversals.** An index that points at no traversal is a fault. -/
def answers (lengths : List Nat) (steps : List Step) : Except (Fault α) (List Answer) :=
  (run lengths [] steps).mapError fun i => .index (IndexFault.list.ofIndex i)

/-! ## Linear positions -/

variable [Scalar α]

/-- The linear position of the axes after those that gave `linear`. -/
def ravelFrom (linear : Quantity α) :
    List (Argument α) → List Nat → Except (Fault α) (Quantity α)
  | a :: index, n :: lengths =>
    match Quantity.ofArgument? a with
    | none => .error (.unsuitable (.notComparable "<=" "int" a.kindName))
    | some i =>
      if i.isIndexBelow n then do
        let scaled ← linear.mul (.int n)
        ravelFrom (← scaled.add i) index lengths
      else .error (.refusal (.indexOutside a n))
  | _, _ => .ok linear

/-- **Linear position of a multi-index.** Each step multiplies by the length of the axis and adds its
index, which must lie within the axis. -/
def ravel (index lengths : Argument α) : Except (Fault α) (Quantity α) := do
  let lengths ← lengthsOfArgument lengths
  match index.elements? with
  | none => throw (.unsuitable (.noLength index.kindName))
  | some index =>
    Validation.checkSize index.length lengths.length "multi-index dimension"
    ravelFrom (.int 0) index lengths

end FiniteDifference.RowMajor
