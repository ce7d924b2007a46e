import FiniteDifference.Position

/-!
# Row-major order

The multi-indices of a rectangular space with given axis lengths, the last axis varying fastest.
`RowMajor.successor?` steps from one multi-index to the next, `RowMajor.traversal` lists them all with
their linear positions, and `RowMajor.digits` is the multi-index at a linear position.
-/

namespace FiniteDifference.RowMajor

/-- The number of multi-indices, the product of the axis lengths. -/
def size : List Nat → Nat
  | [] => 1
  | n :: lengths => n * size lengths

/-- The sizes that can be counted lie below this bound. -/
def sizeBound : Nat := 0x8000000000000000

/-- Whether an integer is in the range of indices, which reaches as far below zero as above. -/
def isIndex (i : Int) : Bool :=
  -(sizeBound : Int) ≤ i && i < (sizeBound : Int)

/-- **The next multi-index.** Advances the last axis and carries into the axis in front of it when an
axis is exhausted; none after the last multi-index. -/
def successor? : List Nat → List Nat → Option (List Nat)
  | n :: lengths, i :: index =>
    match successor? lengths index with
    | some next => some (i :: next)
    | none => if i + 1 < n then some ((i + 1) :: lengths.map fun _ => 0) else none
  | _, _ => none

/-- The first multi-index. -/
def origin (lengths : List Nat) : List Nat := lengths.map fun _ => 0

/-- **Mixed-radix digits.** The multi-index at a linear position. -/
def digits : List Nat → Nat → List Nat
  | [], _ => []
  | _ :: lengths, position =>
    position / size lengths :: digits lengths (position % size lengths)

/-- **Linear position.** The sum of each index times the product of the later lengths. -/
def position : List Nat → List Nat → Nat
  | _ :: lengths, i :: index => i * size lengths + position lengths index
  | _, _ => 0

/-! ## Traversals -/

/-- **The state of a traversal.** The multi-index it yields next and its linear position; no index
once the traversal has ended. -/
structure Cursor where
  next? : Option (List Nat)
  linear : Nat
  deriving Repr, DecidableEq

/-- A new traversal. -/
def start (lengths : List Nat) : Cursor := ⟨some (origin lengths), 0⟩

/-- **Advancing a traversal.** Yields a multi-index with its linear position, or none at the end. -/
def advance (lengths : List Nat) (cursor : Cursor) : Option (List Nat × Nat) × Cursor :=
  match cursor.next? with
  | some index => (some (index, cursor.linear), ⟨successor? lengths index, cursor.linear + 1⟩)
  | none => (none, cursor)

/-- The first pairs that a traversal yields, at most `count` of them. -/
def collect (lengths : List Nat) : Nat → Cursor → List (List Nat × Nat)
  | 0, _ => []
  | count + 1, cursor =>
    match advance lengths cursor with
    | (some pair, rest) => pair :: collect lengths count rest
    | (none, _) => []

/-- **Traversal.** All multi-indices in row-major order, with their linear positions. -/
def traversal (lengths : List Nat) : List (List Nat × Nat) :=
  collect lengths (size lengths) (start lengths)

/-- A step of a shared traversal: start a new one, or advance the one at an index. -/
inductive Step where
  | new
  | advance (traversal : Int)
  deriving Repr, DecidableEq

/-- What a step answers: the number of a new traversal, a pair, or the end. -/
inductive Answer where
  | started (traversal : Nat)
  | pair (index : List Nat) (linear : Nat)
  | stop
  deriving Repr, DecidableEq

/-- **One step of several traversals.** The traversals advance independently of one another.  An index
that points at no traversal is the error. -/
def step (lengths : List Nat) (cursors : List Cursor) : Step → Except Int (Answer × List Cursor)
  | .new => .ok (.started cursors.length, cursors ++ [start lengths])
  | .advance i =>
    match h : place? cursors.length i with
    | none => .error i
    | some k =>
      match FiniteDifference.RowMajor.advance lengths (cursors.get ⟨k, lt_of_place? h⟩) with
      | (some (index, linear), rest) => .ok (.pair index linear, cursors.set k rest)
      | (none, rest) => .ok (.stop, cursors.set k rest)

/-- **Running steps.** The answers of a sequence of steps. -/
def run (lengths : List Nat) : List Cursor → List Step → Except Int (List Answer)
  | _, [] => .ok []
  | cursors, s :: steps => do
    let (answer, cursors) ← step lengths cursors s
    return answer :: (← run lengths cursors steps)

end FiniteDifference.RowMajor
