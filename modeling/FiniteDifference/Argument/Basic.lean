import FiniteDifference.Scalar
import FiniteDifference.Stencil.Tensor
import FiniteDifference.Text.Symbol

/-!
# Arguments

What a caller may hand to the library is checked when it arrives, so an argument can be a value of
any kind.  This module holds the kinds, their names and the equality of arguments.
-/

namespace FiniteDifference

/-- **Arguments.** A value of any kind, before any check. -/
inductive Argument (α : Type) where
  /-- No value. -/
  | absent
  | bool (b : Bool)
  | int (i : Int)
  | real (x : α)
  | fraction (q : Rat)
  | complex (re im : α)
  | text (s : String)
  | list (items : List (Argument α))
  /-- A mapping without entries. -/
  | emptyMap
  | descriptor (d : Descriptor)

namespace Argument

variable {α : Type}

/-- **Kind names.** The name of an argument's kind in messages. -/
def kindName : Argument α → String
  | .absent => "NoneType"
  | .bool _ => "bool"
  | .int _ => "int"
  | .real _ => "float"
  | .fraction _ => "Fraction"
  | .complex _ _ => "complex"
  | .text _ => "str"
  | .list _ => "list"
  | .emptyMap => "dict"
  | .descriptor (.axis _) => "StencilDescriptor"
  | .descriptor (.tensor _) => "MultivariateStencilDescriptor"

/-- The elements of an argument that can be traversed: of a list, of a text (its symbols), of a mapping or
of a tensor stencil. -/
def elements? : Argument α → Option (List (Argument α))
  | .list items => some items
  | .text s => some ((Text.symbols s.toList).map fun x => .text (String.ofList (Text.spell x)))
  | .emptyMap => some []
  | .descriptor (.tensor t) => some (t.axes.map fun s => .descriptor (.axis s))
  | _ => none

/-- Whether an argument can serve as a key. -/
def isHashable : Argument α → Bool
  | .list _ => false
  | .emptyMap => false
  | _ => true

/-! ## Equality -/

section Equality

variable [Scalar α]

/-- The exact value of a finite real number. -/
def rational? : Argument α → Option Rat
  | .bool b => some (if b then 1 else 0)
  | .int i => some i
  | .real x => Scalar.toRat? x
  | .fraction q => some q
  | .complex re im => if Scalar.isZero im then Scalar.toRat? re else none
  | _ => none

/-- The parts of a number that is not finite or not real. -/
def parts? : Argument α → Option (α × α)
  | .real x => some (x, Scalar.zero)
  | .complex re im => some (re, im)
  | _ => none

mutual

/-- **Equality.** Numbers are equal when their values are, whatever their kinds; lists are equal
element by element. -/
def equal : Argument α → Argument α → Bool
  | .absent, .absent => true
  | .text s, .text t => s == t
  | .list xs, .list ys => equalLists xs ys
  | .emptyMap, .emptyMap => true
  | .descriptor d, .descriptor e => d == e
  | a, b =>
    match a.rational?, b.rational? with
    | some p, some q => p == q
    | none, none =>
      match a.parts?, b.parts? with
      | some (x, y), some (u, v) => Scalar.same x u && Scalar.same y v
      | _, _ => false
    | _, _ => false

/-- Equality of lists of arguments. -/
def equalLists : List (Argument α) → List (Argument α) → Bool
  | [], [] => true
  | x :: xs, y :: ys => equal x y && equalLists xs ys
  | _, _ => false

end

end Equality

end Argument

end FiniteDifference
