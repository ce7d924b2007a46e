import FiniteDifference.Argument.Number
import FiniteDifference.Fault.Told

/-!
# Validation

The checks that arguments pass on arrival.  Each names the argument in its fault.  A checked
bandwidth carries the proof that it is finite and above zero.
-/

namespace FiniteDifference

variable {α : Type}

/-- **Positive numbers.** A finite number above zero. -/
structure Positive (α : Type) [Scalar α] where
  val : α
  isPositive : Scalar.isPositive val = true

namespace Validation

/-- Refuses an absent argument. -/
def requirePresent (a : Argument α) (name : String) : Except (Fault α) (Argument α) :=
  match a with
  | .absent => .error (.invalid (.missing name))
  | a => .ok a

/-- **Integers.** Truth values are no integers. -/
def requireInteger (a : Argument α) (name : String) : Except (Fault α) Int :=
  match a with
  | .int i => .ok i
  | a => .error (.invalid (.notInteger name a.kindName))

variable [Scalar α]

/-- A number that must be finite and above zero. -/
def positive (x : α) (name : String) : Except (Fault α) (Positive α) :=
  if h : Scalar.isPositive x = true then .ok ⟨x, h⟩
  else .error (.invalid (.notPositive name x))

/-- **Positive numbers.** Truth values and texts are no numbers here. -/
def requirePositive (a : Argument α) (name : String) : Except (Fault α) (Positive α) :=
  match a with
  | .int i => Argument.scalarOfInt i >>= (positive · name)
  | .real x => positive x name
  | .fraction q => Argument.scalarOfRat q >>= (positive · name)
  | a => .error (.invalid (.notReal name a.kindName))

/-- The entries of a vector from an index on, each of which must be positive. -/
def positiveEntries (name : String) : Nat → List α → Except (Fault α) (List (Positive α))
  | _, [] => .ok []
  | i, x :: xs =>
    if h : Scalar.isPositive x = true then
      (positiveEntries name (i + 1) xs).map (⟨x, h⟩ :: ·)
    else .error (.invalid (.entryNotPositive name i x))

/-- **Positive vectors.** A sequence of at least one positive number; the first entry that is not
positive is reported. -/
def requirePositiveVector (a : Argument α) (name : String) :
    Except (Fault α) (List (Positive α)) := do
  let a ← requirePresent a name
  let block ← a.toBlock
  if block.shape.length ≠ 1 ∨ block.entries = [] then
    throw (.invalid (.notSequence name block.shape))
  positiveEntries name 0 block.entries

/-- **Points.** A sequence of numbers, which may be empty. -/
def requirePoint (a : Argument α) (name : String) : Except (Fault α) (List α) := do
  let a ← requirePresent a name
  let block ← a.toBlock
  if block.shape.length ≠ 1 then throw (.invalid (.notVector name block.shape))
  return block.entries

/-- **Sizes.** The actual size must be the expected one. -/
def checkSize (actual expected : Nat) (what : String) : Except (Fault α) Unit :=
  if actual = expected then .ok ()
  else .error (.mismatch what (.int actual) (.int expected))

/-- Sizes given as arguments must be equal. -/
def checkEqual (actual expected : Argument α) (what : String) : Except (Fault α) Unit :=
  if actual.equal expected then .ok () else .error (.told (.mismatch what actual expected))

end Validation

end FiniteDifference
