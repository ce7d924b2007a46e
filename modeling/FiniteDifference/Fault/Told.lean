import FiniteDifference.Argument.Fraction
import FiniteDifference.Fault.Basic

/-!
# Faults that can be told

The text of a fault is written when the fault is raised.  Where it shows a number with more digits than can
be written, this number is the fault instead.
-/

namespace FiniteDifference

variable {α : Type}

namespace Argument

mutual

/-- Whether no number in an argument has too many digits to be written. -/
def isWritable : Argument α → Bool
  | .int i => Fraction.isShort i.natAbs
  | .fraction q => Fraction.isShort q.num.natAbs && Fraction.isShort q.den
  | .list items => areWritable items
  | .descriptor d => d.axes.all fun s => Fraction.isShort s.order && Fraction.isShort s.accuracy
  | _ => true

/-- Whether all elements of a list can be written. -/
def areWritable : List (Argument α) → Bool
  | [] => true
  | a :: rest => isWritable a && areWritable rest

end

end Argument

/-- The arguments that the text of an invalid argument shows. -/
def Invalid.shown : Invalid α → List (Argument α)
  | .notPlacement given => [given]
  | .negativeOrder order => [.int order]
  | .accuracyNotPositive accuracy => [.int accuracy]
  | .accuracyNotZero accuracy => [.int accuracy]
  | .accuracyOdd accuracy => [.int accuracy]
  | .lengthNotPositive length => [.int length]
  | .indexOutside index length => [index, .int length]
  | .variableOutside index size => [.int index, .int size]
  | _ => []

namespace Fault

/-- The arguments that the text of a fault shows. -/
def shown : Fault α → List (Argument α)
  | .invalid why => why.shown
  | .mismatch _ actual expected => [actual, expected]
  | .index (.term order) => [.int order]
  | .stated _ details => details
  | _ => []

/-- **Told faults.** A fault whose text would show a number with too many digits is the fault of writing that
number. -/
def told (fault : Fault α) : Fault α :=
  if Argument.areWritable fault.shown then fault else .malformed (.tooManyDigits none)

/-- **Refusals.** The fault of refusing an argument. -/
def refusal (why : Invalid α) : Fault α := told (.invalid why)

/-- The text of a told fault can be written. -/
theorem areWritable_shown_told (fault : Fault α) : Argument.areWritable fault.told.shown = true := by
  rw [told]
  split
  · assumption
  · rfl

end Fault

end FiniteDifference
