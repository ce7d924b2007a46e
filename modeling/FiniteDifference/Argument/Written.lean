import FiniteDifference.Argument.Basic
import FiniteDifference.Number.Layout
import FiniteDifference.Text.Quoted

/-!
# Written arguments

The two forms in which a message shows an argument: `inspect` tells values of different kinds apart
and quotes texts, `display` leaves a text and a fraction plain.
-/

namespace FiniteDifference

/-- A rational number in lowest terms, without a denominator if it is whole. -/
def writeRational (q : Rat) : String :=
  if q.den = 1 then toString q.num else toString q.num ++ "/" ++ toString q.den

/-- A tuple: a single entry keeps a comma. -/
def writeTuple (entries : List String) : String :=
  match entries with
  | [entry] => "(" ++ entry ++ ",)"
  | entries => "(" ++ String.intercalate ", " entries ++ ")"

/-- The axis lengths of an array, as a tuple. -/
def writeShape (shape : List Nat) : String :=
  writeTuple (shape.map fun n => toString n)

/-- A double in a message. -/
def writeReal (x : Float) : String := Layout.message.write x

/-- A list of doubles in a message. -/
def writeReals (xs : List Float) : String :=
  "[" ++ String.intercalate ", " (xs.map writeReal) ++ "]"

/-- A complex number: a real part that is a plain zero is left out. -/
def writeComplex (re im : Float) : String :=
  let imaginary := Layout.component.write im
  if Binary64.magnitudeWord re = 0 && !Binary64.isNegative re then imaginary ++ "j"
  else
    let sign := if imaginary.startsWith "-" then "" else "+"
    "(" ++ Layout.component.write re ++ sign ++ imaginary ++ "j)"

namespace Argument

mutual

/-- **Inspected argument.** -/
def inspect : Argument Float → String
  | .absent => "None"
  | .bool b => if b then "True" else "False"
  | .int i => toString i
  | .real x => writeReal x
  | .fraction q => "Fraction(" ++ toString q.num ++ ", " ++ toString q.den ++ ")"
  | .complex re im => writeComplex re im
  | .text s => Text.quote s
  | .list items => "[" ++ String.intercalate ", " (inspectAll items) ++ "]"
  | .emptyMap => "\x7b\x7d"
  | .descriptor d => d.label

/-- The inspected elements of a list. -/
def inspectAll : List (Argument Float) → List String
  | [] => []
  | a :: rest => inspect a :: inspectAll rest

end

/-- **Displayed argument.** -/
def display : Argument Float → String
  | .text s => s
  | .fraction q => writeRational q
  | a => a.inspect

end Argument

end FiniteDifference
