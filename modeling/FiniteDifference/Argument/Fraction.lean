import FiniteDifference.Argument.Written
import FiniteDifference.Fault.Basic
import FiniteDifference.Number.Reading

/-!
# Texts of fractions

A fraction is written as a numerator and a denominator with a slash between them, or as a decimal that
may have an exponent.  An exact coefficient may also be written as the quotient of two fractions.  Whole
numbers with more than `Reading.digitLimit` digits are neither read nor written.
-/

namespace FiniteDifference.Fraction

variable {α : Type}

/-- **Written fractions.** The digits of a fraction without sign, in the two forms it can have. -/
inductive Digits where
  | ratio (numerator denominator : List Char)
  /-- The digits in front of the point and behind it, and the exponent with the sign of its own. -/
  | decimal (whole part : List Char) (exponent : Option (Bool × List Char))
  deriving DecidableEq, Repr

/-- A signed run of digits that is all of a text. -/
def exponent? (text : List Char) : Option (Bool × List Char) :=
  let (negative, body) := Reading.splitSign text
  match Reading.digitRun false body with
  | (c :: digits, []) => some (negative, c :: digits)
  | _ => none

/-- A decimal from its whole digits and the digits of its part: what follows them is an exponent, or
nothing.  There is a digit at the front, or behind a point at the front. -/
def decimal? (whole part rest : List Char) : Option Digits :=
  if whole.isEmpty && part.isEmpty then none
  else
    match rest with
    | [] => some (.decimal whole part none)
    | c :: rest =>
      if c == 'e' || c == 'E' then (exponent? rest).map fun e => .decimal whole part (some e) else none

/-- **Forms of a fraction.** None if a text without sign writes no fraction. -/
def digits? (text : List Char) : Option Digits :=
  match Reading.digitRun false text with
  | (whole, '/' :: rest) =>
    match Reading.digitRun false rest with
    | (denominator, []) =>
      if whole.isEmpty || denominator.isEmpty then none else some (.ratio whole denominator)
    | _ => none
  | (whole, '.' :: rest) =>
    let (part, rest) := Reading.digitRun false rest
    decimal? whole part rest
  | (whole, rest) => decimal? whole [] rest

/-- The value of digits, of which there must not be too many. -/
def value (digits : List Char) : Except (Fault α) Nat :=
  if Reading.digitLimit < digits.length then
    .error (.malformed (.tooManyDigits (some digits.length)))
  else .ok (Reading.natValue digits)

/-- A power of ten as a numerator and a denominator. -/
def powerOfTen (negative : Bool) (exponent : Nat) : Nat × Nat :=
  if negative then (1, Nat.pow 10 exponent) else (Nat.pow 10 exponent, 1)

/-- The numerator and the denominator that digits write.  The first part with too many digits is the
one that is refused. -/
def ratio : Digits → Except (Fault α) (Nat × Nat)
  | .ratio numerator denominator => do return (← value numerator, ← value denominator)
  | .decimal whole part exponent => do
    let w ← value whole
    let p ← value part
    let (negative, e) ←
      match exponent with
      | some (negative, digits) => do pure (negative, ← value digits)
      | none => pure (false, 0)
    let scale := Nat.pow 10 part.length
    let (up, down) := powerOfTen negative e
    return ((w * scale + p) * up, scale * down)

/-- **Reading a fraction.** Spaces may surround it. -/
def read (text : String) : Except (Fault α) Rat :=
  let (negative, body) :=
    Reading.splitSign ((Text.trimBy Text.isSpace text.toList).map Reading.asciiForm)
  match digits? body with
  | none => .error (.malformed (.notFraction text))
  | some digits => do
    let (p, q) ← ratio digits
    let p : Int := if negative then -p else p
    if q = 0 then throw (.zeroDivision (.fraction p))
    return p / (q : Rat)

/-- **Reading a coefficient.** A fraction, or the quotient of two; spaces anywhere are left out.  A text
that writes neither is refused as a value without a place in exact arithmetic, unless one side of a
slash is at fault. -/
def readCoefficient (text : String) : Except (Fault α) Rat :=
  if 1 < text.toList.count '/' then .error (.unsuitable (.notExact text))
  else
    let packed := text.toList.filter (· ≠ ' ')
    match packed.span (· ≠ '/') with
    | (whole, []) =>
      match read (α := α) (String.ofList whole) with
      | .ok q => .ok q
      | .error _ => .error (.unsuitable (.notExact (String.ofList whole)))
    | (left, _ :: right) => do
      let p ← read (String.ofList left)
      let q ← read (String.ofList right)
      if q = 0 then throw (.zeroDivision (.fraction p.num.sign))
      return p / q

/-- Whether a whole number has at most as many digits as can be written. -/
def isShort (n : Nat) : Bool := n < Nat.pow 10 Reading.digitLimit

/-- **Writing a fraction.** -/
def write (q : Rat) : Except (Fault α) String :=
  if isShort q.num.natAbs && isShort q.den then .ok (writeRational q)
  else .error (.malformed (.tooManyDigits none))

end FiniteDifference.Fraction
