import FiniteDifference.Number.Binary64
import FiniteDifference.Text.Blank
import FiniteDifference.Text.Digit

/-!
# Reading numbers

Texts of whole and of double-precision numbers.  Blanks may surround a number, a sign may precede
it, digits may come from any script and a single underscore may stand between two digits.
-/

namespace FiniteDifference.Reading

/-! ## Preparation -/

/-- A character in ASCII form: a wide blank becomes a space and a digit of any script the ASCII
digit of its value. -/
def asciiForm (c : Char) : Char :=
  if c.toNat < 0x80 then c
  else if Text.isWideBlank c then ' '
  else
    match Text.digitValue? c with
    | some d => Text.digitChar d
    | none => c

/-- The text of a number in ASCII form, without the blanks around it. -/
def prepare (s : String) : List Char :=
  Text.trim (s.toList.map asciiForm)

/-- Whether a character is an ASCII digit. -/
def isDigit (c : Char) : Bool :=
  '0' ≤ c && c ≤ '9'

/-- **Underscores.** Removes the underscores of a text, each of which must stand between two
digits; `afterDigit` tells whether a digit precedes the text. -/
def joinDigits? (afterDigit : Bool) : List Char → Option (List Char)
  | [] => some []
  | '_' :: d :: rest =>
    if afterDigit && isDigit d then (joinDigits? true rest).map (d :: ·) else none
  | c :: rest => if c == '_' then none else (joinDigits? (isDigit c) rest).map (c :: ·)

/-- **Runs of digits.** The digits at the front of a text, among which a single underscore may stand
between two of them, and what follows them; `afterDigit` tells whether a digit precedes the text. -/
def digitRun (afterDigit : Bool) : List Char → List Char × List Char
  | [] => ([], [])
  | '_' :: d :: rest =>
    if afterDigit && isDigit d then
      let (digits, rest) := digitRun true rest
      (d :: digits, rest)
    else ([], '_' :: d :: rest)
  | c :: rest =>
    if isDigit c then
      let (digits, rest) := digitRun true rest
      (c :: digits, rest)
    else ([], c :: rest)

/-- The sign in front of a text, true for a minus, and what follows it. -/
def splitSign : List Char → Bool × List Char
  | '-' :: rest => (true, rest)
  | '+' :: rest => (false, rest)
  | s => (false, s)

/-- The value of a list of ASCII digits. -/
def natValue (digits : List Char) : Nat :=
  Text.decimalValue (digits.map (·.toNat - 48))

/-! ## Whole numbers -/

/-- The greatest number of digits of a whole number that is read. -/
def digitLimit : Nat := 4300

/-- **Whole numbers.** A sign and at least one digit. -/
def int? (s : String) : Option Int :=
  let (negative, body) := splitSign (prepare s)
  match joinDigits? false body with
  | some digits =>
    if digits.isEmpty || !digits.all isDigit || digitLimit < digits.length then none
    else
      let value : Int := natValue digits
      some (if negative then -value else value)
  | none => none

/-! ## Double-precision numbers -/

/-- The number `value * 10 ^ exponent` as a magnitude word.  Exponents far outside the range of the
doubles are settled by the number of digits alone. -/
def decimalWord (value : Nat) (exponent : Int) : Nat :=
  if value = 0 then 0
  else
    let size : Int := (Text.natDigits value).length + exponent
    if 400 < size then Binary64.infinityWord
    else if size < -400 then 0
    else Binary64.nearestMagnitude (value * Nat.pow 10 exponent.toNat)
      (Nat.pow 10 (-exponent).toNat)

/-- The exponent that follows the digits of a number. -/
def exponent? : List Char → Option Int
  | [] => some 0
  | c :: rest =>
    if c == 'e' || c == 'E' then
      let (negative, digits) := splitSign rest
      if digits.isEmpty || !digits.all isDigit then none
      else
        let value : Int := natValue digits
        some (if negative then -value else value)
    else none

/-- Digits with at most one point among or around them, then perhaps an exponent. -/
def decimal? (s : List Char) : Option Nat :=
  let whole := s.takeWhile isDigit
  let rest := s.dropWhile isDigit
  let (part, rest) :=
    match rest with
    | '.' :: rest => (rest.takeWhile isDigit, rest.dropWhile isDigit)
    | rest => ([], rest)
  if whole.isEmpty && part.isEmpty then none
  else (exponent? rest).map fun e => decimalWord (natValue (whole ++ part)) (e - part.length)

/-- The magnitude word of a text without sign: a decimal, or a name of infinity or of the missing
number in letters of either case. -/
def magnitude? (s : List Char) : Option Nat :=
  let name := String.ofList (s.map Char.toLower)
  if name == "inf" || name == "infinity" then some Binary64.infinityWord
  else if name == "nan" then some 0x7ff8000000000000
  else decimal? s

/-- **Double-precision numbers.** A number too large for the format is read as infinity. -/
def float? (s : String) : Option Float :=
  match joinDigits? false (prepare s) with
  | some text =>
    let (negative, body) := splitSign text
    (magnitude? body).map (Binary64.ofSignedWord negative)
  | none => none

end FiniteDifference.Reading
