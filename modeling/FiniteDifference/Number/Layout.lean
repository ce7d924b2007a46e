import FiniteDifference.Number.Shortest
import FiniteDifference.Text.Digit

/-!
# Written numbers

How a double is written: its shortest decimal, positionally near one and with an exponent elsewhere.
-/

namespace FiniteDifference

/-- The choices of a number format: between which decimal exponents a number is written
positionally, the least width of a written exponent, and whether a whole number keeps its point. -/
structure Layout where
  least : Int
  greatest : Int
  exponentWidth : Nat
  keepsPoint : Bool

namespace Layout

/-- **Numbers in messages.** From one ten-thousandth up to sixteen digits a number is positional and
has a point; exponents have a sign and at least two digits. -/
def message : Layout := ⟨-4, 15, 2, true⟩

/-- The parts of a complex number are written like other numbers but without a needless point. -/
def component : Layout := { message with keepsPoint := false }

/-- Zeros. -/
def zeros (n : Nat) : List Char := List.replicate n '0'

/-- A decimal without exponent. -/
def positional (layout : Layout) (digits : List Char) (place : Int) : List Char :=
  let exponent : Int := place + digits.length - 1
  if 0 ≤ place then
    digits ++ zeros place.toNat ++ if layout.keepsPoint then ['.', '0'] else []
  else if 0 ≤ exponent then
    digits.take (exponent + 1).toNat ++ '.' :: digits.drop (exponent + 1).toNat
  else
    '0' :: '.' :: zeros (-exponent - 1).toNat ++ digits

/-- A decimal with one digit in front of the point and an exponent. -/
def scientific (layout : Layout) (digits : List Char) (place : Int) : List Char :=
  let exponent : Int := place + digits.length - 1
  let written := Text.natDigits exponent.natAbs
  digits.take 1 ++ (if digits.length ≤ 1 then [] else '.' :: digits.drop 1) ++
    'e' :: (if exponent < 0 then '-' else '+') ::
      zeros (layout.exponentWidth - written.length) ++ written

/-- A positive decimal. -/
def decimal (layout : Layout) (d : Decimal) : List Char :=
  let digits := Text.natDigits d.digits
  let exponent : Int := d.place + digits.length - 1
  if layout.least ≤ exponent && exponent ≤ layout.greatest then layout.positional digits d.place
  else layout.scientific digits d.place

/-- The text of a magnitude word. -/
def magnitude (layout : Layout) (word : Nat) : List Char :=
  if word = 0 then layout.positional ['0'] 0
  else if word < Binary64.infinityWord then layout.decimal (Decimal.ofWord word)
  else if word = Binary64.infinityWord then ['i', 'n', 'f']
  else ['n', 'a', 'n']

/-- **Written double.** The missing number has no sign; a negative zero has one. -/
def write (layout : Layout) (x : Float) : String :=
  let word := Binary64.magnitudeWord x
  let digits := layout.magnitude word
  String.ofList
    (if Binary64.isNegative x && word ≤ Binary64.infinityWord then '-' :: digits else digits)

end Layout

end FiniteDifference
