/-!
# Double-precision numbers as dyadic rationals

The 64 bits of a double are a sign, eleven bits of exponent and fifty-two bits of fraction.  Read
without its sign, the word is an increasing code of the magnitudes, so rounding is a statement about
natural numbers: `magnitudeValue` decodes a word, `nearestMagnitude` finds the word nearest to a
quotient, and `ceilPowerOfTwo` rounds a word up to one with an empty fraction.
-/

namespace FiniteDifference.Binary64

/-! ## Words -/

/-- The number of fractions that share one exponent. -/
def fractionCount : Nat := 0x10000000000000

/-- The place of the sign bit. -/
def signPlace : Nat := 0x8000000000000000

/-- The magnitude word of infinity; the finite magnitudes are the words below it. -/
def infinityWord : Nat := 0x7ff0000000000000

/-- The word of a double without its sign. -/
def magnitudeWord (x : Float) : Nat := x.toBits.toNat % signPlace

/-- Whether the sign bit is set, which is so also for the negative zero. -/
def isNegative (x : Float) : Bool := signPlace ≤ x.toBits.toNat

/-- Whether a double is neither infinite nor the missing number. -/
def isFinite (x : Float) : Bool := magnitudeWord x < infinityWord

/-- **Positive doubles.** The finite doubles above zero are the words strictly between those of
zero and of infinity. -/
def isPositive (x : Float) : Bool :=
  0 < x.toBits.toNat && x.toBits.toNat < infinityWord

/-- The double with a given word. -/
def ofWord (word : Nat) : Float := Float.ofBits (UInt64.ofNat word)

/-- The double with a given sign and magnitude word. -/
def ofSignedWord (negative : Bool) (word : Nat) : Float :=
  ofWord (if negative then signPlace + word else word)

/-- The double that stands for a missing number. -/
def missing : Float := ofWord 0x7ff8000000000000

/-! ## The value of a word -/

/-- The integer significand of a finite magnitude. -/
def significand (word : Nat) : Nat :=
  if word < fractionCount then word else fractionCount + word % fractionCount

/-- The exponent of the last place of a finite magnitude. -/
def lastPlace (word : Nat) : Int :=
  (Nat.max 1 (word / fractionCount) : Int) - 1075

/-- The rational number `m * 2 ^ k`. -/
def dyadic (m : Nat) (k : Int) : Rat :=
  mkRat (m <<< k.toNat) (1 <<< (-k).toNat)

/-- **Value of a magnitude.** The significand times two to the exponent of the last place. -/
def magnitudeValue (word : Nat) : Rat :=
  dyadic (significand word) (lastPlace word)

/-- **Value of a double.** The rational number that a finite double denotes. -/
def toRat? (x : Float) : Option Rat :=
  if isFinite x then
    let value := magnitudeValue (magnitudeWord x)
    some (if isNegative x then -value else value)
  else none

/-! ## Rounding to nearest -/

/-- The integer nearest to a quotient; a tie goes to the even neighbour. -/
def divNearestEven (n d : Nat) : Nat :=
  let q := n / d
  let r := n % d
  if 2 * r < d then q
  else if d < 2 * r then q + 1
  else if q % 2 = 0 then q
  else q + 1

/-- Whether the quotient of two positive numbers is below `2 ^ k`. -/
def quotientBelow (n d : Nat) (k : Int) : Bool :=
  n <<< (-k).toNat < d <<< k.toNat

/-- The exponent of the last place of the double nearest to a positive quotient. -/
def lastPlaceOfQuotient (n d : Nat) : Int :=
  let high : Int := (Nat.log2 n : Int) - (Nat.log2 d : Int) - 52
  let place := if quotientBelow n d (high + 52) then high - 1 else high
  max place (-1074)

/-- **Rounding to nearest.** The magnitude word nearest to a quotient, infinity when the quotient
rounds beyond the largest finite double.  A significand that rounds up to the next power of two
carries into the exponent by the addition alone. -/
def nearestMagnitude (n d : Nat) : Nat :=
  if n = 0 then 0
  else
    let place := lastPlaceOfQuotient n d
    let m := divNearestEven (n <<< (-place).toNat) (d <<< place.toNat)
    Nat.min infinityWord ((place + 1074).toNat * fractionCount + m)

/-- The double nearest to a rational number. -/
def nearest (q : Rat) : Float :=
  ofSignedWord (q.num < 0) (nearestMagnitude q.num.natAbs q.den)

/-! ## Powers of two -/

/-- **Rounding up to a power of two.** The least power of two that is at least a given positive
double, the least normal one for the subnormal doubles; none beyond the largest power. -/
def ceilPowerOfTwo? (x : Float) : Option Float :=
  let word := magnitudeWord x
  let up :=
    if word % fractionCount = 0 then word
    else (word / fractionCount + 1) * fractionCount
  if up < infinityWord then some (ofWord up) else none

/-- The exponent `k` of a positive double that is `2 ^ k`. -/
def exponentOfTwo? (x : Float) : Option Int :=
  if isPositive x then
    let word := magnitudeWord x
    let m := significand word
    let e := Nat.log2 m
    if 1 <<< e = m then some (lastPlace word + (e : Int)) else none
  else none

/-- The double nearest to `2 ^ k`. -/
def powerOfTwo (k : Int) : Float :=
  if 1024 ≤ k then ofWord infinityWord
  else if -1022 ≤ k then ofWord ((k + 1023).toNat * fractionCount)
  else if -1074 ≤ k then ofWord (1 <<< (k + 1074).toNat)
  else ofWord 0

/-- **Natural powers.** Powers of powers of two are exact; any other power is the one of the
double-precision library. -/
def power (x : Float) (k : Nat) : Float :=
  match exponentOfTwo? x with
  | some e => powerOfTwo (e * (k : Int))
  | none => Float.pow x (nearest k)

end FiniteDifference.Binary64
