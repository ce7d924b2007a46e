import FiniteDifference.Text.Printable
import FiniteDifference.Text.Symbol

/-!
# Quoted text

The form in which a message shows a text: between quotation marks, with a backslash in front of
what would end or garble it, and with the code point of every unprintable character in hexadecimal.
-/

namespace FiniteDifference.Text

/-- The hexadecimal digits of a number in lower case, padded with zeros to a width. -/
def hexPadded (width n : Nat) : List Char :=
  let digits := Nat.toDigits 16 n
  List.replicate (width - digits.length) '0' ++ digits

/-- **Choice of quotation mark.** Single quotes, unless the text holds a single quote and no double
one. -/
def quoteMark (s : List Char) : Char :=
  if s.contains '\'' && !s.contains '"' then '"' else '\''

/-- The escape of a code point. -/
def escapeCode (code : Nat) : List Char :=
  if code < 0x100 then '\\' :: 'x' :: hexPadded 2 code
  else if code < 0x10000 then '\\' :: 'u' :: hexPadded 4 code
  else '\\' :: 'U' :: hexPadded 8 code

/-- One character of a text between the quotation marks `mark`. -/
def escapeChar (mark c : Char) : List Char :=
  if c == mark || c == '\\' then ['\\', c]
  else if c == '\n' then ['\\', 'n']
  else if c == '\r' then ['\\', 'r']
  else if c == '\t' then ['\\', 't']
  else if isPrintable c then [c]
  else escapeCode c.toNat

/-- One symbol of a text between the quotation marks `mark`. -/
def escapeSymbol (mark : Char) : Symbol → List Char
  | .char c => escapeChar mark c
  | .half unit => escapeCode unit

/-- **Quoted text.** -/
def quote (s : String) : String :=
  let mark := quoteMark s.toList
  String.ofList (mark :: (symbols s.toList).flatMap (escapeSymbol mark) ++ [mark])

end FiniteDifference.Text
