/-!
# Symbols of a text

The code units from `0xd800` to `0xdfff` come in pairs, and no character stands for one of them on its
own.  A text that holds such a half is a string in which the mark, the last of all characters, stands in
front of a character that carries the unit; the mark itself is written twice.  `Text.symbols` reads the
symbols of a string and `Text.spell` writes them.
-/

namespace FiniteDifference.Text

/-- **Symbols.** A character, or half of a pair of code units. -/
inductive Symbol where
  | char (c : Char)
  | half (unit : Nat)
  deriving DecidableEq, Repr

/-- The character in front of one that carries half a pair. -/
def halfMark : Char := Char.ofNat 0x10ffff

/-- The distance from a code unit to the character that carries it, which is one for private use. -/
def carrierDistance : Nat := 0x100000

/-- The character that carries half a pair. -/
def halfCarrier (unit : Nat) : Char := Char.ofNat (carrierDistance + unit)

/-- **Spelling.** The characters that write a symbol. -/
def spell : Symbol → List Char
  | .char c => if c = halfMark then [halfMark, halfMark] else [c]
  | .half unit => [halfMark, halfCarrier unit]

/-- The symbol that a character after the mark stands for. -/
def marked (c : Char) : Symbol :=
  if c = halfMark then .char halfMark else .half (c.toNat - carrierDistance)

/-- **Symbols of a text.** A mark at the very end stands for itself. -/
def symbols : List Char → List Symbol
  | [] => []
  | [c] => [.char c]
  | c :: d :: rest =>
    if c = halfMark then marked d :: symbols rest else .char c :: symbols (d :: rest)

end FiniteDifference.Text
