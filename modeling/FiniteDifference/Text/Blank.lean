/-!
# Blank characters

Three classes of white space.  `Text.isBlank` is the wide class of the Unicode standard; the narrow
class `Text.isAsciiBlank` holds the six characters that may surround a written number once every
wider blank has been replaced by a space.  `Text.isSpace` adds the four separators of records, which
may surround a written fraction.
-/

namespace FiniteDifference.Text

/-- The six ASCII blanks: tab, line feed, vertical tab, form feed, carriage return and space. -/
def isAsciiBlank (c : Char) : Bool :=
  c == ' ' || (9 ≤ c.toNat && c.toNat ≤ 13)

/-- The code points of the blanks beyond ASCII. -/
def wideBlanks : List Nat :=
  [0x85, 0xa0, 0x1680, 0x2000, 0x2001, 0x2002, 0x2003, 0x2004, 0x2005, 0x2006, 0x2007, 0x2008,
    0x2009, 0x200a, 0x2028, 0x2029, 0x202f, 0x205f, 0x3000]

/-- **Wide blanks.** White space outside the ASCII range. -/
def isWideBlank (c : Char) : Bool :=
  wideBlanks.contains c.toNat

/-- **Blanks.** An ASCII blank or a wide one. -/
def isBlank (c : Char) : Bool :=
  isAsciiBlank c || isWideBlank c

/-- **Spaces.** A blank or one of the four ASCII separators of records. -/
def isSpace (c : Char) : Bool :=
  isBlank c || (0x1c ≤ c.toNat && c.toNat ≤ 0x1f)

/-- **Trimming.** Removes the characters of a class at both ends of a text. -/
def trimBy (outside : Char → Bool) (s : List Char) : List Char :=
  ((s.dropWhile outside).reverse.dropWhile outside).reverse

/-- Removes the ASCII blanks at both ends of a text. -/
def trim (s : List Char) : List Char := trimBy isAsciiBlank s

end FiniteDifference.Text
