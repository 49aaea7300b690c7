/-!
# Blank characters

A blank is a character that separates words: the ASCII spaces and controls
`\t \n \v \f \r`, the information separators `\x1c` to `\x1f`, and every
Unicode 14.0 space or line and paragraph separator.  Trimming removes blanks
from both ends of a text.
-/

namespace DiceNotation.Text

/-- The code points of the blank characters. -/
def blankCodes : List Nat :=
  [0x9, 0xa, 0xb, 0xc, 0xd, 0x1c, 0x1d, 0x1e, 0x1f, 0x20, 0x85, 0xa0, 0x1680,
   0x2000, 0x2001, 0x2002, 0x2003, 0x2004, 0x2005, 0x2006, 0x2007, 0x2008, 0x2009,
   0x200a, 0x2028, 0x2029, 0x202f, 0x205f, 0x3000]

/-- Whether a character separates words. -/
def isBlank (c : Char) : Bool :=
  blankCodes.contains c.toNat

/-- The characters of a text without its leading and trailing blanks. -/
def trimChars (cs : List Char) : List Char :=
  ((cs.dropWhile isBlank).reverse.dropWhile isBlank).reverse

/-- A text without its leading and trailing blanks. -/
def trim (s : String) : String :=
  String.ofList (trimChars s.toList)

theorem isBlank_of_isWhitespace {c : Char} (h : c.isWhitespace = true) : isBlank c = true := by
  simp only [Char.isWhitespace, Bool.or_eq_true, decide_eq_true_eq] at h
  simp only [isBlank, blankCodes]
  rcases h with ((h | h) | h) | h <;> simp [h]

example : blankCodes.length = 29 := rfl

end DiceNotation.Text
