import DiceNotation.Binary.Shape
import DiceNotation.Text.Blank
import DiceNotation.Text.Decimal
/-!
# Reading a numeral

A numeral is read into the double nearest to its value.  Decimal digits of
any script count as digits and any blank as a space; an underscore may stand
between two digits; spaces around the numeral are ignored.  What is left is
an optional sign followed by `inf`, `infinity` or `nan` in any case, or by
digits with an optional point and an optional exponent `e` or `E` with
optional sign and at least one digit.  At least one digit must stand beside
the point.  Values beyond the largest double read as infinity, and values
below the smallest subnormal read as zero.
-/

namespace DiceNotation.Decimal

open DiceNotation.Binary DiceNotation.Text

/-- A character as the reader sees it: digits of any script become ASCII
digits, blanks outside ASCII become spaces, and any other character outside
ASCII becomes `?`, which no numeral holds. -/
def normalChar (c : Char) : Char :=
  if c.toNat < 127 then c
  else if isBlank c then ' '
  else match decimalValue? c with
    | some d => Char.ofNat (0x30 + d)
    | none => '?'

/-- The ASCII spaces that may surround a numeral. -/
def isSpace (c : Char) : Bool :=
  c = ' ' ∨ c = '\t' ∨ c = '\n' ∨ c = '\x0b' ∨ c = '\x0c' ∨ c = '\r'

/-- Whether every underscore stands between two digits, given the character before. -/
def underscoresOk : Option Char → List Char → Bool
  | _, [] => true
  | prev, '_' :: rest =>
    (prev.map Char.isDigit).getD false &&
      (match rest with
       | c :: _ => c.isDigit
       | [] => false) &&
      underscoresOk (some '_') rest
  | _, c :: rest => underscoresOk (some c) rest

/-- The value of a list of ASCII digits. -/
def digitsValue (ds : List Char) : Nat :=
  ds.foldl (fun n c => 10 * n + (c.toNat - 48)) 0

/-- Whether a text equals an ASCII word, ignoring the case of letters. -/
def sameWord (cs : List Char) (word : String) : Bool :=
  cs.map Char.toLower == word.toList

/-- The double nearest to `digits · 10^exponent`, with a sign. -/
def scaledValue (negative : Bool) (digits : Nat) (exponent : Int) : Float :=
  let width : Int := digitCountOf digits
  if digits = 0 then zero negative
  else if 310 < width + exponent then infinity negative
  else if width + exponent < -330 then zero negative
  else nearest negative (digits * Nat.pow 10 exponent.toNat) (Nat.pow 10 (-exponent).toNat)
where
  digitCountOf (n : Nat) : Nat := (Nat.toDigits 10 n).length

/-- Reads an exponent: an optional sign and at least one digit, nothing after. -/
def readExponent (cs : List Char) : Option Int :=
  let (negative, ds) := match cs with
    | '-' :: rest => (true, rest)
    | '+' :: rest => (false, rest)
    | _ => (false, cs)
  if ds.isEmpty || !ds.all Char.isDigit then none
  else some (if negative then -(digitsValue ds : Int) else digitsValue ds)

/-- Reads an unsigned decimal numeral: digits, optional point and digits, optional exponent. -/
def readUnsigned (negative : Bool) (cs : List Char) : Option Float :=
  let whole := cs.takeWhile Char.isDigit
  let rest := cs.dropWhile Char.isDigit
  let (fraction, rest) := match rest with
    | '.' :: more => (more.takeWhile Char.isDigit, more.dropWhile Char.isDigit)
    | _ => ([], rest)
  if whole.isEmpty && fraction.isEmpty then none
  else
    let exponent : Option Int := match rest with
      | [] => some 0
      | c :: more => if c = 'e' ∨ c = 'E' then readExponent more else none
    exponent.map fun e =>
      scaledValue negative (digitsValue (whole ++ fraction)) (e - fraction.length)

/-- Reads a numeral after its spaces are removed. -/
def readTrimmed (cs : List Char) : Option Float :=
  let (negative, body) := match cs with
    | '-' :: rest => (true, rest)
    | '+' :: rest => (false, rest)
    | _ => (false, cs)
  if sameWord body "inf" || sameWord body "infinity" then some (infinity negative)
  else if sameWord body "nan" then some nan
  else readUnsigned negative body

/-- The double a numeral stands for, or `none` if the text is no numeral. -/
def readFloat? (s : String) : Option Float :=
  let cs := s.toList.map normalChar
  if cs.contains '_' && !underscoresOk none cs then none
  else
    let cs := cs.filter (· != '_')
    let cs := ((cs.dropWhile isSpace).reverse.dropWhile isSpace).reverse
    if cs.isEmpty then none else readTrimmed cs

end DiceNotation.Decimal
