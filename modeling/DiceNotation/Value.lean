import DiceNotation.Fault
import DiceNotation.Decimal.Read
import DiceNotation.Decimal.Notation
/-!
# Numbers of an evaluation

Evaluating a command yields numbers of two sorts: exact integers, which
arise only as the neutral results of statements that produce no number, and
doubles, which every literal and every throw becomes.  Integers and doubles
mix as in arithmetic: an integer next to a double is first turned into the
nearest double.

The text of a number is its decimal for an integer, and for a double the
shortest decimal that reads back, written positionally from `1e-4` up to
`1e16` with `.0` after an integral value, and with an exponent of at least
two digits otherwise.
-/

namespace DiceNotation

/-- A number of an evaluation. -/
inductive Value where
  | int (n : Int)
  | float (x : Float)
  deriving Repr, Inhabited

namespace Value

/-- The notation of doubles in reports and answers. -/
def layout : Decimal.Notation :=
  { lowest := -4, limit := 16, pointZero := true, mark := 'e', plusSign := true,
    exponentDigits := 2, nanText := "nan", infinityText := "inf" }

/-- The text of a number. -/
def text : Value → String
  | int n => intText n
  | float x => layout.write x

/-- The double nearest to an integer, refused beyond the largest double. -/
def intToFloat (n : Int) : Except Fault Float :=
  let x := Binary.ofInt n
  if Binary.isFinite x then .ok x else .error .integerTooLarge

/-- A number as a double. -/
def toFloat : Value → Except Fault Float
  | int n => intToFloat n
  | float x => .ok x

/-- The integer part of a double, rounding toward zero; infinities and NaN have none. -/
def floatToInt (x : Float) : Except Fault Int :=
  match Binary.shapeOf x with
  | .nan => .error .nanToInteger
  | .infinite _ => .error .infiniteToInteger
  | .finite f => .ok f.truncate

/-- A number as an integer, rounding a double toward zero. -/
def toInt : Value → Except Fault Int
  | int n => .ok n
  | float x => floatToInt x

/-- The double a numeral stands for. -/
def ofNumeral (text : String) : Except Fault Float :=
  match Decimal.readFloat? text with
  | some x => .ok x
  | none => .error (.notNumeral text)

/-- The bound of signed machine words: a word holds the integers from
`-wordBound` up to, but not including, `wordBound`. -/
def wordBound : Int := Int.ofNat (Nat.pow 2 63)

/-- Whether an integer fits a signed machine word, as a list index or a
number of copies must. -/
def fitsWord (n : Int) : Bool :=
  decide (-wordBound ≤ n ∧ n < wordBound)

example : (int 3).text = "3" ∧ (int (-12)).text = "-12" := by decide

end Value

end DiceNotation
