import DiceNotation.Decimal.Shortest
/-!
# Writing a double in shortest form

A notation decides how the shortest decimal of a double is written: which
decimal exponents are written positionally, whether an integral number keeps
a point and a zero, how the exponent is marked, signed and padded, and how
NaN and the infinities are spelled.
-/

namespace DiceNotation.Decimal

open DiceNotation.Binary

/-- The choices of a notation for doubles. -/
structure Notation where
  /-- The decimal exponent of the first digit is written positionally when
  `lowest ≤ exponent < limit`. -/
  lowest : Int
  limit : Int
  /-- Whether an integral number written positionally ends in `.0`. -/
  pointZero : Bool
  /-- The letter before the exponent. -/
  mark : Char
  /-- Whether a nonnegative exponent carries a plus sign. -/
  plusSign : Bool
  /-- The least number of exponent digits. -/
  exponentDigits : Nat
  nanText : String
  infinityText : String

/-- The ASCII digits of a natural. -/
def digitsOf (n : Nat) : List Char :=
  Nat.toDigits 10 n

/-- The text of the decimal `d.significand · 10^d.exponent`, without sign. -/
def Notation.writeDecimal (N : Notation) (d : Scientific) : String :=
  let ds := digitsOf d.significand
  let lead : Int := d.exponent + ds.length - 1
  if N.lowest ≤ lead ∧ lead < N.limit then
    if 0 ≤ d.exponent then
      let whole := ds ++ List.replicate d.exponent.toNat '0'
      String.ofList (if N.pointZero then whole ++ ['.', '0'] else whole)
    else if 0 ≤ lead then
      let cut := (lead + 1).toNat
      String.ofList (ds.take cut ++ '.' :: ds.drop cut)
    else
      String.ofList ('0' :: '.' :: List.replicate (-lead - 1).toNat '0' ++ ds)
  else
    let body := match ds with
      | [] => []
      | c :: [] => [c]
      | c :: rest => c :: '.' :: rest
    let exp := digitsOf lead.natAbs
    let sign := if lead < 0 then ['-'] else if N.plusSign then ['+'] else []
    String.ofList (body ++ N.mark :: sign ++
      List.replicate (N.exponentDigits - exp.length) '0' ++ exp)

/-- The text of a double in a notation. -/
def Notation.write (N : Notation) (x : Float) : String :=
  match shapeOf x with
  | .nan => N.nanText
  | .infinite negative => (if negative then "-" else "") ++ N.infinityText
  | .finite f =>
    let sign := if f.negative then "-" else ""
    if f.mantissa = 0 then sign ++ N.writeDecimal ⟨0, 0⟩
    else sign ++ N.writeDecimal (shortest f.mantissa f.exponent)

end DiceNotation.Decimal
