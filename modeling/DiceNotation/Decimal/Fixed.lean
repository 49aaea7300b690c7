import DiceNotation.Binary.Shape
/-!
# Fixed decimal places

A double written with a fixed number of decimal places: its exact binary
value is rounded to that many places, a tie going to the even last digit.
The sign of a negative value stays even when the rounded digits are all
zero, so `-0.04` with one place is `-0.0`.
-/

namespace DiceNotation.Decimal

open DiceNotation.Binary

/-- The digits of `n` with a point before the last `places` of them. -/
def pointAt (places n : Nat) : String :=
  let ds := Nat.toDigits 10 n
  let ds := List.replicate (places + 1 - ds.length) '0' ++ ds
  let cut := ds.length - places
  if places = 0 then String.ofList ds
  else String.ofList (ds.take cut ++ '.' :: ds.drop cut)

/-- A double with `places` decimal places. -/
def fixed (places : Nat) (x : Float) : String :=
  match shapeOf x with
  | .nan => "nan"
  | .infinite negative => if negative then "-inf" else "inf"
  | .finite f =>
    let num := f.mantissa * Nat.pow 2 f.exponent.toNat * Nat.pow 10 places
    let den := Nat.pow 2 (-f.exponent).toNat
    (if f.negative then "-" else "") ++ pointAt places (roundHalfEven num den)

example : pointAt 1 12 = "1.2" ∧ pointAt 5 3 = "0.00003" ∧ pointAt 0 7 = "7" := by decide

end DiceNotation.Decimal
