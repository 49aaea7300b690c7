/-!
# The shape of a double

A double is a NaN, an infinity with a sign, or a finite binary fraction
`(-1)^negative · mantissa · 2^exponent`.  Decoding reads these parts off the
64 bits; `nearest` goes the other way, from an exact fraction of naturals to
the double nearest to it, a tie going to the even mantissa, with the
subnormal range and overflow to infinity as the binary64 format has them.
-/

namespace DiceNotation.Binary

/-- A finite double as an exact binary fraction. -/
structure Fraction where
  negative : Bool
  mantissa : Nat
  exponent : Int
  deriving DecidableEq, Repr

/-- The kinds of double. -/
inductive Shape where
  | nan
  | infinite (negative : Bool)
  | finite (value : Fraction)
  deriving DecidableEq, Repr

/-- The parts of a double: sign bit, 11 exponent bits, 52 fraction bits. -/
def shapeOf (x : Float) : Shape :=
  let bits := x.toBits.toNat
  let negative := decide (Nat.pow 2 63 ≤ bits)
  let biased : Nat := bits / Nat.pow 2 52 % Nat.pow 2 11
  let fraction : Nat := bits % Nat.pow 2 52
  if biased = 2047 then
    if fraction = 0 then .infinite negative else .nan
  else if biased = 0 then .finite ⟨negative, fraction, -1074⟩
  else .finite ⟨negative, fraction + Nat.pow 2 52, (biased : Int) - 1075⟩

/-- The double with the given sign bit and the low 63 bits. -/
def ofParts (negative : Bool) (magnitude : Nat) : Float :=
  Float.ofBits (UInt64.ofNat ((if negative then Nat.pow 2 63 else 0) + magnitude))

/-- An infinity with a sign. -/
def infinity (negative : Bool) : Float :=
  ofParts negative (2047 * Nat.pow 2 52)

/-- A quiet NaN. -/
def nan : Float :=
  Float.ofBits 0x7ff8000000000000

/-- A zero with a sign. -/
def zero (negative : Bool) : Float :=
  ofParts negative 0

/-- `num / den` rounded to the nearest natural, a tie going to the even one. -/
def roundHalfEven (num den : Nat) : Nat :=
  let q := num / den
  let r := num % den
  if 2 * r < den then q
  else if den < 2 * r then q + 1
  else if q % 2 = 0 then q else q + 1

/-- `num / (den · 2^e)`, for an exponent of either sign. -/
def scaled (num den : Nat) (e : Int) : Nat × Nat :=
  (num * Nat.pow 2 (-e).toNat, den * Nat.pow 2 e.toNat)

/-- The binary exponent at which `num / den` has a 53-bit mantissa, but no
lower than the exponent of the subnormals. -/
def exponentFor (num den : Nat) : Int :=
  let e₀ : Int := (Nat.log2 num : Int) - Nat.log2 den - 52
  let (n, d) := scaled num den e₀
  let e := if n / d < Nat.pow 2 52 then e₀ - 1 else e₀
  max e (-1074)

/-- The double nearest to `(-1)^negative · num / den`; ties go to the even
mantissa, and a value past the largest finite double goes to infinity. -/
def nearest (negative : Bool) (num den : Nat) : Float :=
  if num = 0 ∨ den = 0 then zero negative
  else
    let e := exponentFor num den
    let (n, d) := scaled num den e
    let m := roundHalfEven n d
    let (m, e) := if m = Nat.pow 2 53 then (Nat.pow 2 52, e + 1) else (m, e)
    if 971 < e then infinity negative
    else if m < Nat.pow 2 52 then ofParts negative m
    else ofParts negative ((e + 1075).toNat * Nat.pow 2 52 + (m - Nat.pow 2 52))

/-- The double of an exact binary fraction, rounded if it does not fit. -/
def Fraction.toFloat (f : Fraction) : Float :=
  nearest f.negative (f.mantissa * Nat.pow 2 f.exponent.toNat) (Nat.pow 2 (-f.exponent).toNat)

/-- The double nearest to an integer. -/
def ofInt (n : Int) : Float :=
  nearest (decide (n < 0)) n.natAbs 1

/-- The integer part of a finite double: its value rounded toward zero. -/
def Fraction.truncate (f : Fraction) : Int :=
  let m : Nat := f.mantissa * Nat.pow 2 f.exponent.toNat / Nat.pow 2 (-f.exponent).toNat
  if f.negative then -(m : Int) else m

/-- Whether a double is finite. -/
def isFinite (x : Float) : Bool :=
  match shapeOf x with
  | .finite _ => true
  | _ => false

/-- Whether a double is a NaN. -/
def isNaN (x : Float) : Bool :=
  shapeOf x == .nan

example : roundHalfEven 5 2 = 2 ∧ roundHalfEven 7 2 = 4 ∧ roundHalfEven 8 3 = 3 := by decide

end DiceNotation.Binary
