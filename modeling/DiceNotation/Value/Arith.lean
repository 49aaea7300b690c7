import DiceNotation.Value
/-!
# Arithmetic on numbers of an evaluation

Two integers give an integer under `+`, `-` and `*`; any double turns the
other operand into a double first.  Division always gives a double, and a
zero divisor is refused.  Sums of operator chains are kept as partial sums
without rounding error and rounded once at the end; a running sum that
overflows is refused, and an infinity or NaN among the terms decides the
result (infinities of both signs make no real number).  Powers follow the usual rules of the special values,
and a power or remainder that is no real number, or a power too large for a
double, is refused.  The remainder has the sign of the dividend and is exact.

Comparisons are exact between integers and doubles; a NaN is unordered and
differs from everything.
-/

namespace DiceNotation.Value

open DiceNotation.Binary

/-- A finite double in units of the smallest subnormal, `2^-1074`. -/
def Fraction.units (f : Fraction) : Int :=
  let m : Int := f.mantissa * Nat.pow 2 (f.exponent + 1074).toNat
  if f.negative then -m else m

/-- A sum of doubles in progress: partial sums that do not overlap, whose
exact sum is the sum of the finite terms so far, smallest first; and apart from
them, the sum of the infinities and NaNs seen and the sum of the infinities. -/
structure Partials where
  parts : Array Float := #[]
  special : Float := 0
  infinities : Float := 0

/-- Adds one term: it is added to each partial sum in turn, the smaller of the
two first, keeping the rounding error of each addition as a new partial sum.
A finite term that makes the running sum overflow is refused; an infinite or
NaN term is set apart and the partial sums are cleared. -/
def Partials.add (s : Partials) (term : Float) : Except Fault Partials :=
  let (kept, x) := s.parts.foldl (fun (kept, x) y =>
      let (x, y) := if x.abs < y.abs then (y, x) else (x, y)
      let hi := x + y
      let lo := y - (hi - x)
      ((if lo != 0 then kept.push lo else kept), hi)) ((#[] : Array Float), term)
  if x != 0 then
    if isFinite x then .ok { s with parts := kept.push x }
    else if isFinite term then .error (.eval .tooLarge)
    else .ok { parts := #[], special := s.special + term,
               infinities := if isNaN term then s.infinities else s.infinities + term }
  else .ok { s with parts := kept }

/-- Adds the partial sums from the largest down while the additions are exact;
at the first inexact one, the result is moved one unit in the last place when
the error and the next partial sum share a sign and halfway cases would
otherwise round the wrong way. -/
def settle (hi : Float) : List Float → Float
  | [] => hi
  | y :: below =>
    let sum := hi + y
    let lo := y - (sum - hi)
    if lo != 0 then
      match below with
      | next :: _ =>
        if (lo < 0 ∧ next < 0) ∨ (0 < lo ∧ 0 < next) then
          let twice := lo * 2
          let moved := sum + twice
          if twice == moved - sum then moved else sum
        else sum
      | [] => sum
    else settle sum below

/-- The value of a sum: the infinities and NaNs set apart decide it if there
were any (infinities of both signs make no real number); otherwise the partial
sums, rounded once. -/
def Partials.total (s : Partials) : Except Fault Float :=
  if s.special != 0 then
    if isNaN s.infinities then .error (.eval .notReal) else .ok s.special
  else
    match s.parts.toList.reverse with
    | [] => .ok 0
    | top :: below => .ok (settle top below)

/-- The remainder of `x` by `y` with the sign of `x`, exact. -/
def remainder (x y : Float) : Except Fault Float :=
  match shapeOf x, shapeOf y with
  | .finite _, .infinite _ => .ok x
  | .nan, _ => .ok x
  | _, .nan => .ok y
  | .finite a, .finite b =>
    if b.mantissa = 0 then .error (.eval .notReal)
    else
      let r := (Fraction.units a).natAbs % (Fraction.units b).natAbs
      .ok (nearest a.negative r (Nat.pow 2 1074))
  | .infinite _, _ => .error (.eval .notReal)

/-- Whether a double is an odd integer. -/
def isOddInteger (y : Float) : Bool :=
  match shapeOf y with
  | .finite f =>
    f.mantissa * Nat.pow 2 f.exponent.toNat % Nat.pow 2 (-f.exponent).toNat = 0 &&
      f.truncate % 2 ≠ 0
  | _ => false

/-- `x` raised to `y`. -/
def power (x y : Float) : Except Fault Float :=
  if isFinite x ∧ isFinite y then
    let r := x ^ y
    if isNaN r then .error (.eval .notReal)
    else if !isFinite r then
      if x == 0 then .error (.eval .notReal) else .error (.eval .tooLarge)
    else .ok r
  else if isNaN x then .ok (if y == 0 then 1 else x)
  else if isNaN y then .ok (if x == 1 then 1 else y)
  else if !isFinite x then
    -- x is infinite
    if y > 0 then .ok (if isOddInteger y then x else infinity false)
    else if y == 0 then .ok 1
    else .ok (if isOddInteger y then zero (x < 0) else zero false)
  else
    -- y is infinite, x finite
    let ax := if x < 0 then -x else x
    if ax == 1 then .ok 1
    else if y > 0 ∧ ax > 1 then .ok y
    else if y < 0 ∧ ax < 1 then .ok (-y)
    else .ok (zero false)

/-- Combines two numbers: integers by `onInt`, otherwise as doubles by `onFloat`. -/
def combine (onInt : Int → Int → Int) (onFloat : Float → Float → Float) (a b : Value) :
    Except Fault Value :=
  match a, b with
  | int m, int n => .ok (int (onInt m n))
  | _, _ => do
    let x ← a.toFloat
    let y ← b.toFloat
    return float (onFloat x y)

def add (a b : Value) : Except Fault Value := combine (· + ·) (· + ·) a b

def sub (a b : Value) : Except Fault Value := combine (· - ·) (· - ·) a b

def mul (a b : Value) : Except Fault Value := combine (· * ·) (· * ·) a b

def neg : Value → Value
  | int n => int (-n)
  | float x => float (-x)

/-- Whether a number is zero. -/
def isZero : Value → Bool
  | int n => n == 0
  | float x => x == 0

/-- The quotient of two numbers as a double; a zero divisor is refused. -/
def div (a b : Value) : Except Fault Value :=
  if b.isZero then .error (.eval .divideByZero)
  else match a, b with
    | int m, int n =>
      let q := nearest (decide ((m < 0) ≠ (n < 0))) m.natAbs n.natAbs
      if isFinite q then .ok (float q) else .error (.eval .tooLarge)
    | _, _ => do
      let x ← a.toFloat
      let y ← b.toFloat
      return float (x / y)

def pow (a b : Value) : Except Fault Value := do
  let x ← a.toFloat
  let y ← b.toFloat
  float <$> power x y

/-- The remainder of two numbers as a double; a zero divisor is refused. -/
def mod (a b : Value) : Except Fault Value :=
  if b.isZero then .error (.eval .divideByZero)
  else do
    let x ← a.toFloat
    let y ← b.toFloat
    float <$> remainder x y

/-- The sum of numbers as a double, rounded once from their exact sum. -/
def sum (xs : List Value) : Except Fault Value := do
  let s ← xs.foldlM (fun (s : Partials) v => do s.add (← v.toFloat)) {}
  float <$> s.total

/-- Adds numbers one after another from the integer zero, rounding at each step. -/
def runningSum (xs : List Value) : Except Fault Value :=
  xs.foldlM add (int 0)

/-- A number exactly: a fraction `num / 2^shift`, or an infinity with its sign. -/
inductive Exact where
  | finite (num : Int) (shift : Nat)
  | infinite (negative : Bool)

/-- A number exactly; a NaN has no exact value. -/
def asExact? : Value → Option Exact
  | int n => some (.finite n 0)
  | float x => match shapeOf x with
    | .finite f =>
      let m : Int := if f.negative then -(f.mantissa : Int) else f.mantissa
      some (.finite (m * Nat.pow 2 f.exponent.toNat) (-f.exponent).toNat)
    | .infinite negative => some (.infinite negative)
    | .nan => none

/-- Where an exact number stands among the infinities: below, between or above. -/
def Exact.rank : Exact → Int
  | .finite _ _ => 0
  | .infinite negative => if negative then -1 else 1

/-- How two numbers compare exactly; `none` when a NaN takes part. -/
def compareExact (a b : Value) : Option Ordering :=
  match asExact? a, asExact? b with
  | some (.finite p s), some (.finite q t) => some (compare (p * Nat.pow 2 t) (q * Nat.pow 2 s))
  | some x, some y => some (compare x.rank y.rank)
  | _, _ => none

end DiceNotation.Value
