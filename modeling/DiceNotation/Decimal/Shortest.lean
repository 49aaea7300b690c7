import DiceNotation.Binary.Shape
/-!
# Shortest decimal digits of a double

Every positive double owns the interval of reals that round to it.  The
shortest decimal of the double is the decimal with the fewest significant
digits inside that interval; of two such decimals with as many digits, the
nearer to the double wins, and an exact tie goes to the even one.  For each
digit count the only candidates are the two neighbours of the double on the
decimal grid of that count, and seventeen digits always suffice.
-/

namespace DiceNotation.Decimal

open DiceNotation.Binary

/-- A decimal `significand · 10^exponent`. -/
structure Scientific where
  significand : Nat
  exponent : Int
  deriving DecidableEq, Repr

/-- The number of decimal digits of a natural (one for zero). -/
def digitCount (n : Nat) : Nat :=
  (Nat.toDigits 10 n).length

/-- Compares `d · 10^s` with `x · 2^t` exactly. -/
def compareScaled (d : Nat) (s : Int) (x : Nat) (t : Int) : Ordering :=
  compare (d * Nat.pow 10 s.toNat * Nat.pow 2 (-t).toNat) (x * Nat.pow 2 t.toNat * Nat.pow 10 (-s).toNat)

/-- The largest `k` with `10^k ≤ num / den`, for positive `num` and `den`. -/
def floorLog10 (num den : Nat) : Int :=
  let c : Int := (digitCount num : Int) - digitCount den
  if den * Nat.pow 10 c.toNat ≤ num * Nat.pow 10 (-c).toNat then c else c - 1

/-- The rounding interval of the positive double `m · 2^q`, in units of `2^(q-2)`:
its ends, and whether they belong to it (they do when `m` is even). -/
structure Interval where
  low : Nat
  high : Nat
  closed : Bool

/-- The reals that round to `m · 2^q`: halfway to each neighbour, where the lower
neighbour is nearer when `m` is the smallest mantissa of a binade above the subnormals. -/
def Interval.of (m : Nat) (q : Int) : Interval :=
  { low := if m = Nat.pow 2 52 ∧ -1074 < q then 4 * m - 1 else 4 * m - 2
    high := 4 * m + 2
    closed := m % 2 = 0 }

/-- Whether `d · 10^s` rounds to the double `m · 2^q` with interval `I`. -/
def Interval.holds (I : Interval) (q : Int) (d : Nat) (s : Int) : Bool :=
  let lo := compareScaled d s I.low (q - 2)
  let hi := compareScaled d s I.high (q - 2)
  if I.closed then lo != .lt && hi != .gt else lo == .gt && hi == .lt

/-- The decimal of `n` significant digits nearest to `m · 2^q` that rounds to it, if any. -/
def candidate (m : Nat) (q : Int) (e : Int) (n : Nat) : Option Nat :=
  let s := e - n + 1
  let num := m * Nat.pow 2 q.toNat * Nat.pow 10 (-s).toNat
  let den := Nat.pow 2 (-q).toNat * Nat.pow 10 s.toNat
  let down := num / den
  let I := Interval.of m q
  let inDown := I.holds q down s
  let inUp := I.holds q (down + 1) s
  if inDown ∧ inUp then
    -- twice the value against the midpoint of the two neighbours
    match compare (2 * num) ((2 * down + 1) * den) with
    | .lt => some down
    | .gt => some (down + 1)
    | .eq => some (if down % 2 = 0 then down else down + 1)
  else if inDown then some down
  else if inUp then some (down + 1)
  else none

/-- Removes trailing zeros of the significand, raising the exponent. -/
def Scientific.trim (d : Scientific) : Scientific :=
  if h : 0 < d.significand ∧ d.significand % 10 = 0 then
    Scientific.trim ⟨d.significand / 10, d.exponent + 1⟩
  else d
termination_by d.significand
decreasing_by exact Nat.div_lt_self h.1 (by decide)

/-- The shortest decimal that rounds to the positive double `m · 2^q`. -/
def shortest (m : Nat) (q : Int) : Scientific :=
  let e := floorLog10 (m * Nat.pow 2 q.toNat) (Nat.pow 2 (-q).toNat)
  let first := (List.range 17).findSome? fun i =>
    (candidate m q e (i + 1)).map fun d => (⟨d, e - i⟩ : Scientific)
  (first.getD ⟨m, 0⟩).trim

example : shortest 1 (-1074) = ⟨5, -324⟩ := by decide +kernel

end DiceNotation.Decimal
