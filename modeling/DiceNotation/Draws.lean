import DiceNotation.Fault
/-!
# Scripted draws

The faces of throws come from a source of draws.  A scripted source answers
the `k`-th draw below `n` (counting from zero) with the `k`-th value of its
script, cycling, taken modulo `n` with the sign of `n`; without a script it
answers `k` modulo `n`.  A generator answers with pseudo-random numbers
below `n`.  Either counts the draws it has made.
-/

namespace DiceNotation

/-- Where draws come from. -/
inductive Source where
  | script (values : List Int)
  | generator (g : StdGen)
  deriving Repr

/-- A source of draws and how many it has made. -/
structure Draws where
  source : Source := .script []
  made : Nat := 0
  deriving Repr

namespace Draws

/-- The answer of the next draw below a nonzero bound, and the source after it. -/
def answer (d : Draws) (bound : Int) : Int × Source :=
  match d.source with
  | .script [] => (Int.fmod d.made bound, d.source)
  | .script s => (Int.fmod (s[d.made % s.length]?.getD 0) bound, d.source)
  | .generator g =>
    let (r, g') := randNat g 0 (bound.natAbs - 1)
    (Int.fmod r bound, .generator g')

/-- One draw below a bound; a bound of zero is refused, but the draw is counted. -/
def below (d : Draws) (bound : Int) : Draws × Except Fault Int :=
  if bound = 0 then ({ d with made := d.made + 1 }, .error .drawBelowZero)
  else
    let (r, source) := d.answer bound
    ({ source, made := d.made + 1 }, .ok r)

/-- A number from `lo` to `hi`: refused unless `hi` is positive and `lo` is not
negative, `1` without a draw when the two are equal, and otherwise `lo` plus a
draw below `hi - lo + 1`. -/
def uniform (d : Draws) (lo hi : Int) : Draws × Except Fault Int :=
  if hi ≤ 0 ∨ lo < 0 then (d, .error (.eval .emptyRange))
  else if hi - lo = 0 then (d, .ok 1)
  else
    let (d', r) := d.below (hi - lo + 1)
    (d', (lo + ·) <$> r)

/-- `count` faces of a die with `sides` sides, in the order drawn. -/
def faces (d : Draws) (sides : Int) : Nat → Draws × Except Fault (List Int)
  | 0 => (d, .ok [])
  | n + 1 =>
    let (d₁, first) := d.uniform 1 sides
    match first with
    | .error f => (d₁, .error f)
    | .ok x =>
      let (d₂, rest) := d₁.faces sides n
      (d₂, (x :: ·) <$> rest)

end Draws

end DiceNotation
