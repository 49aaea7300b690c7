import DiceNotation.Draws
import DiceNotation.Text.Quote
/-!
# Throws

A throw is a number of dice with the same number of sides.  Rolling it
draws one face per die, sorts the faces, and keeps all but the dropped ones:
with highest drops, the faces below the highest ones; otherwise, with lowest
drops, the faces above the lowest ones.  Before any draw, a throw is
refused when it has more dice or more sides than the limits allow, fewer than
one side, a negative count, or more drops than dice.  A throw that already
has a nonzero total is not rolled again.

The least and greatest totals of a rolled throw are the kept count and the
kept count times the sides.
-/

namespace DiceNotation

/-- A throw of dice. -/
structure Throw where
  count : Int
  sides : Int
  total : Int := 0
  faces : List Int := []
  least : Int := 0
  greatest : Int := 0
  dropHighest : Int := 0
  dropLowest : Int := 0
  colour : String := ""
  deriving Repr, Inhabited

/-- The most dice and sides a throw may have. -/
structure Limits where
  dice : Int := 1000
  sides : Int := 1000
  deriving Repr

namespace Throw

/-- The items before index `stop`, where a negative stop counts from the end. -/
def takeUntil (xs : List Int) (stop : Int) : List Int :=
  if stop < 0 then xs.take (xs.length - stop.natAbs) else xs.take stop.toNat

/-- The items from index `start` on. -/
def dropUntil (xs : List Int) (start : Int) : List Int :=
  if start < 0 then xs.drop (xs.length - start.natAbs) else xs.drop start.toNat

/-- Puts a face among faces in increasing order, before the first that is not smaller. -/
def insertFace (x : Int) : List Int → List Int
  | [] => [x]
  | y :: ys => if x ≤ y then x :: y :: ys else y :: insertFace x ys

/-- Faces in increasing order. -/
def sortFaces : List Int → List Int
  | [] => []
  | x :: xs => insertFace x (sortFaces xs)

/-- The total of the kept faces among sorted faces. -/
def keptTotal (count high low : Int) (sorted : List Int) : Int :=
  let sum (xs : List Int) : Int := xs.foldr (· + ·) 0
  if 0 < high then sum (takeUntil sorted (count - high))
  else if 0 < low then sum (dropUntil sorted low)
  else sum sorted

/-- Why a throw cannot be rolled, checked in this order. -/
def refusal? (limits : Limits) (count sides high low : Int) : Option EvalFault :=
  if limits.dice < count then some .tooManyDice
  else if limits.sides < sides then some .tooManySides
  else if sides < 1 then some .noSides
  else if count < 0 then some .negativeCount
  else if count < high + low then some (.overDrop (high + low) count)
  else none

/-- Sorted faces and the kept total of `count` dice with `sides` sides, drawn from a source. -/
def rollFaces (limits : Limits) (count sides high low : Int) (d : Draws) :
    Draws × Except Fault (List Int × Int) :=
  match refusal? limits count sides high low with
  | some f => (d, .error (.eval f))
  | none =>
    let (d', drawn) := d.faces sides count.toNat
    (d', drawn.map fun fs =>
      let sorted := sortFaces fs
      (sorted, keptTotal count high low sorted))

/-- Rolls a throw with its drops, unless it has a total already. -/
def roll (limits : Limits) (t : Throw) (d : Draws) : Draws × Except Fault Throw :=
  if t.total ≠ 0 then (d, .ok t)
  else
    let (d', r) := rollFaces limits t.count t.sides t.dropHighest t.dropLowest d
    (d', r.map fun (faces, total) =>
      let kept := t.count - (t.dropHighest + t.dropLowest)
      { t with faces, total, least := kept, greatest := kept * t.sides })

/-- The faces of a throw, joined by commas. -/
def facesText (faces : List Int) : String :=
  ", ".intercalate (faces.map intText)

/-- The text of a throw: dice, drops, faces, total and colour. -/
def text (t : Throw) : String :=
  intText t.count ++ "d" ++ intText t.sides ++
    (if t.dropHighest ≠ 0 then "-H" ++ intText t.dropHighest else "") ++
    (if t.dropLowest ≠ 0 then "-L" ++ intText t.dropLowest else "") ++
    ": " ++ facesText t.faces ++ " (" ++ intText t.total ++ ")" ++
    (if t.colour.isEmpty then "" else " " ++ t.colour)

/-- The record of a throw with every field named. -/
def record (t : Throw) : String :=
  "Dice(count=" ++ intText t.count ++ ", sides=" ++ intText t.sides ++
    ", total=" ++ intText t.total ++ ", faces=[" ++ facesText t.faces ++
    "], min=" ++ intText t.least ++ ", max=" ++ intText t.greatest ++
    ", drop_highest=" ++ intText t.dropHighest ++ ", drop_lowest=" ++ intText t.dropLowest ++
    ", color=" ++ Text.quote t.colour ++ ")"

end Throw

end DiceNotation
