import DiceNotation.Throw
import DiceNotation.Value.Arith
import DiceNotation.Decimal.Fixed
/-!
# The tally of an evaluation

A tally holds what an evaluation has rolled and the scratch state the
evaluation works with: the throws in the order they were rolled, the total
of each colour in the order the colours first got a total, drops waiting for
the next throw, a stack of colour tags, and how deep the evaluation is inside
operator chains.  Totals are only credited, and tags only taken, at depth 0:
inside a chain the chain itself credits its result once it is complete.

An evaluation runs against a tally and a source of draws; a fault stops it
but keeps whatever the tally and the draws were when it happened.
-/

namespace DiceNotation

/-- What an evaluation has rolled, and its scratch state. -/
structure Tally where
  /-- The throws in the order they were rolled. -/
  throws : Array Throw := #[]
  /-- The total of each colour, in the order the colours first got one. -/
  totals : List (String × Value) := []
  dropHighest : Int := 0
  dropLowest : Int := 0
  /-- The colour tags waiting, the most recent first. -/
  colours : List String := []
  depth : Int := 0
  limits : Limits := {}
  deriving Repr

/-- A tally and the draws, as an evaluation changes them. -/
structure Session where
  tally : Tally
  draws : Draws
  deriving Repr

/-- A step of an evaluation: it changes the session and gives a result or a
fault, keeping the session as it was when the fault happened. -/
abbrev Eval := EStateM Fault Session

namespace Tally

/-- Adds to the total of a colour, keeping the order in which colours first got a total. -/
def credit (totals : List (String × Value)) (colour : String) (v : Value) :
    Except Fault (List (String × Value)) :=
  match totals with
  | [] => do
    let sum ← Value.add (.int 0) v
    return [(colour, sum)]
  | (c, w) :: rest =>
    if c = colour then do
      let sum ← Value.add w v
      return (c, sum) :: rest
    else do
      let rest' ← credit rest colour v
      return (c, w) :: rest'

/-- The colour tags from the oldest to the most recent. -/
def colourStack (t : Tally) : List String :=
  t.colours.reverse

/-- The throws in the order they were rolled. -/
def rolled (t : Tally) : List Throw :=
  t.throws.toList

end Tally

namespace Eval

/-- Runs a change of the tally that cannot fail. -/
def modifyTally (f : Tally → Tally) : Eval Unit :=
  modify fun s => { s with tally := f s.tally }

def getTally : Eval Tally := do
  return (← get).tally

/-- Lifts a result that cannot change the session. -/
def lift {α : Type} (r : Except Fault α) : Eval α :=
  match r with
  | .ok a => pure a
  | .error f => throw f

/-- Puts a colour tag on the stack. -/
def pushColour (colour : String) : Eval Unit :=
  modifyTally fun t => { t with colours := colour :: t.colours }

/-- Takes the most recent colour tag off the stack, or the empty colour if there is none. -/
def popColour : Eval String := do
  let t ← getTally
  match t.colours with
  | c :: rest =>
    modifyTally fun t => { t with colours := rest }
    return c
  | [] => return ""

/-- Credits a value to a colour, at depth 0 only. -/
def addToColour (colour : String) (v : Value) : Eval Unit := do
  let t ← getTally
  if t.depth = 0 then
    let totals ← lift (Tally.credit t.totals colour v)
    modifyTally fun t => { t with totals }

/-- The throw `offset` places below the most recent one: the throw at place
`-offset - 1`, where a negative place counts back from the end, so that a
negative offset counts from the first throw instead (`-1` is the first).
None when nothing was rolled; a place beyond a machine word, or outside the
throws, is refused. -/
def top (offset : Int) : Eval (Option Throw) := do
  let t ← getTally
  if t.throws.isEmpty then return none
  else
    let place := -offset - 1
    if !Value.fitsWord place then throw .indexBeyondWord
    let n : Int := t.throws.size
    let i := if place < 0 then place + n else place
    if 0 ≤ i ∧ i < n then return t.throws[i.toNat]?
    else throw .missingItem

/-- Rolls a throw and records it: at depth 0 it takes the most recent colour
tag; it takes the waiting drops, which are then cleared; its total is credited
to its colour. -/
def pushAndRoll (throw : Throw) : Eval Int := do
  let depth := (← getTally).depth
  let colour ← if depth = 0 then popColour else pure throw.colour
  let (high, low, limits) := ((← getTally).dropHighest, (← getTally).dropLowest, (← getTally).limits)
  let throw := { throw with colour, dropHighest := high, dropLowest := low }
  modifyTally fun t => { t with dropHighest := 0, dropLowest := 0 }
  let s ← get
  let (draws, rolled) := throw.roll limits s.draws
  set { s with draws }
  let rolled ← lift rolled
  modifyTally fun t => { t with throws := t.throws.push rolled }
  addToColour rolled.colour (.int rolled.total)
  return rolled.total

/-- Gives the most recent `n` throws a colour. -/
def recolour (n : Nat) (colour : String) : Eval Unit :=
  let paint (a : Array Throw) (k : Nat) : Array Throw :=
    a.modify (a.size - 1 - k) fun th => { th with colour }
  modifyTally fun t => { t with throws := (List.range n).foldl paint t.throws }

end Eval

namespace Tally

/-- The text of the colour totals: the total alone with one decimal when the
only colour is the empty one and its total is not zero, otherwise each colour
(the empty one called `Unspecified`) with its total, joined by commas. -/
def colourText (totals : List (String × Value)) : Except Fault String := do
  let fixed (v : Value) : Except Fault String := (Decimal.fixed 1 ·) <$> v.toFloat
  match totals with
  | [("", v)] =>
    if v.isZero then return "Unspecified: " ++ (← fixed v)
    else fixed v
  | _ => do
    let parts ← totals.mapM fun (c, v) => do
      return (if c.isEmpty then "Unspecified" else c) ++ ": " ++ (← fixed v)
    return ", ".intercalate parts

/-- The record of a tally with every field named. -/
def record (t : Tally) : String :=
  "DiceSet(dice=[" ++ ", ".intercalate (t.rolled.map Throw.record) ++ "], totals_by_color=\x7b" ++
    ", ".intercalate (t.totals.map fun (c, v) => Text.quote c ++ ": " ++ v.text) ++
    "\x7d, drop_highest=" ++ intText t.dropHighest ++ ", drop_lowest=" ++ intText t.dropLowest ++
    ", colors=[" ++ ", ".intercalate (t.colourStack.map Text.quote) ++ "], color_depth=" ++
    intText t.depth ++ ")"

end Tally

end DiceNotation
