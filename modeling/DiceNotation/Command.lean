import DiceNotation.Evaluate
import DiceNotation.Node.Parser
import DiceNotation.Node.Render
import DiceNotation.Node.Faces
import DiceNotation.Odds
import DiceNotation.Sorting
/-!
# Answering a command

A command is read, and each of its statements is evaluated in a tally of its
own, giving one dice set.  A statement that repeats something (`x rep n`, also
after `roll`) gives one dice set per repetition instead: its count is
evaluated first, then the body as many times, and these dice sets are sorted
by their totals.  All draws come from one source, in this order.

Each dice set is shown as its canonical text with the faces filled in and its
total rounded to an integer, halves to even; the answer adds the line
`Total:` with the rounded sum of all totals when there are several sets.
-/

namespace DiceNotation

/-- One dice set: what a statement, or one repetition, rolled. -/
structure Outcome where
  tally : Tally
  total : Value
  text : String
  /-- The distribution of each throw, when asked for. -/
  odds : Option (List (List (Nat × Float)))

/-- The answer to a command: its dice sets in order. -/
structure Response where
  sets : List Outcome

/-- A number rounded to the nearest integer, halves to even. -/
def Value.round : Value → Except Fault Int
  | .int n => .ok n
  | .float x =>
    match Binary.shapeOf x with
    | .nan => .error .nanToInteger
    | .infinite _ => .error .infiniteToInteger
    | .finite f =>
      let m : Nat := Binary.roundHalfEven (f.mantissa * Nat.pow 2 f.exponent.toNat) (Nat.pow 2 (-f.exponent).toNat)
      .ok (if f.negative then -(m : Int) else m)

namespace Outcome

/-- The line of a dice set: its text with faces, and its rounded total. -/
def line (o : Outcome) : Except Fault String := do
  let total ← o.total.round
  return Faces.fill o.text (o.tally.rolled.map (·.faces)) ++ " = *" ++ intText total ++ "*"

end Outcome

namespace Response

/-- The sum of all totals, rounded. -/
def total (r : Response) : Except Fault Int := do
  let sum ← Value.runningSum (r.sets.map (·.total))
  sum.round

/-- The colour totals of all dice sets together, in the order colours first appear. -/
def colourTotals (r : Response) : Except Fault (List (String × Value)) :=
  r.sets.foldlM (fun acc o => o.tally.totals.foldlM (fun acc (c, v) => Tally.credit acc c v) acc) []

/-- The lines of all dice sets, and the grand total when there are several. -/
def text (r : Response) : Except Fault String := do
  let lines ← r.sets.mapM Outcome.line
  if 1 < r.sets.length then
    let total ← r.total
    return "\n".intercalate (lines ++ ["Total: " ++ intText total])
  else return "\n".intercalate lines

end Response

/-- What is evaluated and how often: the body of a repetition, or the statement itself. -/
def Node.repetition? (stmt : Node) : Option (Node × Node) :=
  let inner := match stmt.children with
    | [c] => if stmt.sym = Symbol.rollWord.text then c else stmt
    | _ => stmt
  if inner.sym = Symbol.repWord.text then
    match inner.children with
    | body :: count :: _ => some (body, count)
    | _ => none
  else none

/-- Evaluates one statement into a dice set. -/
def Outcome.of (limits : Limits) (withOdds : Bool) (stmt : Node) (draws : Draws) :
    Draws × Except Fault Outcome :=
  let (session, result) := Node.evaluate limits draws stmt
  (session.draws, do
    let total ← result
    let odds := if withOdds then
        some (session.tally.rolled.map fun t =>
          (Odds.table? t.count t.sides t.dropHighest t.dropLowest).getD [])
      else none
    let text ← stmt.render
    return ⟨session.tally, total, text, odds⟩)

/-- Evaluates a statement `n` times. -/
def Outcome.repeated (limits : Limits) (withOdds : Bool) (stmt : Node) :
    Nat → Draws → Draws × Except Fault (List Outcome)
  | 0, d => (d, .ok [])
  | n + 1, d =>
    let (d₁, first) := Outcome.of limits withOdds stmt d
    match first with
    | .error f => (d₁, .error f)
    | .ok o =>
      let (d₂, rest) := Outcome.repeated limits withOdds stmt n d₁
      (d₂, (o :: ·) <$> rest)

/-- Whether one total is less than another, exactly; NaN is less than nothing. -/
def Value.lessThan (a b : Value) : Bool :=
  Value.compareExact a b == some .lt

/-- The dice sets of the statements of a command, in order. -/
def Response.collect (limits : Limits) (withOdds : Bool) :
    List Node → Draws → Draws × Except Fault (List Outcome)
  | [], d => (d, .ok [])
  | stmt :: rest, d =>
    let (d₁, here) : Draws × Except Fault (List Outcome) :=
      match stmt.repetition? with
      | none =>
        let (d', o) := Outcome.of limits withOdds stmt d
        (d', (fun o => [o]) <$> o)
      | some (body, count) =>
        let (session, reps) := Node.evaluate limits d count
        match reps >>= Value.toInt with
        | .error f => (session.draws, .error f)
        | .ok n =>
          let (d', sets) := Outcome.repeated limits withOdds body n.toNat session.draws
          (d', (Sorting.sortBy (fun a b => a.total.lessThan b.total)) <$> sets)
    match here with
    | .error f => (d₁, .error f)
    | .ok sets =>
      let (d₂, more) := Response.collect limits withOdds rest d₁
      (d₂, (sets ++ ·) <$> more)

/-- Answers a command: one dice set per statement, or per repetition. -/
def Response.ofCommand [Token.Numerals] (limits : Limits) (withOdds : Bool) (command : String) (draws : Draws) :
    Draws × Except Fault Response :=
  if command.isEmpty then (draws, .error (.parse .emptyCommand 1 1))
  else
    match Node.parse command with
    | .error f => (draws, .error f)
    | .ok root =>
      if root.children.isEmpty then (draws, .error (.parse .noStatements 1 1))
      else
        let (d, sets) := Response.collect limits withOdds root.children draws
        (d, Response.mk <$> sets)

end DiceNotation
