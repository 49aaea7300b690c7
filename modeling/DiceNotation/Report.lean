import DiceNotation.Command
import DiceNotation.Decimal.Fixed
/-!
# The report of a command

The report of a command, as the command line prints it.  A command that
cannot be read gives its message, column and line.  A command that cannot
be evaluated gives `Could not parse input:` and the message.  Otherwise the
report shows, on request, the outline of the tree and the distribution of
every throw (percentages with five decimals); then the total, the colour
totals, the canonical text (or why it cannot be written), and the record of
the tally, between rules.
-/

namespace DiceNotation.Report

/-- The rule between the parts of a report. -/
def rule : String := "----------"

/-- A natural right-aligned in two columns. -/
def padTwo (n : Nat) : String :=
  let s := intText n
  String.ofList (List.replicate (2 - s.length) ' ') ++ s

/-- The lines of the distribution of one throw. -/
def oddsLines (t : Throw) : List String :=
  let rows := (Odds.table? t.count t.sides t.dropHighest t.dropLowest).getD []
  ["Probability Map for " ++ t.record ++ ":"] ++
    rows.map (fun (k, p) => padTwo k ++ ":  " ++ Decimal.fixed 5 p ++ "%") ++ [rule]

/-- The lines of the report of a command; a fault of the arithmetic underneath stops it. -/
def lines [Token.Numerals] (command : String) (verbose prob : Bool) (draws : Draws) :
    Draws × Except Fault (List String) :=
  match Node.parse command with
  | .error f =>
    match f.position? with
    | some (line, col) => (draws, .ok [f.message ++ " " ++ intText col ++ " " ++ intText line])
    | none => (draws, .error f)
  | .ok root =>
    let (session, result) := Node.evaluate {} draws root
    (session.draws, match result with
      | .error f =>
        if f.kind?.isSome then .ok ["Could not parse input: " ++ f.message] else .error f
      | .ok total => do
        let t := session.tally
        let tree := if verbose then ["AST:", rule ++ Node.outline 0 root, rule] else []
        let odds := if prob then t.rolled.flatMap oddsLines else []
        let colours ← Tally.colourText t.totals
        let canonical ← match root.render with
          | .ok text => pure text
          | .error f =>
            if f.kind?.isSome then pure ("Could not restring input: " ++ f.message) else throw f
        return tree ++ odds ++ ["Total: " ++ total.text, "Color Map: " ++ colours, canonical,
          rule, t.record, rule])

/-- The text of the report of a command. -/
def text [Token.Numerals] (command : String) (verbose prob : Bool) (draws : Draws) : Draws × Except Fault String :=
  let (d, r) := lines command verbose prob draws
  (d, (fun ls => String.join (ls.map (· ++ "\n"))) <$> r)

end DiceNotation.Report
