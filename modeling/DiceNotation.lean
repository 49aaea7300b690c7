import DiceNotation.Text.Decimal
import DiceNotation.Text.Blank
import DiceNotation.Text.Case
import DiceNotation.Text.Quote
import DiceNotation.Binary.Shape
import DiceNotation.Decimal.Shortest
import DiceNotation.Decimal.Notation
import DiceNotation.Decimal.Fixed
import DiceNotation.Decimal.Read
import DiceNotation.Fault
import DiceNotation.Symbol
import DiceNotation.Token
import DiceNotation.Token.Lexer
import DiceNotation.CommandLine.NumberWords
import DiceNotation.Node
import DiceNotation.Node.Parser
import DiceNotation.Node.Render
import DiceNotation.Node.Faces
import DiceNotation.Value
import DiceNotation.Value.Arith
import DiceNotation.Odds
import DiceNotation.Proofs.Odds.Reach
import DiceNotation.Proofs.Odds.Sequences
import DiceNotation.Proofs.Odds.Exact
import DiceNotation.Proofs.Formula.Spelling
import DiceNotation.Proofs.Formula.Scan
import DiceNotation.Proofs.Formula.Read
import DiceNotation.Draws
import DiceNotation.Throw
import DiceNotation.Tally
import DiceNotation.Evaluate
import DiceNotation.Proofs.Evaluate.Positions
import DiceNotation.Sorting
import DiceNotation.Command
import DiceNotation.Report
import DiceNotation.Files
import DiceNotation.CommandLine
import DiceNotation.Main
import DiceNotation.Proofs.Reader.Breaks
import DiceNotation.Proofs.Evaluate.Steps
import DiceNotation.Proofs.Throw.Roll
import DiceNotation.Proofs.Evaluate.Frame
import DiceNotation.Proofs.Formula.Faces
import DiceNotation.Proofs.Value.Faults
import DiceNotation.Proofs.Evaluate.Colours
import DiceNotation.Proofs.Token.Lines
import DiceNotation.Proofs.Reader.Progress
import DiceNotation.Proofs.Reader.Budget
import DiceNotation.Proofs.Evaluate.Drops
import DiceNotation.Proofs.Evaluate.Sums
import DiceNotation.Proofs.Canonical.Grammar
import DiceNotation.Proofs.Canonical.Render
import DiceNotation.Proofs.Canonical.Marks
import DiceNotation.Proofs.Canonical.Scan
import DiceNotation.Proofs.Canonical.Read
import DiceNotation.Proofs.Canonical.Stable
import DiceNotation.Proofs.Canonical.Reread
import DiceNotation.Proofs.Canonical.Placeholders
