import DiceNotation.Symbol
import DiceNotation.Fault
/-!
# Tokens

A token is a symbol with the text it was read from and the line and column
where that text starts.  Scanning a command gives its tokens up to the first
fault, then either the end-of-input token or that fault: a reader takes the
tokens one by one and meets the fault only when it asks for a token past the
last good one, so a fault of reading earlier in the text comes first.
-/

namespace DiceNotation

/-- A symbol read from a command, with its text and position (both counted from 1). -/
structure Token where
  symbol : Symbol
  value : String
  line : Nat
  col : Nat
  deriving DecidableEq, Repr

/-- What scanning a command gives. -/
structure Lexed where
  /-- The tokens before the end or the first fault. -/
  tokens : List Token
  /-- The end-of-input token, or the fault that stopped the scan. -/
  stop : Except Fault Token

/-- Every token of a scan, the end-of-input token last, or the fault that stopped it. -/
def Lexed.all (l : Lexed) : Except Fault (List Token) :=
  match l.stop with
  | .ok eof => .ok (l.tokens ++ [eof])
  | .error f => .error f

end DiceNotation
