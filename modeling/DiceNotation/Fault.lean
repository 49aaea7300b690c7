import DiceNotation.Text.Quote
/-!
# Faults

Everything that can stop a command, by cause.  A fault of reading carries
the line and column where it was found; a fault of evaluating or of writing
a tree back as text carries what it is about.  Beside these stand the faults
of the arithmetic underneath: a missing operand, a number that has no
integer or no double, a text that is no numeral.

Each fault has a message, and a kind that tells a host how to answer the
person who typed the command: the message itself for a friendly fault, a
fixed sentence for a command that cannot be read or a tree that cannot be
written, and an apology for everything else.
-/

namespace DiceNotation

/-- Why a command cannot be cut into tokens. -/
inductive LexFault where
  | invalidCharacter (c : Char)
  | invalidNumber (phrase : String)
  | undefinedOperator (op : String)
  deriving DecidableEq, Repr

/-- Why tokens do not form a command. -/
inductive ParseFault where
  | emptyCommand
  | noStatements
  | notPrefix (value : String)
  | emptyParentheses
  | expectedBlock (sym : String)
  | expected (sym found : String)
  | unmatched (value : String)
  deriving DecidableEq, Repr

/-- Why a tree cannot be evaluated. -/
inductive EvalFault where
  | divideByZero
  | tooLarge
  | notReal
  | mixedColours
  | tooManyDice
  | tooManySides
  | noSides
  | negativeCount
  | overDrop (dropped count : Int)
  | unsupported (sym : String)
  | badCondition (sym : String)
  | emptyRange
  deriving DecidableEq, Repr

/-- Why a tree cannot be written as canonical text. -/
inductive TreeReason where
  | singleCount
  | throwOperands
  | twoOperands
  | repeatOperands
  | conditionAndBranch
  | conditionAndTwoBranches
  | nothingCalled
  | singleStatement
  | unknownSymbol
  deriving DecidableEq, Repr

/-- Everything that can stop a command. -/
inductive Fault where
  | lex (cause : LexFault) (line col : Nat)
  | parse (cause : ParseFault) (line col : Nat)
  | eval (cause : EvalFault)
  | tree (sym : String) (reason : TreeReason)
  /-- An operand, a child or an item asked for is not there. -/
  | missingItem
  /-- An infinite double has no integer. -/
  | infiniteToInteger
  /-- A NaN has no integer. -/
  | nanToInteger
  /-- An integer beyond every finite double. -/
  | integerTooLarge
  /-- A text that is no numeral. -/
  | notNumeral (text : String)
  /-- A draw below a bound of zero. -/
  | drawBelowZero
  /-- A file name holding a null character. -/
  | nullInPath
  /-- A file name that is a list rather than a text. -/
  | pathNotText
  /-- The first character of an empty text. -/
  | missingCharacter
  /-- A list index that does not fit a signed machine word. -/
  | indexBeyondWord
  /-- A repetition count that does not fit a signed machine word. -/
  | countBeyondWord
  /-- More memory asked for than the machine holds. -/
  | outOfMemory
  deriving DecidableEq, Repr

/-- How a host answers the person who typed a command. -/
inductive Kind where
  | invalidTree
  | invalidCommand
  | friendly
  | unexpected
  deriving DecidableEq, Repr

/-- The number that names a kind. -/
def Kind.code : Kind → Nat
  | .invalidTree => 0
  | .invalidCommand => 1
  | .friendly => 2
  | .unexpected => 999

def LexFault.message : LexFault → String
  | .invalidCharacter c => "invalid character '" ++ c.toString ++ "'"
  | .invalidNumber phrase => "invalid number '" ++ phrase ++ "'"
  | .undefinedOperator op => "operator not defined: " ++ op

def ParseFault.message : ParseFault → String
  | .emptyCommand => "zero length command is invalid"
  | .noStatements => "No dice sets resulted from that command"
  | .notPrefix value => "token \"" ++ value ++ "\" is not prefix"
  | .emptyParentheses => "empty parentheses"
  | .expectedBlock sym => "expected block start not found: " ++ sym
  | .expected sym found => "did not find expected character \"" ++ sym ++ "\". Found \"" ++ found ++ "\""
  | .unmatched value => "unmatched \"" ++ value ++ "\""

/-- The decimal text of an integer. -/
def intText (n : Int) : String :=
  if n < 0 then "-" ++ String.ofList (Nat.toDigits 10 n.natAbs) else String.ofList (Nat.toDigits 10 n.natAbs)

def EvalFault.message : EvalFault → String
  | .divideByZero => "attempted to divide by zero"
  | .tooLarge => "result too large to calculate"
  | .notReal => "result is not a real number"
  | .mixedColours => "cannot perform arithmetic on different color dice, try ',' or 'and' instead"
  | .tooManyDice => "I can't hold that many dice!"
  | .tooManySides => "A die with that many sides is basically round"
  | .noSides => "/me ponders the meaning of a zero sided die"
  | .negativeCount => "attempted to roll a negative number of dice"
  | .overDrop dropped count =>
    "attempted to drop " ++ intText dropped ++ " dice when only " ++ intText count ++ " were rolled"
  | .unsupported sym => "unsupported symbol: " ++ sym
  | .badCondition sym => "bad bool: " ++ sym
  | .emptyRange => "cannot make a random int of size zero"

/-- Whether an evaluation fault may be shown to the person as it is. -/
def EvalFault.kind : EvalFault → Kind
  | .unsupported _ | .badCondition _ | .emptyRange => .unexpected
  | _ => .friendly

def TreeReason.text : TreeReason → String
  | .singleCount => "expected a single count"
  | .throwOperands => "a dice throw needs a count and a number of sides"
  | .twoOperands => "expected two operands"
  | .repeatOperands => "expected something to repeat and a count"
  | .conditionAndBranch => "expected a condition and a branch"
  | .conditionAndTwoBranches => "expected a condition and two branches"
  | .nothingCalled => "nothing was called"
  | .singleStatement => "expected a single statement"
  | .unknownSymbol => "unknown symbol"

def Fault.message : Fault → String
  | .lex cause _ _ => cause.message
  | .parse cause _ _ => cause.message
  | .eval cause => cause.message
  | .tree sym reason =>
    "Invalid AST. Cannot convert " ++ sym ++ " to an infix expression: " ++ reason.text
  | .missingItem => "list index out of range"
  | .infiniteToInteger => "cannot convert float infinity to integer"
  | .nanToInteger => "cannot convert float NaN to integer"
  | .integerTooLarge => "int too large to convert to float"
  | .notNumeral text => "could not convert string to float: " ++ Text.quote text
  | .drawBelowZero => "integer modulo by zero"
  | .nullInPath => "embedded null byte"
  | .pathNotText => "expected str, bytes or os.PathLike object, not list"
  | .missingCharacter => "string index out of range"
  | .indexBeyondWord => "cannot fit 'int' into an index-sized integer"
  | .countBeyondWord => "cannot fit 'int' into an index-sized integer"
  | .outOfMemory => ""

/-- The kind of a fault of the dice language; the faults of the arithmetic
underneath have none. -/
def Fault.kind? : Fault → Option Kind
  | .lex _ _ _ => some .invalidCommand
  | .parse .emptyCommand _ _ => some .friendly
  | .parse _ _ _ => some .invalidCommand
  | .eval cause => some cause.kind
  | .tree _ _ => some .invalidTree
  | _ => none

/-- Where a fault of reading was found, as line and column. -/
def Fault.position? : Fault → Option (Nat × Nat)
  | .lex _ line col => some (line, col)
  | .parse _ line col => some (line, col)
  | _ => none

/-- The message with its position, for a fault of reading; the message alone otherwise. -/
def Fault.text (f : Fault) : String :=
  match f.position? with
  | some (line, col) =>
    f.message ++ " (line " ++ intText line ++ ", col " ++ intText col ++ ")"
  | none => f.message

/-- What a host shows the person who typed the command. -/
def Fault.userMessage (f : Fault) : String :=
  match f.kind? with
  | some .friendly => f.message
  | some .invalidTree => "The AST that resulted from your command was invalid."
  | some .invalidCommand => "Your command could not be parsed."
  | _ => "An unexpected error has occurred. Please try again later"

end DiceNotation
