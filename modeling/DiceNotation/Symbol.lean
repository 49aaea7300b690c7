/-!
# Symbols of the dice language

Every token and every node of a tree carries a symbol.  A symbol has a
binding power, which decides how tightly it holds the operands beside it,
and roles: it may start an expression (a prefix role), continue one (an
infix role), or start a statement.  Dice throws bind tighter than products,
products tighter than sums, and sums tighter than comparisons; `mod` binds
tighter than a throw, and a colour tag tighter than anything.
-/

namespace DiceNotation

/-- The symbols of the language. -/
inductive Symbol where
  | number | ident | newline | eof | root
  | plus | minus | times | divide | power | modulo
  | dice | dropHighest | dropLowest
  | less | greater | lessEq | greaterEq | equal | notEqual
  | comma | andWord | elseWord | ifWord | rollWord | repWord
  | openParen | closeParen | openBrace | closeBrace
  deriving DecidableEq, Repr

namespace Symbol

/-- Every symbol, in a fixed order. -/
def all : List Symbol :=
  [number, ident, newline, eof, root, plus, minus, times, divide, power, modulo,
   dice, dropHighest, dropLowest, less, greater, lessEq, greaterEq, equal, notEqual,
   comma, andWord, elseWord, ifWord, rollWord, repWord,
   openParen, closeParen, openBrace, closeBrace]

/-- The text of a symbol, as trees and messages show it. -/
def text : Symbol → String
  | number => "(NUMBER)"
  | ident => "(IDENT)"
  | newline => "(NEWLINE)"
  | eof => "(EOF)"
  | root => "(rootnode)"
  | plus => "+"
  | minus => "-"
  | times => "*"
  | divide => "/"
  | power => "^"
  | modulo => "mod"
  | dice => "d"
  | dropHighest => "-H"
  | dropLowest => "-L"
  | less => "<"
  | greater => ">"
  | lessEq => "<="
  | greaterEq => ">="
  | equal => "=="
  | notEqual => "!="
  | comma => ","
  | andWord => "and"
  | elseWord => "else"
  | ifWord => "if"
  | rollWord => "roll"
  | repWord => "rep"
  | openParen => "("
  | closeParen => ")"
  | openBrace => "\x7b"
  | closeBrace => "\x7d"

/-- The symbol with a given text. -/
def ofText? (s : String) : Option Symbol :=
  all.find? (·.text == s)

/-- How tightly a symbol holds the operand on its left. -/
def bindingPower : Symbol → Nat
  | repWord => 10
  | ifWord => 20
  | comma | andWord => 25
  | less | greater | lessEq | greaterEq | equal | notEqual => 30
  | plus | minus => 50
  | times | divide => 60
  | power => 70
  | dice | dropHighest | dropLowest => 80
  | openParen => 90
  | modulo => 95
  | ident => 300
  | _ => 0

/-- The binding power of a negated operand. -/
def prefixPower : Nat := 200

/-- The binding power of a literal or a colour tag written after its operand. -/
def tagPower : Nat := 300

/-- The binding power of a symbol given by its text; a text that names no symbol binds with 0. -/
def powerOfText (s : String) : Nat :=
  ((ofText? s).map bindingPower).getD 0

/-- The keywords: symbols spelled as words. -/
def keywords : List Symbol :=
  [andWord, elseWord, rollWord, dice, modulo, ifWord, repWord]

/-- The operators a command may spell with punctuation. -/
def operators : List Symbol :=
  [lessEq, greaterEq, equal, notEqual, dropLowest, dropHighest, power, times,
   openParen, closeParen, minus, plus, divide, comma, openBrace, closeBrace, less, greater]

/-- Comparisons, which only an `if` can evaluate. -/
def isComparison : Symbol → Bool
  | less | greater | lessEq | greaterEq | equal | notEqual => true
  | _ => false

/-- The symbols with a fold over numbers. -/
def isArithmetic : Symbol → Bool
  | plus | minus | times | divide | power | modulo => true
  | _ => false

/-- Drops of the highest or the lowest faces of a throw. -/
def isDrop : Symbol → Bool
  | dropHighest | dropLowest => true
  | _ => false

theorem ofText?_text (s : Symbol) : ofText? s.text = some s := by
  cases s <;> rfl

end Symbol

end DiceNotation
