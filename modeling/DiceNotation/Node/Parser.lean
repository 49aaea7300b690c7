import DiceNotation.Node
import DiceNotation.Token.Lexer
/-!
# Reading tokens into a tree

Tokens are read by binding power.  An expression starts with a token in a
prefix role and goes on while the next token binds tighter than the
expression's context; each such token takes the expression so far as its left
operand.  Every binary operator groups to the left.  A colour tag and a drop
attach to the operand on their left; a drop without a count drops one die;
`d20` is `1d20`; `a if c else b` keeps the condition first.  A statement may
start with `if`, `roll`, a block in braces or line breaks.  Only the first
expression inside parentheses survives.

The reader takes one step per token it consumes, so a number of steps linear
in the number of tokens is enough; `parse` supplies that many.
-/

namespace DiceNotation

/-- The tokens still to read, and what follows them. -/
structure Cursor where
  tokens : List Token
  stop : Except Fault Token

namespace Cursor

/-- The next token, without reading it. -/
def peek (c : Cursor) : Except Fault Token :=
  match c.tokens with
  | t :: _ => .ok t
  | [] => c.stop

/-- Reads the next token; the end-of-input token is read again and again. -/
def next (c : Cursor) : Except Fault (Token × Cursor) :=
  match c.tokens with
  | t :: ts => .ok (t, { c with tokens := ts })
  | [] => c.stop.map fun t => (t, c)

end Cursor

/-- A reader of tokens. -/
abbrev Reader := StateT Cursor (Except Fault)

namespace Reader

def peek : Reader Token := do
  let c ← get
  liftM c.peek

def next : Reader Token := do
  let c ← get
  let (t, c') ← liftM c.next
  set c'
  return t

/-- Reads a token that must have the given symbol. -/
def advance (sym : Symbol) : Reader Token := do
  let t ← next
  if t.symbol = sym then return t
  else throw (.parse (.expected sym.text t.symbol.text) t.line t.col)

/-- The leaf node of a token. -/
def leafOf (t : Token) : Node :=
  .leaf t.symbol.text t.value t.line t.col

/-- The node of a token with children. -/
def nodeOf (t : Token) (children : List Node) : Node :=
  .mk t.symbol.text t.value t.line t.col children

/-- The literal `1` that a throw or a drop without a count stands for, at the token's place. -/
def one (t : Token) : Node :=
  .leaf Symbol.number.text "1" t.line t.col

/-- Reported when the steps run out, which `parse` never lets happen. -/
def exhausted : Fault :=
  .parse (.notPrefix "") 0 0

mutual

/-- An expression that stops before a token binding no tighter than `rbp`. -/
def expression : Nat → Nat → Reader Node
  | 0, _ => throw exhausted
  | fuel + 1, rbp => do
    let t ← next
    let left ← prefixOf fuel t
    continueFrom fuel rbp left

/-- Lets the following tokens take `left` as their left operand while they bind tighter than `rbp`. -/
def continueFrom : Nat → Nat → Node → Reader Node
  | 0, _, _ => throw exhausted
  | fuel + 1, rbp, left => do
    let p ← peek
    if rbp < p.symbol.bindingPower then
      let t ← next
      let left ← infixOf fuel t left
      continueFrom fuel rbp left
    else return left

/-- A token in prefix position. -/
def prefixOf : Nat → Token → Reader Node
  | 0, _ => throw exhausted
  | fuel + 1, t =>
    match t.symbol with
    | .number => return leafOf t
    | .dice => do
      let sides ← expression fuel Symbol.dice.bindingPower
      return nodeOf t [one t, sides]
    | .minus => do
      let operand ← expression fuel Symbol.prefixPower
      return nodeOf t [operand]
    | .openParen => group fuel t []
    | _ => throw (.parse (.notPrefix t.value) t.line t.col)

/-- A token in infix position, with the expression on its left. -/
def infixOf : Nat → Token → Node → Reader Node
  | 0, _, _ => throw exhausted
  | fuel + 1, t, left =>
    match t.symbol with
    | .plus | .minus | .times | .divide | .power | .dice | .modulo
    | .less | .greater | .lessEq | .greaterEq | .equal | .notEqual | .repWord => do
      let right ← expression fuel t.symbol.bindingPower
      return nodeOf t [left, right]
    | .dropHighest | .dropLowest => do
      let p ← peek
      let count ← if p.symbol = .number then expression fuel t.symbol.bindingPower
        else pure (one t)
      return left.push (nodeOf t [count])
    | .ident => return left.push (.leaf t.symbol.text (Text.capitalize t.value) t.line t.col)
    | .ifWord => do
      let condition ← expression fuel 0
      let _ ← advance .elseWord
      let otherwise ← expression fuel 0
      return nodeOf t [condition, left, otherwise]
    | .openParen => do
      let p ← peek
      let args ← if p.symbol = .closeParen then pure [] else arguments fuel []
      let _ ← advance .closeParen
      return nodeOf t (left :: args)
    | .comma | .andWord => return left
    | _ => throw (.parse (.notPrefix t.value) t.line t.col)

/-- The arguments of a call, separated by commas, after those already read. -/
def arguments : Nat → List Node → Reader (List Node)
  | 0, _ => throw exhausted
  | fuel + 1, acc => do
    let arg ← expression fuel Symbol.comma.bindingPower
    let p ← peek
    if p.symbol = .comma then
      let _ ← advance .comma
      arguments fuel (acc ++ [arg])
    else return acc ++ [arg]

/-- The expressions inside parentheses, up to the closing one; the first is kept. -/
def group : Nat → Token → List Node → Reader Node
  | 0, _, _ => throw exhausted
  | fuel + 1, opening, acc => do
    let p ← peek
    if p.symbol = .closeParen ∨ p.symbol = .eof then
      let _ ← advance .closeParen
      match acc with
      | first :: _ => return first
      | [] => throw (.parse .emptyParentheses opening.line opening.col)
    else
      let e ← expression fuel 0
      group fuel opening (acc ++ [e])

/-- A statement: one starting with `if`, `roll`, a brace or a line break, or an expression. -/
def statement : Nat → Reader Node
  | 0 => throw exhausted
  | fuel + 1 => do
    let p ← peek
    match p.symbol with
    | .ifWord => do
      let t ← next
      conditional fuel t
    | .newline => do
      let t ← next
      afterBreak fuel t
    | .rollWord => do
      let t ← next
      let s ← statement fuel
      return nodeOf t [s]
    | .openBrace => do
      let t ← next
      blockFrom fuel t
    | _ => expression fuel 0

/-- Statements up to the end of input or a closing brace; line breaks and the end leave no statement. -/
def statements : Nat → List Node → Reader (List Node)
  | 0, _ => throw exhausted
  | fuel + 1, acc => do
    let p ← peek
    if p.symbol = .eof ∨ p.symbol = .closeBrace then return acc
    else
      let s ← statement fuel
      if s.sym = Symbol.eof.text ∨ s.sym = Symbol.newline.text then statements fuel acc
      else statements fuel (acc ++ [s])

/-- A block: a brace, statements, and the closing brace. -/
def block : Nat → Reader Node
  | 0 => throw exhausted
  | fuel + 1 => do
    let t ← next
    if t.symbol = .openBrace then blockFrom fuel t
    else throw (.parse (.expectedBlock t.symbol.text) t.line t.col)

/-- The rest of a block after its opening brace. -/
def blockFrom : Nat → Token → Reader Node
  | 0, _ => throw exhausted
  | fuel + 1, t => do
    let body ← statements fuel []
    let _ ← advance .closeBrace
    return nodeOf t body

/-- The rest of an `if` statement: a condition, a block, and optionally `else`
with a block or another `if` statement. -/
def conditional : Nat → Token → Reader Node
  | 0, _ => throw exhausted
  | fuel + 1, t => do
    let condition ← expression fuel 0
    let body ← block fuel
    let p ← peek
    if p.symbol = .elseWord then
      let _ ← next
      let q ← peek
      let otherwise ← if q.symbol = .ifWord then statement fuel else block fuel
      return nodeOf t [condition, body, otherwise]
    else return nodeOf t [condition, body]

/-- After a line break: further breaks are skipped; the end of input gives its
own node, a closing brace gives the break's node, anything else a statement. -/
def afterBreak : Nat → Token → Reader Node
  | 0, _ => throw exhausted
  | fuel + 1, t => do
    let p ← peek
    match p.symbol with
    | .newline => do
      let _ ← next
      afterBreak fuel t
    | .eof => do
      let e ← advance .eof
      return leafOf e
    | .closeBrace => return leafOf t
    | _ => statement fuel

end

end Reader

/-- The steps enough to read a list of tokens. -/
def Reader.budget (tokens : List Token) : Nat :=
  8 * tokens.length + 16

/-- Reads a command into a tree: a root holding one child per statement. -/
def Node.parse [Token.Numerals] (source : String) : Except Fault Node :=
  if source.isEmpty then .error (.parse .emptyCommand 1 1)
  else
    let lexed := Token.scan source
    let start : Cursor := ⟨lexed.tokens, lexed.stop⟩
    match (Reader.statements (Reader.budget lexed.tokens) []).run start with
    | .error f => .error f
    | .ok (stmts, rest) =>
      match rest.peek with
      | .error f => .error f
      | .ok trailing =>
        if trailing.symbol = .eof then .ok (.mk Symbol.root.text "" 0 0 stmts)
        else .error (.parse (.unmatched trailing.value) trailing.line trailing.col)

end DiceNotation
