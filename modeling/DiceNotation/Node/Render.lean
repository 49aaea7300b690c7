import DiceNotation.Node
import DiceNotation.Value
import DiceNotation.Text.Blank
import DiceNotation.Text.Case
/-!
# Canonical text of a tree

A tree is written back as canonical infix text, with `(%s)` after every dice
throw, where the faces rolled can later be filled in.  An operand is put in
parentheses when it binds more loosely than its operator, or as loosely on
the right side, since every binary operator groups to the left.  Colour tags
cannot stand inside a throw, so the tags found inside a unit are written
after the whole unit.  A repetition by a literal count is written out as
that many copies, as long as the count fits a machine word and the copies
fit in memory.

Each node is checked as it is written: an operator with the wrong number of
operands, a drop without exactly one count or an unknown symbol makes the
tree invalid.
-/

namespace DiceNotation

/-- The text of a unit, how tightly it binds, and the colour tags that follow it. -/
structure Piece where
  text : String
  power : Nat
  tags : List String

namespace Piece

/-- A text followed by its tags, separated by spaces. -/
def withTags (text : String) (tags : List String) : String :=
  " ".intercalate (text :: tags)

/-- The full text of a piece. -/
def full (p : Piece) : String :=
  withTags p.text p.tags

/-- The text of a piece as the operand of an operator binding with `power`. -/
def asOperand (p : Piece) (power : Nat) (right : Bool) : String × List String :=
  if p.power < power ∨ (right ∧ p.power = power) then ("(" ++ p.text ++ ")", p.tags)
  else (p.text, p.tags)

end Piece

namespace Node

/-- The placeholder written after a throw. -/
def placeholder : String := "(%s)"

/-- The children of a node sorted into operands, colour tags (their values
capitalised) and drops, each kept in order. -/
structure Parts (α : Type) where
  operands : List α
  tags : List String
  drops : List α

/-- Sorts children, each with what is known of it, into operands, tags and drops. -/
def Parts.of {α : Type} (get : α → Node) : List α → Parts α
  | [] => ⟨[], [], []⟩
  | a :: rest =>
    let p := Parts.of get rest
    let c := get a
    if c.sym = Symbol.ident.text then { p with tags := Text.capitalize c.value :: p.tags }
    else if c.sym = Symbol.dropHighest.text ∨ c.sym = Symbol.dropLowest.text then
      { p with drops := a :: p.drops }
    else { p with operands := a :: p.operands }

/-- The count of a repetition by a literal: the integer part of its numeral. -/
def literalCount (value : String) : Except Fault Int := do
  let x ← Value.ofNumeral value
  Value.floatToInt x

/-- The memory of the machine, in bytes.  The copies a repetition writes out
must fit in it twice over: as a list of references of eight bytes each, and
as their joined text. -/
def memoryLimit : Nat := Nat.pow 2 36

/-- The text of `count` copies of a text joined by commas.  The count must fit
a signed machine word; a count below one writes no copy; copies that do not
fit in memory are refused. -/
def copies (count : Int) (text : String) : Except Fault String :=
  if !Value.fitsWord count then .error .countBeyondWord
  else
    let n := count.toNat
    if memoryLimit < 8 * n ∨ memoryLimit < n * (text.utf8ByteSize + 2) then .error .outOfMemory
    else .ok (", ".intercalate (List.replicate n text))

/-- The piece of a node, given the pieces of the smaller trees inside it. -/
def pieceWith (n : Node) (sub : (c : Node) → c.weight < n.weight → Except Fault Piece) :
    Except Fault Piece :=
  let parts := Parts.of Subtype.val n.children.attach
  let child (c : { c // c ∈ n.children }) : Except Fault Piece :=
    sub c.1 (weight_lt_of_child c)
  let operand (c : { c // c ∈ n.children }) (power : Nat) (right : Bool) :
      Except Fault (String × List String) :=
    (fun p => p.asOperand power right) <$> child c
  let full (c : { c // c ∈ n.children }) : Except Fault String := Piece.full <$> child c
  let invalid (reason : TreeReason) : Fault := .tree n.sym reason
  -- the text of the drops and the tags found in their counts
  let suffix : Except Fault (String × List String) :=
    parts.drops.foldlM (fun (text, tags) d =>
      match h : d.1.children with
      | [c] =>
        have hc : c.weight < n.weight :=
          Nat.lt_trans (weight_lt_of_mem (by rw [h]; exact List.mem_singleton_self c))
            (weight_lt_of_mem d.2)
        (fun p =>
          let (count, countTags) := p.asOperand Symbol.dropHighest.bindingPower true
          (text ++ d.1.sym ++ count, tags ++ countTags)) <$> sub c hc
      | _ => .error (.tree d.1.sym .singleCount)) ("", [])
  let power := n.bindingPower
  let sym := n.sym
  if sym = Symbol.number.text then do
    let (s, dropTags) ← suffix
    return ⟨n.value ++ s, Symbol.tagPower, dropTags ++ parts.tags⟩
  else if sym = Symbol.dice.text then
    match parts.operands with
    | [a, b] => do
      let (count, countTags) ← operand a power false
      let (sides, sidesTags) ← operand b power true
      let (s, dropTags) ← suffix
      return ⟨count ++ "d" ++ sides ++ s ++ placeholder, power,
        countTags ++ sidesTags ++ dropTags ++ parts.tags⟩
    | _ => .error (invalid .throwOperands)
  else if sym = Symbol.minus.text ∧ parts.operands.length = 1 then
    match parts.operands with
    | [a] => do
      let (o, oTags) ← operand a Symbol.prefixPower false
      let (s, dropTags) ← suffix
      return ⟨"-" ++ o ++ s, Symbol.prefixPower, oTags ++ dropTags ++ parts.tags⟩
    | _ => .error (invalid .twoOperands)
  else if ((Symbol.ofText? sym).map fun s => s.isArithmetic || s.isComparison).getD false then
    match parts.operands with
    | [a, b] => do
      let (l, lTags) ← operand a power false
      let (r, rTags) ← operand b power true
      let text := Piece.withTags l lTags ++ " " ++ sym ++ " " ++ Piece.withTags r rTags
      if parts.drops.isEmpty then return ⟨text, power, parts.tags⟩
      else
        let (s, dropTags) ← suffix
        return ⟨"(" ++ text ++ ")" ++ s, Symbol.tagPower, dropTags ++ parts.tags⟩
    | _ => .error (invalid .twoOperands)
  else if sym = Symbol.repWord.text then
    match parts.operands with
    | [a, b] => do
      let text ← full a
      if b.1.sym = Symbol.number.text ∧ b.1.children.isEmpty then
        let count ← literalCount b.1.value
        return ⟨← copies count text, power, parts.tags⟩
      else
        let countText ← full b
        return ⟨text ++ " rep " ++ countText, power, parts.tags⟩
    | _ => .error (invalid .repeatOperands)
  else if sym = Symbol.ifWord.text then
    match parts.operands with
    | a :: b :: rest =>
      if b.1.sym = Symbol.openBrace.text then do
        let cond ← full a
        let body ← full b
        match rest with
        | [] => return ⟨"if " ++ cond ++ " " ++ body, 0, parts.tags⟩
        | c :: _ => do
          let other ← full c
          return ⟨"if " ++ cond ++ " " ++ body ++ " else " ++ other, 0, parts.tags⟩
      else
        match rest with
        | [c] => do
          let (t, tTags) ← operand b power true
          let cond ← full a
          let other ← full c
          return ⟨Piece.withTags t tTags ++ " if " ++ cond ++ " else " ++ other, power, parts.tags⟩
        | _ => .error (invalid .conditionAndTwoBranches)
    | _ => .error (invalid .conditionAndBranch)
  else if sym = Symbol.openParen.text then
    match parts.operands with
    | f :: args => do
      let (ft, fTags) ← operand f power false
      let argTexts ← args.mapM full
      return ⟨Piece.withTags ft fTags ++ "(" ++ ", ".intercalate argTexts ++ ")",
        Symbol.tagPower, parts.tags⟩
    | [] => .error (invalid .nothingCalled)
  else if sym = Symbol.openBrace.text then
    match parts.operands with
    | [] => return ⟨"\x7b \x7d", 0, parts.tags⟩
    | ops => do
      let texts ← ops.mapM full
      return ⟨"\x7b " ++ ", ".intercalate texts ++ " \x7d", 0, parts.tags⟩
  else if sym = Symbol.rollWord.text then
    match parts.operands with
    | [a] => do
      let t ← full a
      return ⟨"Roll " ++ t, 0, parts.tags⟩
    | _ => .error (invalid .singleStatement)
  else if sym = Symbol.root.text then do
    let texts ← parts.operands.mapM full
    return ⟨", ".intercalate texts, 0, parts.tags⟩
  else .error (invalid .unknownSymbol)

/-- The piece of a node: its text, binding power and trailing tags. -/
def piece (n : Node) : Except Fault Piece :=
  pieceWith n fun c _ => piece c
termination_by n.weight

/-- The canonical text of a tree, without blanks at its ends. -/
def render (n : Node) : Except Fault String :=
  (fun p => Text.trim p.full) <$> piece n

end Node

end DiceNotation
