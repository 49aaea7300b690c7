import DiceNotation.Node
import DiceNotation.Tally
import DiceNotation.Text.Case
/-!
# Evaluating a tree

A tree is evaluated against a tally and a source of draws; symbols are
matched without regard to case.

* A literal is the double its numeral stands for; tags hung on it are taken first.
* A drop sets the drops waiting for the next throw and is worth `0`.
* A throw evaluates its operands as integers, rolls, and is worth its total.
* An operator chain (`+ - * / ^ mod`) evaluates its operands one level
  deeper, tags apart; it refuses to mix colours, and back at depth 0 it takes
  the most recent tag as the colour of its throws and credits its result to it.
* A block, a `roll` statement and the root add up their statements.
* A tag pushes its colour and is worth `0`.
* A repetition evaluates its count first, then its body that many times, adding up.
* An `if` evaluates its comparison and then the branch it selects; without
  an `else` branch a false comparison is worth `0`.

The sums of a block, a `roll` statement, the root, a repetition and the count
of a drop add one value at a time from the integer `0`, rounding at each step:
the built-in `sum` of Python up to 3.11, which the recorded answers follow
(`0.1, 0.2, 0.3` totals `0.6000000000000001`).  The compensated summation of
Python 3.12 is not followed.  Operator chains with `+` sum exactly and round
once, as `math.fsum` does.
-/

namespace DiceNotation

namespace Eval

/-- Maps the faults of a numeric fold to the messages of the language. -/
def foldFault : Fault → Fault
  | .integerTooLarge => .eval .tooLarge
  | f => f

/-- Folds the operands of an operator chain by its operation, in small letters. -/
def fold (op : String) (nums : List Value) : Except Fault Value :=
  let step (x y : Value) : Except Fault Value :=
    if op = "-" then x.sub y
    else if op = "*" then x.mul y
    else if op = "/" then x.div y
    else if op = "^" then x.pow y
    else x.mod y
  if op = "+" then Value.sum nums
  else match op, nums with
    | "-", [x] => .ok x.neg
    | _, [] => .error .missingItem
    | _, x :: rest => rest.foldlM step x

/-- A child of a node by position, with its membership; refused when there is none. -/
def childAt (cs : List Node) (i : Nat) : Eval { c // c ∈ cs } :=
  match h : cs[i]? with
  | some c => pure ⟨c, List.mem_of_getElem? h⟩
  | none => throw .missingItem

/-- Whether a comparison holds between two numbers; NaN only differs. -/
def compareBy (sym : String) (a b : Value) : Bool :=
  match Value.compareExact a b with
  | none => sym = "!="
  | some o =>
    if sym = "<" then o == .lt
    else if sym = ">" then o == .gt
    else if sym = "<=" then o != .gt
    else if sym = ">=" then o != .lt
    else if sym = "==" then o == .eq
    else o != .eq

/-- Evaluates `body` `n` times, adding the results to `acc`. -/
def repeatSum (body : Eval Value) : Nat → Value → Eval Value
  | 0, acc => pure acc
  | n + 1, acc => do
    let v ← body
    let acc ← lift (acc.add v)
    repeatSum body n acc

/-- Evaluates a node, given the evaluation of the smaller trees inside it. -/
def evalWith (n : Node) (sub : (c : Node) → c.weight < n.weight → Eval Value) : Eval Value := do
  let cs := n.children.attach
  let key := Text.upper n.sym
  let evalChild (c : { c // c ∈ n.children }) : Eval Value := sub c.1 (Node.weight_lt_of_child c)
  let byIndex (i : Nat) : Eval { c // c ∈ n.children } := childAt n.children i
  if key = Symbol.number.text then
    for c in cs do
      let _ ← evalChild c
    return .float (← lift (Value.ofNumeral n.value))
  else if key = Symbol.dropHighest.text ∨ key = Symbol.dropLowest.text then
    let total ← cs.foldlM (fun (acc : Value) c => do lift (acc.add (← evalChild c))) (.int 0)
    let count ← lift total.toInt
    if key = Symbol.dropHighest.text then modifyTally fun t => { t with dropHighest := count }
    else modifyTally fun t => { t with dropLowest := count }
    return .int 0
  else if key = "D" then
    let nums ← cs.mapM fun c => do lift (← evalChild c).toInt
    match nums with
    | count :: sides :: _ =>
      let total ← pushAndRoll { count, sides }
      return .float (← lift (Value.intToFloat total))
    | _ => throw .missingItem
  else if key = "+" ∨ key = "-" ∨ key = "*" ∨ key = "/" ∨ key = "^" ∨ key = "MOD" then
    let before := (← getTally).throws.size
    modifyTally fun t => { t with depth := t.depth + 1 }
    let nums ← cs.foldlM (fun (acc : List Value) c => do
      if c.1.sym = Symbol.ident.text then
        let _ ← evalChild c
        return acc
      else return acc ++ [← evalChild c]) []
    modifyTally fun t => { t with depth := t.depth - 1 }
    let added := (← getTally).throws.size - before
    let x ← lift ((fold (Text.lower n.sym) nums).mapError foldFault)
    let t ← getTally
    if 1 < t.colours.length then throw (.eval .mixedColours)
    if t.depth = 0 then
      let colour ← popColour
      recolour added colour
      addToColour colour x
    return x
  else if key = "\x7b" ∨ key = "ROLL" ∨ key = "(ROOTNODE)" then
    cs.foldlM (fun (acc : Value) c => do lift (acc.add (← evalChild c))) (.int 0)
  else if key = Symbol.ident.text then
    pushColour n.value
    return .int 0
  else if key = "REP" then
    let body ← byIndex 0
    let countNode ← byIndex 1
    let reps ← lift (← evalChild countNode).toInt
    repeatSum (evalChild body) reps.toNat (.int 0)
  else if key = "IF" then
    let cond ← byIndex 0
    let sym := cond.1.sym
    if !(sym = "<" ∨ sym = ">" ∨ sym = "<=" ∨ sym = ">=" ∨ sym = "==" ∨ sym = "!=") then
      throw (.eval (.badCondition sym))
    let leftNode ← childAt cond.1.children 0
    let left ← sub leftNode.1 (Node.weight_lt_of_grandchild cond leftNode)
    let rightNode ← childAt cond.1.children 1
    let right ← sub rightNode.1 (Node.weight_lt_of_grandchild cond rightNode)
    if compareBy sym left right then
      evalChild (← byIndex 1)
    else if n.children.length < 3 then return .int 0
    else evalChild (← byIndex 2)
  else throw (.eval (.unsupported n.sym))

/-- Evaluates a node. -/
def eval (n : Node) : Eval Value :=
  evalWith n fun c _ => eval c
termination_by n.weight

end Eval

/-- Evaluates a whole tree in a fresh tally: the session it leaves, and its
value or the fault that stopped it. -/
def Node.evaluate (limits : Limits) (draws : Draws) (n : Node) : Session × Except Fault Value :=
  match (Eval.eval n).run ⟨{ limits }, draws⟩ with
  | .ok v s => (s, .ok v)
  | .error f s => (s, .error f)

end DiceNotation
