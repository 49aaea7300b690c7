import DiceNotation.Symbol
/-!
# Trees of the dice language

A command is read into a tree: each node carries the text of its symbol,
the literal text it was read from, its line and column, and its children in
order.  The symbol is kept as text, since a tree may also come from outside
with symbols the language does not know; such a node binds with power 0.

The outline of a tree writes each node on a line of its own, indented by
four spaces per level, as `(symbol:value` followed by its children and a
closing parenthesis.
-/

namespace DiceNotation

/-- A node of a tree. -/
inductive Node where
  | mk (sym : String) (value : String) (line col : Nat) (children : List Node)
  deriving Repr, Inhabited

namespace Node

def sym : Node → String
  | mk s _ _ _ _ => s

def value : Node → String
  | mk _ v _ _ _ => v

def line : Node → Nat
  | mk _ _ l _ _ => l

def col : Node → Nat
  | mk _ _ _ c _ => c

def children : Node → List Node
  | mk _ _ _ _ cs => cs

/-- A node without children. -/
def leaf (sym value : String) (line col : Nat) : Node :=
  mk sym value line col []

/-- The same node with one more child, last. -/
def push (n : Node) (child : Node) : Node :=
  mk n.sym n.value n.line n.col (n.children ++ [child])

/-- The binding power of a node's symbol. -/
def bindingPower (n : Node) : Nat :=
  Symbol.powerOfText n.sym

@[simp] theorem children_push (n c : Node) : (n.push c).children = n.children ++ [c] := by
  cases n; rfl

@[simp] theorem sym_push (n c : Node) : (n.push c).sym = n.sym := by
  cases n; rfl


mutual
/-- The number of nodes of a tree. -/
def weight : Node → Nat
  | mk _ _ _ _ cs => 1 + weightAll cs

/-- The number of nodes of a list of trees. -/
def weightAll : List Node → Nat
  | [] => 0
  | n :: ns => weight n + weightAll ns
end

theorem weight_le_weightAll_of_mem {c : Node} : ∀ {cs : List Node}, c ∈ cs → c.weight ≤ weightAll cs
  | n :: ns, h => by
    rcases List.mem_cons.mp h with rfl | h
    · simp only [weightAll]; omega
    · have := weight_le_weightAll_of_mem h
      simp only [weightAll]; omega

/-- A child has fewer nodes than its parent. -/
theorem weight_lt_of_mem {c : Node} {n : Node} (h : c ∈ n.children) : c.weight < n.weight := by
  cases n with
  | mk s v l k cs =>
    have : c.weight ≤ weightAll cs := weight_le_weightAll_of_mem h
    simp only [weight]; omega

/-- A child taken with its membership has fewer nodes than its parent. -/
theorem weight_lt_of_child {n : Node} (c : { c // c ∈ n.children }) : c.1.weight < n.weight :=
  weight_lt_of_mem c.2

/-- A grandchild taken with its memberships has fewer nodes than its grandparent. -/
theorem weight_lt_of_grandchild {n : Node} (c : { c // c ∈ n.children })
    (d : { d // d ∈ c.1.children }) : d.1.weight < n.weight :=
  Nat.lt_trans (weight_lt_of_child d) (weight_lt_of_child c)

mutual
/-- The nodes of a tree: the root, then the nodes of each child in order. -/
def subtrees : Node → List Node
  | mk s v l k cs => mk s v l k cs :: subtreesAll cs

/-- The nodes of a list of trees, in order. -/
def subtreesAll : List Node → List Node
  | [] => []
  | n :: ns => subtrees n ++ subtreesAll ns
end

theorem subtreesAll_eq_flatMap : ∀ ns : List Node, subtreesAll ns = ns.flatMap subtrees
  | [] => rfl
  | n :: ns => by simp [subtreesAll, subtreesAll_eq_flatMap ns]

@[simp] theorem subtrees_mk (s v : String) (l k : Nat) (cs : List Node) :
    (mk s v l k cs).subtrees = mk s v l k cs :: cs.flatMap subtrees := by
  rw [subtrees, subtreesAll_eq_flatMap]

theorem mem_subtrees_self (n : Node) : n ∈ n.subtrees := by
  cases n
  simp

/-- The nodes of a child are nodes of its parent. -/
theorem subtrees_subset_of_mem {c n : Node} (h : c ∈ n.children) : c.subtrees ⊆ n.subtrees := by
  cases n with
  | mk s v l k cs =>
    intro m hm
    simp only [subtrees_mk, List.mem_cons, List.mem_flatMap]
    exact .inr ⟨c, h, hm⟩

mutual
/-- The outline of a node at an indentation. -/
def outline (indent : Nat) : Node → String
  | mk s v _ _ cs =>
    "\n" ++ String.ofList (List.replicate indent ' ') ++ "(" ++ s ++ ":" ++ v ++
      outlineAll (indent + 4) cs ++ ")"

/-- The outlines of a list of children, each after a space. -/
def outlineAll (indent : Nat) : List Node → String
  | [] => ""
  | n :: ns => " " ++ outline indent n ++ outlineAll indent ns
end

end Node

end DiceNotation
