import DiceNotation.Evaluate
/-!
# What one step of an evaluation does

The evaluator changes the session only through a few primitives: it sets the
depth and the waiting drops, pushes and pops colour tags, rolls and records a
throw, recolours the latest throws and credits a colour.  Each has a lemma
giving the session it leaves.  Every walk over the children of a node (a loop,
a fold, a map, a child picked by position, a repetition) changes the session
only by evaluating nodes in turn, which `Walk` records.

`Eval.eval_ran` says once what a successful evaluation of a node did, kind by
kind of node, as `Ran`: the nodes it evaluated in turn, and its own change of
the session around them.  The laws of the evaluator are proved from it by
induction on the size of the tree, without opening the evaluator again.
-/

namespace DiceNotation

namespace Node

/-- An operator chain: `+ - * / ^ mod`, in any case. -/
def IsArithmetic (n : Node) : Prop :=
  Text.upper n.sym = "+" ∨ Text.upper n.sym = "-" ∨ Text.upper n.sym = "*" ∨
    Text.upper n.sym = "/" ∨ Text.upper n.sym = "^" ∨ Text.upper n.sym = "MOD"

/-- A comparison, as the condition of an `if` must be. -/
def IsComparison (n : Node) : Prop :=
  n.sym = "<" ∨ n.sym = ">" ∨ n.sym = "<=" ∨ n.sym = ">=" ∨ n.sym = "==" ∨ n.sym = "!="

instance : DecidablePred IsComparison := fun n =>
  inferInstanceAs (Decidable (n.sym = "<" ∨ n.sym = ">" ∨ n.sym = "<=" ∨ n.sym = ">=" ∨
    n.sym = "==" ∨ n.sym = "!="))

theorem IsArithmetic.upper_ne {n : Node} (h : n.IsArithmetic) {k : String}
    (hk : k ∉ ["+", "-", "*", "/", "^", "MOD"]) : Text.upper n.sym ≠ k := by
  intro he
  unfold IsArithmetic at h
  rw [he] at h
  simp only [List.mem_cons, List.not_mem_nil, or_false] at hk
  exact hk h

end Node

namespace Eval

variable {α β : Type}

/-! ## The primitives -/

theorem bind_inv {x : Eval α} {f : α → Eval β} {s s'' : Session} {b : β}
    (h : (x >>= f) s = .ok b s'') : ∃ a s', x s = .ok a s' ∧ f a s' = .ok b s'' := by
  change EStateM.bind x f s = _ at h
  unfold EStateM.bind at h
  cases hx : x s with
  | ok a s' => rw [hx] at h; exact ⟨a, s', rfl, h⟩
  | error e s' => rw [hx] at h; cases h

theorem pure_inv {a b : α} {s s' : Session} (h : (pure a : Eval α) s = .ok b s') :
    b = a ∧ s' = s := by
  cases h
  exact ⟨rfl, rfl⟩

theorem lift_inv {r : Except Fault α} {a : α} {s s' : Session} (h : lift r s = .ok a s') :
    r = .ok a ∧ s' = s := by
  cases r with
  | ok b => cases h; exact ⟨rfl, rfl⟩
  | error f => cases h

theorem throw_ne_ok {f : Fault} {a : α} {s s' : Session} : (throw f : Eval α) s ≠ .ok a s' := by
  intro h
  cases h

@[simp] theorem getTally_run (s : Session) : getTally s = .ok s.tally s := rfl

@[simp] theorem modifyTally_run (g : Tally → Tally) (s : Session) :
    modifyTally g s = .ok () ⟨g s.tally, s.draws⟩ := rfl

@[simp] theorem get_run (s : Session) : (get : Eval Session) s = .ok s s := rfl

@[simp] theorem set_run (s s' : Session) : (set s' : Eval PUnit) s = .ok ⟨⟩ s' := rfl

@[simp] theorem pushColour_run (c : String) (s : Session) :
    pushColour c s = .ok () ⟨{ s.tally with colours := c :: s.tally.colours }, s.draws⟩ := rfl

/-- Popping gives the most recent tag, or the empty colour when there is none. -/
theorem popColour_run (s : Session) :
    popColour s = .ok (s.tally.colours.head?.getD "")
      ⟨{ s.tally with colours := s.tally.colours.tail }, s.draws⟩ := by
  obtain ⟨⟨throws, totals, high, low, colours, depth, limits⟩, draws⟩ := s
  cases colours <;> rfl

/-- The throws with the latest `k` of them given a colour. -/
def paintLatest (k : Nat) (colour : String) (a : Array Throw) : Array Throw :=
  (List.range k).foldl (fun a j => a.modify (a.size - 1 - j) fun th => { th with colour }) a

theorem recolour_run (k : Nat) (colour : String) (s : Session) :
    recolour k colour s =
      .ok () ⟨{ s.tally with throws := paintLatest k colour s.tally.throws }, s.draws⟩ := rfl

theorem paintLatest_succ (k : Nat) (colour : String) (a : Array Throw) :
    paintLatest (k + 1) colour a =
      (paintLatest k colour a).modify ((paintLatest k colour a).size - 1 - k)
        fun th => { th with colour } := by
  rw [paintLatest, List.range_succ, List.foldl_append]
  rfl

theorem size_paintLatest (k : Nat) (colour : String) (a : Array Throw) :
    (paintLatest k colour a).size = a.size := by
  induction k with
  | zero => rfl
  | succ k ih => rw [paintLatest_succ, Array.size_modify, ih]

/-- The throw at place `j` after painting: coloured among the latest `k`, else as it was. -/
theorem getElem?_paintLatest (colour : String) (a : Array Throw) :
    ∀ k, k ≤ a.size → ∀ j, (paintLatest k colour a)[j]? =
      if a.size - k ≤ j then a[j]?.map (fun th => { th with colour }) else a[j]?
  | 0, _, j => by
    by_cases hj : a.size ≤ j
    · simp [paintLatest, hj]
    · simp [paintLatest, hj]
  | k + 1, hk, j => by
    rw [paintLatest_succ, Array.getElem?_modify, getElem?_paintLatest colour a k (by omega),
      size_paintLatest]
    by_cases h1 : a.size - 1 - k = j
    · subst h1
      simp [show a.size - (k + 1) ≤ a.size - 1 - k by omega,
        show ¬ a.size - k ≤ a.size - 1 - k by omega]
    · have h3 : a.size - (k + 1) ≤ j ↔ a.size - k ≤ j := by omega
      by_cases h2 : a.size - k ≤ j <;> simp [h1, h2, h3]

/-- Painting the latest `k` throws keeps the ones before and colours the rest. -/
theorem toList_paintLatest (colour : String) (a : Array Throw) {k : Nat} (hk : k ≤ a.size) :
    (paintLatest k colour a).toList =
      a.toList.take (a.size - k) ++ (a.toList.drop (a.size - k)).map fun th => { th with colour } := by
  apply List.ext_getElem?
  intro j
  rw [Array.getElem?_toList, getElem?_paintLatest colour a k hk j]
  by_cases hj : a.size - k ≤ j
  · rw [if_pos hj, List.getElem?_append_right (by simp; omega)]
    simp only [List.length_take, Array.length_toList, List.getElem?_map, List.getElem?_drop,
      Array.getElem?_toList]
    rw [show a.size - k + (j - min (a.size - k) a.size) = j by omega]
  · rw [if_neg hj, List.getElem?_append_left (by simp; omega), List.getElem?_take_of_lt (by omega)]
    simp

/-- Crediting changes only the totals: at depth 0 by the credit, elsewhere not at all. -/
theorem addToColour_inv {colour : String} {v : Value} {s s' : Session} {u : Unit}
    (h : addToColour colour v s = .ok u s') :
    ∃ totals, s' = ⟨{ s.tally with totals }, s.draws⟩ ∧
      (s.tally.depth ≠ 0 → totals = s.tally.totals) ∧
      (s.tally.depth = 0 → Tally.credit s.tally.totals colour v = .ok totals) := by
  unfold addToColour at h
  obtain ⟨t, s₁, ht, h₁⟩ := bind_inv h
  rw [getTally_run] at ht
  cases ht
  by_cases hd : s.tally.depth = 0
  · rw [if_pos hd] at h₁
    obtain ⟨totals, s₂, hc, h₂⟩ := bind_inv h₁
    obtain ⟨hcredit, hs₂⟩ := lift_inv hc
    rw [hs₂, modifyTally_run] at h₂
    cases h₂
    exact ⟨totals, rfl, fun h => absurd hd h, fun _ => hcredit⟩
  · rw [if_neg hd] at h₁
    cases h₁
    exact ⟨s.tally.totals, rfl, fun _ => rfl, fun h => absurd h hd⟩

/-- Rolling and recording a throw: at depth 0 it takes the most recent tag as its
colour; it takes the waiting drops, which are cleared; the throw rolled is
recorded and its total credited to its colour. -/
theorem pushAndRoll_inv {th : Throw} {s s' : Session} {total : Int}
    (h : pushAndRoll th s = .ok total s') :
    ∃ rolled draws,
      Throw.roll s.tally.limits
          { th with colour := if s.tally.depth = 0 then s.tally.colours.head?.getD "" else th.colour,
                    dropHighest := s.tally.dropHighest, dropLowest := s.tally.dropLowest }
          s.draws = (draws, .ok rolled) ∧
      total = rolled.total ∧
      addToColour rolled.colour (.int rolled.total)
        ⟨{ s.tally with
            colours := if s.tally.depth = 0 then s.tally.colours.tail else s.tally.colours,
            dropHighest := 0, dropLowest := 0, throws := s.tally.throws.push rolled }, draws⟩ =
        .ok () s' := by
  unfold pushAndRoll at h
  obtain ⟨t₀, s₀, h₀, h₁⟩ := bind_inv h
  rw [getTally_run] at h₀
  cases h₀
  clear h
  -- the colour is the most recent tag at depth 0, and the throw's own otherwise
  by_cases hd : s.tally.depth = 0 <;> simp only [hd, ↓reduceIte] at h₁ <;>
    obtain ⟨c, s₂, hc, h₂⟩ := bind_inv h₁
  case' pos =>
    rw [popColour_run] at hc
    cases hc
  case' neg =>
    obtain ⟨rfl, rfl⟩ := pure_inv hc
  all_goals
    simp only [bind, EStateM.bind, getTally_run, modifyTally_run, get_run, set_run] at h₂
    generalize hr : Throw.roll _ _ _ = r at h₂
    obtain ⟨draws, res⟩ := r
    cases res with
    | error f => cases h₂
    | ok rolled =>
      simp only [lift, pure, EStateM.pure] at h₂
      split at h₂
      · rename_i u s₃ ha
        cases h₂
        exact ⟨rolled, draws, by simpa only [hd, ↓reduceIte] using hr, rfl,
          by simpa only [hd, ↓reduceIte] using ha⟩
      · cases h₂

/-! ## Nodes evaluated in turn -/

/-- The nodes of a list, evaluated in turn and each successfully, lead from one
session to another. -/
inductive Walk : List Node → Session → Session → Prop
  | nil (s : Session) : Walk [] s s
  | cons {c : Node} {cs : List Node} {s s₁ s₂ : Session} {v : Value} :
      eval c s = .ok v s₁ → Walk cs s₁ s₂ → Walk (c :: cs) s s₂

theorem Walk.single {c : Node} {s s' : Session} {v : Value} (h : eval c s = .ok v s') :
    Walk [c] s s' :=
  .cons h (.nil s')

theorem Walk.append {as bs : List Node} {s s₁ s₂ : Session} (ha : Walk as s s₁)
    (hb : Walk bs s₁ s₂) : Walk (as ++ bs) s s₂ := by
  induction ha with
  | nil => exact hb
  | cons hc _ ih => exact .cons hc (ih hb)

/-- A relation between sessions that is reflexive, transitive and kept by the
evaluation of each node of a walk is kept by the walk. -/
theorem Walk.preserves {R : Session → Session → Prop} (refl : ∀ s, R s s)
    (trans : ∀ {s₁ s₂ s₃}, R s₁ s₂ → R s₂ s₃ → R s₁ s₃) {cs : List Node} {s s' : Session}
    (hw : Walk cs s s')
    (h : ∀ c ∈ cs, ∀ {s₀ s₁ : Session} {v : Value}, eval c s₀ = .ok v s₁ → R s₀ s₁) :
    R s s' := by
  induction hw with
  | nil s => exact refl s
  | cons hc _ ih =>
    exact trans (h _ (List.mem_cons_self ..) hc) (ih fun c hc' => h c (List.mem_cons_of_mem _ hc'))

/-- A step that changes the session as evaluating `c` does, when it succeeds. -/
def ActsAs (x : Eval β) (c : Node) : Prop :=
  ∀ s r s', x s = .ok r s' → ∃ v, eval c s = .ok v s'

theorem walk_foldlM (g : α → Node) {f : β → α → Eval β} (hf : ∀ b a, ActsAs (f b a) (g a))
    (l : List α) : ∀ (init : β) (s s' : Session) (r : β),
      l.foldlM f init s = .ok r s' → Walk (l.map g) s s' := by
  induction l with
  | nil =>
    intro init s s' r h
    obtain ⟨-, rfl⟩ := pure_inv h
    exact .nil _
  | cons a l ih =>
    intro init s s' r h
    rw [List.foldlM_cons] at h
    obtain ⟨b, s₁, h₁, h₂⟩ := bind_inv h
    obtain ⟨v, hv⟩ := hf init a s b s₁ h₁
    exact .cons hv (ih _ _ _ _ h₂)

theorem walk_mapM (g : α → Node) {f : α → Eval β} (hf : ∀ a, ActsAs (f a) (g a)) (l : List α) :
    ∀ (s s' : Session) (r : List β), l.mapM f s = .ok r s' → Walk (l.map g) s s' := by
  induction l with
  | nil =>
    intro s s' r h
    obtain ⟨-, rfl⟩ := pure_inv h
    exact .nil _
  | cons a l ih =>
    intro s s' r h
    rw [List.mapM_cons] at h
    obtain ⟨b, s₁, h₁, h₂⟩ := bind_inv h
    obtain ⟨bs, s₂, h₃, h₄⟩ := bind_inv h₂
    obtain ⟨-, rfl⟩ := pure_inv h₄
    obtain ⟨v, hv⟩ := hf a s b s₁ h₁
    exact .cons hv (ih _ _ _ h₃)

theorem walk_forIn (g : α → Node) (l : List α) :
    ∀ (s s' : Session) (u : PUnit),
      (forIn l PUnit.unit fun a _ =>
          (do let _ ← eval (g a); pure (ForInStep.yield PUnit.unit) : Eval (ForInStep PUnit)))
        s = .ok u s' → Walk (l.map g) s s' := by
  induction l with
  | nil =>
    intro s s' u h
    obtain ⟨-, rfl⟩ := pure_inv h
    exact .nil _
  | cons a l ih =>
    intro s s' u h
    rw [List.forIn_cons] at h
    obtain ⟨r, s₁, h₁, h₂⟩ := bind_inv h
    obtain ⟨v, s₂, hv, h₃⟩ := bind_inv h₁
    obtain ⟨rfl, rfl⟩ := pure_inv h₃
    exact .cons hv (ih _ _ _ h₂)

/-- Evaluating a body `k` times, adding up, evaluates `k` copies of it in turn. -/
theorem walk_repeatSum (body : Node) (k : Nat) :
    ∀ (acc : Value) (s s' : Session) (r : Value),
      repeatSum (eval body) k acc s = .ok r s' → Walk (List.replicate k body) s s' := by
  induction k with
  | zero =>
    intro acc s s' r h
    obtain ⟨-, rfl⟩ := pure_inv h
    exact .nil _
  | succ k ih =>
    intro acc s s' r h
    rw [repeatSum] at h
    obtain ⟨v, s₁, hv, h₁⟩ := bind_inv h
    obtain ⟨acc', s₂, hacc, h₂⟩ := bind_inv h₁
    obtain ⟨-, rfl⟩ := lift_inv hacc
    exact .cons hv (ih _ _ _ _ h₂)


/-- A step that leaves the session as it was, when it succeeds. -/
def Stays (x : Eval β) : Prop :=
  ∀ s r s', x s = .ok r s' → s' = s

theorem stays_lift (r : Except Fault β) : Stays (lift r) := fun _ _ _ h => (lift_inv h).2

theorem stays_pure (b : β) : Stays (pure b : Eval β) := fun _ _ _ h => (pure_inv h).2

/-- Evaluating a node and then a step that leaves the session alone. -/
theorem actsAs_eval_bind {c : Node} {f : Value → Eval β} (hf : ∀ v, Stays (f v)) :
    ActsAs (eval c >>= f) c := by
  intro s r s' h
  obtain ⟨v, s₁, h₁, h₂⟩ := bind_inv h
  rw [hf v s₁ r s' h₂]
  exact ⟨v, h₁⟩

theorem childAt_of_lt {cs : List Node} {i : Nat} (h : i < cs.length) :
    childAt cs i = pure ⟨cs[i], List.getElem_mem h⟩ := by
  unfold childAt
  split
  · rename_i c hc
    rw [List.getElem?_eq_getElem h, Option.some.injEq] at hc
    subst hc
    rfl
  · rename_i hc
    rw [List.getElem?_eq_getElem h] at hc
    cases hc

theorem childAt_of_le {cs : List Node} {i : Nat} (h : cs.length ≤ i) :
    childAt cs i = throw .missingItem := by
  unfold childAt
  split
  · rename_i c hc
    rw [List.getElem?_eq_none h] at hc
    cases hc
  · rfl

theorem childAt_inv {cs : List Node} {i : Nat} {c : { c // c ∈ cs }} {s s' : Session}
    (h : childAt cs i s = .ok c s') : cs[i]? = some c.1 ∧ s' = s := by
  by_cases hi : i < cs.length
  · rw [childAt_of_lt hi] at h
    obtain ⟨rfl, rfl⟩ := pure_inv h
    exact ⟨List.getElem?_eq_getElem hi, rfl⟩
  · rw [childAt_of_le (Nat.le_of_not_lt hi)] at h
    exact absurd h throw_ne_ok

/-- The kinds of node the evaluator tells apart. -/
inductive Kind where
  | children | drop | throw | chain | tag | «repeat» | branch | unsupported
  deriving DecidableEq

/-- The kind of a node, from its symbol in capital letters, tested in the order
the evaluator tests it. -/
def kindOf (n : Node) : Kind :=
  if Text.upper n.sym = Symbol.number.text then .children
  else if Text.upper n.sym = Symbol.dropHighest.text ∨ Text.upper n.sym = Symbol.dropLowest.text then
    .drop
  else if Text.upper n.sym = "D" then .throw
  else if Text.upper n.sym = "+" ∨ Text.upper n.sym = "-" ∨ Text.upper n.sym = "*" ∨
      Text.upper n.sym = "/" ∨ Text.upper n.sym = "^" ∨ Text.upper n.sym = "MOD" then .chain
  else if Text.upper n.sym = "\x7b" ∨ Text.upper n.sym = "ROLL" ∨
      Text.upper n.sym = "(ROOTNODE)" then .children
  else if Text.upper n.sym = Symbol.ident.text then .tag
  else if Text.upper n.sym = "REP" then .repeat
  else if Text.upper n.sym = "IF" then .branch
  else .unsupported

/-- The kind of a node is read off its symbol alone. -/
theorem kindOf_mk (sym v : String) (line col : Nat) (cs : List Node) :
    kindOf (.mk sym v line col cs) = kindOf (.leaf sym "" 0 0) :=
  rfl

theorem kindOf_chain {n : Node} (hk : n.IsArithmetic) : kindOf n = .chain := by
  unfold kindOf
  rw [if_neg (hk.upper_ne (by decide)), if_neg (by rintro (h | h) <;> exact hk.upper_ne (by decide) h),
    if_neg (hk.upper_ne (by decide)), if_pos (show _ ∨ _ from hk)]

theorem kindOf_children {n : Node}
    (hk : Text.upper n.sym = Symbol.number.text ∨ Text.upper n.sym = "\x7b" ∨
      Text.upper n.sym = "ROLL" ∨ Text.upper n.sym = "(ROOTNODE)") : kindOf n = .children := by
  unfold kindOf
  rcases hk with hk | hk | hk | hk <;> rw [hk] <;> decide

theorem kindOf_throw {n : Node} (hk : Text.upper n.sym = "D") : kindOf n = .throw := by
  unfold kindOf
  rw [hk]
  decide

/-- The tally once a drop node sets the drops it names to `count`. -/
def setDrop (n : Node) (count : Int) (t : Tally) : Tally :=
  if Text.upper n.sym = Symbol.dropHighest.text then { t with dropHighest := count }
  else { t with dropLowest := count }

theorem weight_lt_of_getElem? {n c : Node} {i : Nat} (h : n.children[i]? = some c) :
    c.weight < n.weight :=
  Node.weight_lt_of_mem (List.mem_of_getElem? h)

/-- The branch an `if` node takes: its second child, its third, or none when it has no third. -/
inductive Chosen (n : Node) : List Node → Prop
  | first {c : Node} : n.children[1]? = some c → Chosen n [c]
  | second {c : Node} : n.children[2]? = some c → Chosen n [c]
  | none : n.children.length < 3 → Chosen n []

theorem Chosen.mem {n : Node} {chosen : List Node} (h : Chosen n chosen) :
    ∀ c ∈ chosen, c ∈ n.children := by
  cases h with
  | first hc | second hc =>
    intro c' hc'
    rw [List.mem_singleton.mp hc']
    exact List.mem_of_getElem? hc
  | none => simp

/-- The sides of the comparison of an `if` and the branch it takes are smaller than it. -/
theorem branch_weight_lt {n cond left right : Node} {chosen : List Node}
    (hc : n.children[0]? = some cond) (hl : cond.children[0]? = some left)
    (hr : cond.children[1]? = some right) (hch : Chosen n chosen) :
    ∀ c ∈ left :: right :: chosen, c.weight < n.weight := by
  have hcond := weight_lt_of_getElem? hc
  intro c hc'
  rcases List.mem_cons.mp hc' with rfl | hc'
  · exact Nat.lt_trans (weight_lt_of_getElem? hl) hcond
  rcases List.mem_cons.mp hc' with rfl | hc'
  · exact Nat.lt_trans (weight_lt_of_getElem? hr) hcond
  · exact Node.weight_lt_of_mem (hch.mem c hc')

/-- What a successful evaluation of a node did, by the kind of the node: the
nodes it evaluated in turn, and its own change of the session around them. -/
inductive Ran (n : Node) (s : Session) (v : Value) : Kind → Session → Prop
  /-- A literal (its tags first), a block, a `roll` statement or the root
  evaluates its children in turn. -/
  | children {s' : Session}
      (hk : Text.upper n.sym = Symbol.number.text ∨ Text.upper n.sym = "\x7b" ∨
        Text.upper n.sym = "ROLL" ∨ Text.upper n.sym = "(ROOTNODE)")
      (hw : Walk n.children s s') : Ran n s v .children s'
  /-- A drop evaluates its children and sets the drops it names. -/
  | drop {s₁ : Session}
      (hk : Text.upper n.sym = Symbol.dropHighest.text ∨ Text.upper n.sym = Symbol.dropLowest.text)
      (hw : Walk n.children s s₁) (count : Int) :
      Ran n s v .drop ⟨setDrop n count s₁.tally, s₁.draws⟩
  /-- A throw evaluates its operands, then rolls and records a throw. -/
  | throw {s₁ s' : Session} (hk : Text.upper n.sym = "D") (hw : Walk n.children s s₁)
      (count sides total : Int) (hr : pushAndRoll { count, sides } s₁ = .ok total s') :
      Ran n s v .throw s'
  /-- An operator chain that does not come back to depth 0 evaluates its
  operands one level deeper and comes back up. -/
  | chain {s₁ : Session} (hk : n.IsArithmetic)
      (hw : Walk n.children ⟨{ s.tally with depth := s.tally.depth + 1 }, s.draws⟩ s₁)
      (hc : s₁.tally.colours.length ≤ 1) (hd : s₁.tally.depth - 1 ≠ 0) :
      Ran n s v .chain ⟨{ s₁.tally with depth := s₁.tally.depth - 1 }, s₁.draws⟩
  /-- An operator chain back at depth 0 then takes the most recent tag as the
  colour of the throws its operands added, and credits its value to it. -/
  | chainTop {s₁ s' : Session} (hk : n.IsArithmetic)
      (hw : Walk n.children ⟨{ s.tally with depth := s.tally.depth + 1 }, s.draws⟩ s₁)
      (hc : s₁.tally.colours.length ≤ 1) (hd : s₁.tally.depth - 1 = 0)
      (ha : addToColour (s₁.tally.colours.head?.getD "") v
        ⟨{ s₁.tally with
            depth := s₁.tally.depth - 1, colours := s₁.tally.colours.tail,
            throws := paintLatest (s₁.tally.throws.size - s.tally.throws.size)
              (s₁.tally.colours.head?.getD "") s₁.tally.throws }, s₁.draws⟩ = .ok () s') :
      Ran n s v .chain s'
  /-- A tag pushes its colour. -/
  | tag (hk : Text.upper n.sym = Symbol.ident.text) :
      Ran n s v .tag ⟨{ s.tally with colours := n.value :: s.tally.colours }, s.draws⟩
  /-- A repetition evaluates its count (its second child), then its body (the
  first) as many times as the count's integer part. -/
  | repeat {body count : Node} {cv : Value} {reps : Int} {s₁ s' : Session}
      (hk : Text.upper n.sym = "REP") (hb : n.children[0]? = some body)
      (hc : n.children[1]? = some count) (hcount : eval count s = .ok cv s₁)
      (hreps : cv.toInt = .ok reps) (hw : Walk (List.replicate reps.toNat body) s₁ s') :
      Ran n s v .repeat s'
  /-- An `if` evaluates the two sides of its comparison (its first child), then
  the branch it selects: the second child, the third, or none when there is no third. -/
  | branch {cond left right : Node} {s' : Session} (hk : Text.upper n.sym = "IF")
      (hc : n.children[0]? = some cond) (hcmp : cond.IsComparison)
      (hl : cond.children[0]? = some left)
      (hr : cond.children[1]? = some right) (chosen : List Node)
      (hch : Chosen n chosen) (hw : Walk (left :: right :: chosen) s s') : Ran n s v .branch s'

/-- Every successful evaluation is the step of `Ran` that the kind of the node
selects: the evaluator is opened once here, following its chain of tests on the
symbol. -/
theorem eval_ran {n : Node} {s s' : Session} {v : Value} (h : eval n s = .ok v s') :
    Ran n s v (kindOf n) s' := by
  have hval := List.attach_map_subtype_val n.children
  rw [eval] at h
  unfold evalWith at h
  unfold kindOf
  by_cases hnum : Text.upper n.sym = Symbol.number.text
  · rw [if_pos hnum] at h ⊢
    obtain ⟨u, s₁, h₁, h₂⟩ := bind_inv h
    obtain ⟨x, s₂, h₃, h₄⟩ := bind_inv h₂
    obtain ⟨-, rfl⟩ := lift_inv h₃
    obtain ⟨-, rfl⟩ := pure_inv h₄
    have hw := walk_forIn Subtype.val n.children.attach _ _ u h₁
    rw [hval] at hw
    exact .children (.inl hnum) hw
  rw [if_neg hnum] at h ⊢
  by_cases hdrop : Text.upper n.sym = Symbol.dropHighest.text ∨
      Text.upper n.sym = Symbol.dropLowest.text
  · rw [if_pos hdrop] at h ⊢
    obtain ⟨total, s₁, h₁, h₂⟩ := bind_inv h
    have hw := walk_foldlM Subtype.val
      (fun _ _ => actsAs_eval_bind fun _ => stays_lift _) _ _ _ _ _ h₁
    rw [hval] at hw
    obtain ⟨count, s₂, h₃, h₄⟩ := bind_inv h₂
    obtain ⟨-, rfl⟩ := lift_inv h₃
    dsimp only at h₄
    split at h₄ <;> rename_i hhigh
    · obtain ⟨u, s₃, h₅, h₆⟩ := bind_inv h₄
      rw [modifyTally_run] at h₅
      cases h₅
      obtain ⟨-, rfl⟩ := pure_inv h₆
      have hset : setDrop n count s₂.tally = { s₂.tally with dropHighest := count } :=
        if_pos hhigh
      rw [← hset]
      exact .drop hdrop hw count
    · obtain ⟨u, s₃, h₅, h₆⟩ := bind_inv h₄
      rw [modifyTally_run] at h₅
      cases h₅
      obtain ⟨-, rfl⟩ := pure_inv h₆
      have hset : setDrop n count s₂.tally = { s₂.tally with dropLowest := count } :=
        if_neg hhigh
      rw [← hset]
      exact .drop hdrop hw count
  rw [if_neg hdrop] at h ⊢
  by_cases hdice : Text.upper n.sym = "D"
  · rw [if_pos hdice] at h ⊢
    obtain ⟨nums, s₁, h₁, h₂⟩ := bind_inv h
    have hw := walk_mapM Subtype.val
      (fun _ => actsAs_eval_bind fun _ => stays_lift _) _ _ _ _ h₁
    rw [hval] at hw
    rcases nums with _ | ⟨count, _ | ⟨sides, rest⟩⟩
    · exact absurd h₂ throw_ne_ok
    · exact absurd h₂ throw_ne_ok
    · obtain ⟨total, s₂, h₃, h₄⟩ := bind_inv h₂
      obtain ⟨x, s₃, h₅, h₆⟩ := bind_inv h₄
      obtain ⟨-, rfl⟩ := lift_inv h₅
      obtain ⟨-, rfl⟩ := pure_inv h₆
      exact .throw hdice hw count sides total h₃
  rw [if_neg hdice] at h ⊢
  by_cases harith : n.IsArithmetic
  · rw [if_pos (show _ ∨ _ from harith)] at h ⊢
    obtain ⟨t₀, s₀, h₀, h₁⟩ := bind_inv h
    rw [getTally_run] at h₀
    cases h₀
    dsimp only at h₁
    obtain ⟨u, s₁, h₂, h₃⟩ := bind_inv h₁
    rw [modifyTally_run] at h₂
    cases h₂
    obtain ⟨nums, s₁, h₄, h₅⟩ := bind_inv h₃
    have hw := walk_foldlM Subtype.val (fun _ c => by
      split
      · exact actsAs_eval_bind fun _ => stays_pure _
      · exact actsAs_eval_bind fun _ => stays_pure _) _ _ _ _ _ h₄
    rw [hval] at hw
    obtain ⟨u, s₂, h₆, h₇⟩ := bind_inv h₅
    rw [modifyTally_run] at h₆
    cases h₆
    obtain ⟨t, s₃, h₈, h₉⟩ := bind_inv h₇
    rw [getTally_run] at h₈
    cases h₈
    dsimp only at h₉
    obtain ⟨x, s₄, h₁₀, h₁₁⟩ := bind_inv h₉
    obtain ⟨-, rfl⟩ := lift_inv h₁₀
    obtain ⟨t, s₅, h₁₂, h₁₃⟩ := bind_inv h₁₁
    rw [getTally_run] at h₁₂
    cases h₁₂
    dsimp only at h₁₃
    -- refused when the operands left more than one tag; else at depth 0 it pops and credits
    split at h₁₃
    · obtain ⟨_, _, hthrow, -⟩ := bind_inv h₁₃
      exact absurd hthrow throw_ne_ok
    rename_i hc
    split at h₁₃
    · rename_i hd
      obtain ⟨colour, s₆, h₁₄, h₁₅⟩ := bind_inv h₁₃
      rw [popColour_run] at h₁₄
      cases h₁₄
      obtain ⟨u, s₇, h₁₆, h₁₇⟩ := bind_inv h₁₅
      rw [recolour_run] at h₁₆
      cases h₁₆
      obtain ⟨u, s₈, h₁₈, h₁₉⟩ := bind_inv h₁₇
      obtain ⟨rfl, rfl⟩ := pure_inv h₁₉
      exact .chainTop harith hw (by simpa using hc) hd h₁₈
    · rename_i hd
      obtain ⟨rfl, rfl⟩ := pure_inv h₁₃
      exact .chain harith hw (by simpa using hc) hd
  rw [if_neg (show ¬ (_ ∨ _) from harith)] at h ⊢
  by_cases hsum : Text.upper n.sym = "\x7b" ∨ Text.upper n.sym = "ROLL" ∨
      Text.upper n.sym = "(ROOTNODE)"
  · rw [if_pos hsum] at h ⊢
    have hw := walk_foldlM Subtype.val
      (fun _ _ => actsAs_eval_bind fun _ => stays_lift _) _ _ _ _ _ h
    rw [hval] at hw
    exact .children (.inr hsum) hw
  rw [if_neg hsum] at h ⊢
  by_cases hident : Text.upper n.sym = Symbol.ident.text
  · rw [if_pos hident] at h ⊢
    obtain ⟨u, s₁, h₁, h₂⟩ := bind_inv h
    rw [pushColour_run] at h₁
    cases h₁
    obtain ⟨rfl, rfl⟩ := pure_inv h₂
    exact .tag hident
  rw [if_neg hident] at h ⊢
  by_cases hrep : Text.upper n.sym = "REP"
  · rw [if_pos hrep] at h ⊢
    obtain ⟨body, s₁, h₁, h₂⟩ := bind_inv h
    obtain ⟨hb, rfl⟩ := childAt_inv h₁
    obtain ⟨count, s₂, h₃, h₄⟩ := bind_inv h₂
    obtain ⟨hc, rfl⟩ := childAt_inv h₃
    obtain ⟨cv, s₃, h₅, h₆⟩ := bind_inv h₄
    obtain ⟨reps, s₄, h₇, h₈⟩ := bind_inv h₆
    obtain ⟨hreps, rfl⟩ := lift_inv h₇
    exact .repeat hrep hb hc h₅ hreps (walk_repeatSum _ _ _ _ _ _ h₈)
  rw [if_neg hrep] at h ⊢
  by_cases hif : Text.upper n.sym = "IF"
  · rw [if_pos hif] at h ⊢
    obtain ⟨cond, s₁, h₁, h₂⟩ := bind_inv h
    obtain ⟨hc, rfl⟩ := childAt_inv h₁
    dsimp only at h₂
    -- a condition that is not a comparison is refused
    split at h₂
    · obtain ⟨_, _, hthrow, -⟩ := bind_inv h₂
      exact absurd hthrow throw_ne_ok
    rename_i hcond
    have hcmp : cond.1.IsComparison :=
      Decidable.byContradiction fun hn => hcond (by simpa [Node.IsComparison] using hn)
    obtain ⟨left, s₂, h₃, h₄⟩ := bind_inv h₂
    obtain ⟨hl, rfl⟩ := childAt_inv h₃
    obtain ⟨lv, s₃, h₅, h₆⟩ := bind_inv h₄
    obtain ⟨right, s₄, h₇, h₈⟩ := bind_inv h₆
    obtain ⟨hr, rfl⟩ := childAt_inv h₇
    obtain ⟨rv, s₅, h₉, h₁₀⟩ := bind_inv h₈
    split at h₁₀
    · obtain ⟨c, s₆, h₁₁, h₁₂⟩ := bind_inv h₁₀
      obtain ⟨hc', rfl⟩ := childAt_inv h₁₁
      exact .branch hif hc hcmp hl hr [c.1] (.first hc') (.cons h₅ (.cons h₉ (.single h₁₂)))
    split at h₁₀
    · rename_i hlen
      obtain ⟨rfl, rfl⟩ := pure_inv h₁₀
      exact .branch hif hc hcmp hl hr [] (.none hlen) (.cons h₅ (.cons h₉ (.nil _)))
    · obtain ⟨c, s₆, h₁₁, h₁₂⟩ := bind_inv h₁₀
      obtain ⟨hc', rfl⟩ := childAt_inv h₁₁
      exact .branch hif hc hcmp hl hr [c.1] (.second hc') (.cons h₅ (.cons h₉ (.single h₁₂)))
  rw [if_neg hif] at h
  exact absurd h throw_ne_ok
end Eval

end DiceNotation
