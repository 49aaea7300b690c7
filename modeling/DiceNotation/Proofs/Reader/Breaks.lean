import Mathlib.Control.Monad.Basic
import DiceNotation.Proofs.Formula.Read
/-!
# Where line breaks stand in a tree read

A statement that starts with line breaks is read by skipping them: before the
end of input it gives the node of the end of input, before a closing brace the
node of the break, and otherwise the statement after the breaks.  A list of
statements leaves those nodes out, but `roll` keeps whatever statement follows
it.  So a tree read from a command holds a break node (`(EOF)` or `(NEWLINE)`)
only as a leaf standing alone under a `roll`, and `roll` followed by nothing but
line breaks is read as `roll` over the end of input
(`Node.parse_breaks_under_roll`, `Node.parse_roll_newline`).

The proof follows the reader's recursion.  `ReadsTidy fuel` says what each
reading function gives with `fuel` steps: expressions never hold a break, a
statement is tidy or a break leaf (only when it starts with a line break), and
blocks and lists of statements are tidy.  It holds with no steps, since then
nothing is read, and each function is shown to keep it from `fuel` to
`fuel + 1` steps.
-/

namespace DiceNotation

namespace Node

/-- The node of a line break or of the end of input. -/
def IsBreak (n : Node) : Prop :=
  n.sym = Symbol.eof.text ∨ n.sym = Symbol.newline.text

/-- No node of the tree is a break. -/
def BreakFree (n : Node) : Prop :=
  ∀ m ∈ n.subtrees, ¬ m.IsBreak

/-- Every break node of the tree is a leaf and the only child of a `roll` node. -/
def BreaksUnderRoll (n : Node) : Prop :=
  ∀ m ∈ n.subtrees, m.IsBreak →
    m.children = [] ∧ ∃ p ∈ n.subtrees, p.sym = Symbol.rollWord.text ∧ p.children = [m]

/-- A tree that is no break itself and holds breaks only alone under a `roll`. -/
def Tidy (n : Node) : Prop :=
  ¬ n.IsBreak ∧ n.BreaksUnderRoll

/-- A tidy tree, or a break leaf. -/
def TidyOrBreak (n : Node) : Prop :=
  n.Tidy ∨ (n.IsBreak ∧ n.children = [])

@[simp] theorem isBreak_mk {s v : String} {l k : Nat} {cs : List Node} :
    (mk s v l k cs).IsBreak ↔ s = Symbol.eof.text ∨ s = Symbol.newline.text := Iff.rfl

theorem isBreak_text {s : Symbol} : (s.text = Symbol.eof.text ∨ s.text = Symbol.newline.text) ↔
    s = .eof ∨ s = .newline := by
  simp only [Symbol.text_inj]

theorem breakFree_mk {s v : String} {l k : Nat} {cs : List Node}
    (hs : ¬ (mk s v l k cs).IsBreak) (hcs : ∀ c ∈ cs, c.BreakFree) : (mk s v l k cs).BreakFree := by
  intro m hm
  simp only [subtrees_mk, List.mem_cons, List.mem_flatMap] at hm
  rcases hm with rfl | ⟨c, hc, hm⟩
  · exact hs
  · exact hcs c hc m hm

theorem BreakFree.push {n c : Node} (hn : n.BreakFree) (hc : c.BreakFree) : (n.push c).BreakFree := by
  cases n with
  | mk s v l k cs =>
    have hpush : (mk s v l k cs).push c = mk s v l k (cs ++ [c]) := rfl
    rw [hpush]
    refine breakFree_mk (hn (mk s v l k cs) (mem_subtrees_self _)) ?_
    intro d hd
    simp only [List.mem_append, List.mem_singleton] at hd
    rcases hd with hd | rfl
    · exact fun m hm => hn m (subtrees_subset_of_mem (by simpa using hd) hm)
    · exact hc

theorem BreakFree.tidy {n : Node} (h : n.BreakFree) : n.Tidy :=
  ⟨h n (mem_subtrees_self n), fun m hm hb => absurd hb (h m hm)⟩

theorem tidy_mk {s v : String} {l k : Nat} {cs : List Node}
    (hs : ¬ (mk s v l k cs).IsBreak) (hcs : ∀ c ∈ cs, c.Tidy) : (mk s v l k cs).Tidy := by
  refine ⟨hs, fun m hm hb => ?_⟩
  simp only [subtrees_mk, List.mem_cons, List.mem_flatMap] at hm
  rcases hm with rfl | ⟨c, hc, hm⟩
  · exact absurd hb hs
  · obtain ⟨hleaf, p, hp, hroll⟩ := (hcs c hc).2 m hm hb
    exact ⟨hleaf, p, subtrees_subset_of_mem (by simpa using hc) hp, hroll⟩

/-- A `roll` over a tidy tree or a break leaf is tidy. -/
theorem tidy_roll {v : String} {l k : Nat} {b : Node} (hb : b.TidyOrBreak) :
    (mk Symbol.rollWord.text v l k [b]).Tidy := by
  have hroll : ¬ (mk Symbol.rollWord.text v l k [b]).IsBreak := by simp [isBreak_text]
  rcases hb with hb | ⟨hbreak, hleaf⟩
  · exact tidy_mk hroll (by simpa using hb)
  · refine ⟨hroll, fun m hm hm' => ?_⟩
    obtain ⟨s, w, l', k', cs⟩ := b
    simp only [children_mk] at hleaf
    subst hleaf
    simp only [subtrees_mk, List.flatMap_cons, List.flatMap_nil, List.append_nil,
      List.mem_cons, List.not_mem_nil, or_false] at hm
    rcases hm with rfl | rfl
    · exact absurd hm' hroll
    · exact ⟨rfl, _, mem_subtrees_self _, rfl, rfl⟩

theorem tidyOrBreak_leaf (s v : String) (l k : Nat) : (leaf s v l k).TidyOrBreak := by
  by_cases hs : (leaf s v l k).IsBreak
  · exact .inr ⟨hs, rfl⟩
  · exact .inl (tidy_mk hs (by simp))

end Node

namespace Reader

open Node

/-! ## Results of successful reads -/

/-- Every result of a successful read satisfies `P`. -/
def Yields {α : Type} (x : Reader α) (P : α → Prop) : Prop :=
  ∀ c a c', x c = .ok (a, c') → P a

theorem bind_inv {α β : Type} {x : Reader α} {f : α → Reader β} {c c'' : Cursor} {b : β}
    (h : (x >>= f) c = .ok (b, c'')) : ∃ a c', x c = .ok (a, c') ∧ f a c' = .ok (b, c'') := by
  have hbind : (x >>= f) c = (do let (a, s) ← x c; f a s) := rfl
  rw [hbind] at h
  cases hx : x c with
  | error e => rw [hx] at h; cases h
  | ok p => rw [hx] at h; exact ⟨p.1, p.2, rfl, h⟩

theorem yields_pure {α : Type} {P : α → Prop} {a : α} (h : P a) : (pure a : Reader α).Yields P := by
  intro c b c' hb
  cases hb
  exact h

theorem yields_throw {α : Type} {P : α → Prop} (f : Fault) : (throw f : Reader α).Yields P := by
  intro c b c' hb
  cases hb

theorem yields_bind {α β : Type} {x : Reader α} {f : α → Reader β} {Q : α → Prop} {P : β → Prop}
    (hx : x.Yields Q) (hf : ∀ a, Q a → (f a).Yields P) : (x >>= f).Yields P := by
  intro c b c'' h
  obtain ⟨a, c', ha, hb⟩ := bind_inv h
  exact hf a (hx c a c' ha) c' b c'' hb

theorem yields_trivial {α : Type} (x : Reader α) : x.Yields fun _ => True :=
  fun _ _ _ _ => trivial

/-- Peeking leaves the cursor where it was. -/
theorem peek_inv {c c' : Cursor} {p : Token} (h : peek c = .ok (p, c')) : c' = c ∧ c.peek = .ok p := by
  unfold peek at h
  rw [bind_ok (rfl : (get : Reader Cursor) c = .ok (c, c))] at h
  change (do let a ← c.peek; pure (a, c)) = _ at h
  cases hp : c.peek with
  | error e => rw [hp] at h; cases h
  | ok q => rw [hp] at h; cases h; exact ⟨rfl, rfl⟩

/-- The token read next is the token peeked at. -/
theorem next_inv {c c' : Cursor} {t : Token} (h : next c = .ok (t, c')) : c.peek = .ok t := by
  obtain ⟨tokens, stop⟩ := c
  cases tokens with
  | cons u us => cases h; rfl
  | nil =>
    cases stop with
    | error e => cases h
    | ok u => cases h; rfl

/-! ## What each reading function gives -/

/-- What a statement gives: a tidy tree, or a break leaf when it starts with a line break. -/
def StatementTree (c : Cursor) (n : Node) : Prop :=
  n.Tidy ∨ (n.IsBreak ∧ n.children = [] ∧ ∃ p, c.peek = .ok p ∧ p.symbol = .newline)

theorem StatementTree.tidyOrBreak {c : Cursor} {n : Node} (h : StatementTree c n) : n.TidyOrBreak := by
  rcases h with h | ⟨hb, hleaf, -⟩
  · exact .inl h
  · exact .inr ⟨hb, hleaf⟩

theorem breakFree_nodeOf {t : Token} {cs : List Node} (ht : ¬ (t.symbol = .eof ∨ t.symbol = .newline))
    (hcs : ∀ c ∈ cs, c.BreakFree) : (nodeOf t cs).BreakFree :=
  breakFree_mk (by simpa only [nodeOf, isBreak_mk, isBreak_text] using ht) hcs

theorem breakFree_one (t : Token) : (one t).BreakFree :=
  breakFree_mk (by simp [isBreak_text]) (by simp)

/-- The kind of tree each reading function gives with `fuel` steps. -/
structure ReadsTidy (fuel : Nat) : Prop where
  expression : ∀ rbp, (expression fuel rbp).Yields BreakFree
  continueFrom : ∀ rbp left, left.BreakFree → (continueFrom fuel rbp left).Yields BreakFree
  prefixOf : ∀ t, (prefixOf fuel t).Yields BreakFree
  infixOf : ∀ t left, left.BreakFree → (infixOf fuel t left).Yields BreakFree
  arguments : ∀ acc, (∀ a ∈ acc, a.BreakFree) → (arguments fuel acc).Yields (∀ a ∈ ·, a.BreakFree)
  group : ∀ t acc, (∀ a ∈ acc, a.BreakFree) → (group fuel t acc).Yields BreakFree
  statement : ∀ c n c', statement fuel c = .ok (n, c') → StatementTree c n
  statements : ∀ acc, (∀ a ∈ acc, a.Tidy) → (statements fuel acc).Yields (∀ a ∈ ·, a.Tidy)
  block : (block fuel).Yields Tidy
  blockFrom : ∀ t, t.symbol = .openBrace → (blockFrom fuel t).Yields Tidy
  conditional : ∀ t, t.symbol = .ifWord → (conditional fuel t).Yields Tidy
  afterBreak : ∀ t, (afterBreak fuel t).Yields TidyOrBreak

/-- With no steps nothing is read. -/
theorem readsTidy_zero : ReadsTidy 0 where
  expression _ := by rw [expression]; exact yields_throw _
  continueFrom _ _ _ := by rw [continueFrom]; exact yields_throw _
  prefixOf _ := by rw [prefixOf]; exact yields_throw _
  infixOf _ _ _ := by rw [infixOf]; exact yields_throw _
  arguments _ _ := by rw [arguments]; exact yields_throw _
  group _ _ _ := by rw [group]; exact yields_throw _
  statement c n c' h := by rw [statement] at h; cases h
  statements _ _ := by rw [statements]; exact yields_throw _
  block := by rw [block]; exact yields_throw _
  blockFrom _ _ := by rw [blockFrom]; exact yields_throw _
  conditional _ _ := by rw [conditional]; exact yields_throw _
  afterBreak _ := by rw [afterBreak]; exact yields_throw _

section Step

variable {fuel : Nat} (ih : ReadsTidy fuel)
include ih

theorem ReadsTidy.expression_succ (rbp : Nat) : (Reader.expression (fuel + 1) rbp).Yields BreakFree := by
  rw [Reader.expression]
  exact yields_bind (yields_trivial _) fun t _ =>
    yields_bind (ih.prefixOf t) fun left hl => ih.continueFrom rbp left hl

theorem ReadsTidy.continueFrom_succ (rbp : Nat) (left : Node) (hl : left.BreakFree) :
    (Reader.continueFrom (fuel + 1) rbp left).Yields BreakFree := by
  rw [Reader.continueFrom]
  refine yields_bind (yields_trivial _) fun p _ => ?_
  split
  · exact yields_bind (yields_trivial _) fun t _ =>
      yields_bind (ih.infixOf t left hl) fun left' hl' => ih.continueFrom rbp left' hl'
  · exact yields_pure hl

theorem ReadsTidy.prefixOf_succ (t : Token) : (Reader.prefixOf (fuel + 1) t).Yields BreakFree := by
  rw [Reader.prefixOf]
  cases hs : t.symbol
  case number => exact yields_pure (breakFree_mk (by simp [hs, Symbol.text_inj]) (by simp))
  case dice =>
    exact yields_bind (ih.expression _) fun sides hsides =>
      yields_pure (breakFree_nodeOf (by simp [hs]) (by simp [breakFree_one t, hsides]))
  case minus =>
    exact yields_bind (ih.expression _) fun operand ho =>
      yields_pure (breakFree_nodeOf (by simp [hs]) (by simp [ho]))
  case openParen => exact ih.group t [] (by simp)
  all_goals exact yields_throw _

theorem ReadsTidy.infixOf_succ (t : Token) (left : Node) (hl : left.BreakFree) :
    (Reader.infixOf (fuel + 1) t left).Yields BreakFree := by
  rw [Reader.infixOf]
  cases hs : t.symbol
  case dropHighest | dropLowest =>
    have hdrop : ∀ count, count.BreakFree → (left.push (nodeOf t [count])).BreakFree :=
      fun count hc => hl.push (breakFree_nodeOf (by simp [hs]) (by simp [hc]))
    refine yields_bind (yields_trivial _) fun p _ => ?_
    dsimp only
    split
    · exact yields_bind (ih.expression _) fun count hc => yields_pure (hdrop count hc)
    · exact yields_bind (yields_pure (breakFree_one t)) fun count hc => yields_pure (hdrop count hc)
  case ident => exact yields_pure (hl.push (breakFree_mk (by simp [Symbol.text_inj]) (by simp)))
  case ifWord =>
    exact yields_bind (ih.expression 0) fun condition hc =>
      yields_bind (yields_trivial _) fun _ _ =>
        yields_bind (ih.expression 0) fun otherwise ho =>
          yields_pure (breakFree_nodeOf (by simp [hs]) (by simp [hc, hl, ho]))
  case openParen =>
    have hcall : ∀ args : List Node, (∀ a ∈ args, a.BreakFree) →
        (do let _ ← advance .closeParen; pure (nodeOf t (left :: args)) : Reader Node).Yields
          BreakFree :=
      fun args ha => yields_bind (yields_trivial _) fun _ _ =>
        yields_pure (breakFree_nodeOf (by simp [hs]) (by simpa [hl] using ha))
    refine yields_bind (yields_trivial _) fun p _ => ?_
    dsimp only
    split
    · exact yields_bind (yields_pure (P := (∀ a ∈ ·, a.BreakFree)) (by simp)) hcall
    · exact yields_bind (ih.arguments [] (by simp)) hcall
  case comma | andWord => exact yields_pure hl
  case number | newline | eof | root | elseWord | rollWord | closeParen | openBrace | closeBrace =>
    exact yields_throw _
  -- the operators with two operands
  all_goals exact yields_bind (ih.expression _) fun right hr =>
    yields_pure (breakFree_nodeOf (by simp [hs]) (by simp [hl, hr]))

theorem ReadsTidy.arguments_succ (acc : List Node) (hacc : ∀ a ∈ acc, a.BreakFree) :
    (Reader.arguments (fuel + 1) acc).Yields (∀ a ∈ ·, a.BreakFree) := by
  rw [Reader.arguments]
  have hmore : ∀ arg, arg.BreakFree → ∀ a ∈ acc ++ [arg], a.BreakFree := by
    intro arg harg a ha
    simp only [List.mem_append, List.mem_singleton] at ha
    rcases ha with ha | rfl
    · exact hacc a ha
    · exact harg
  refine yields_bind (ih.expression _) fun arg harg => yields_bind (yields_trivial _) fun p _ => ?_
  split
  · exact yields_bind (yields_trivial _) fun _ _ => ih.arguments _ (hmore arg harg)
  · exact yields_pure (hmore arg harg)

theorem ReadsTidy.group_succ (opening : Token) (acc : List Node) (hacc : ∀ a ∈ acc, a.BreakFree) :
    (Reader.group (fuel + 1) opening acc).Yields BreakFree := by
  rw [Reader.group.eq_def]
  dsimp only
  refine yields_bind (yields_trivial _) fun p _ => ?_
  split
  · refine yields_bind (yields_trivial _) fun _ _ => ?_
    split
    · exact yields_pure (hacc _ (by simp))
    · exact yields_throw _
  · refine yields_bind (ih.expression 0) fun e he => ih.group opening _ ?_
    intro a ha
    simp only [List.mem_append, List.mem_singleton] at ha
    rcases ha with ha | rfl
    · exact hacc a ha
    · exact he

theorem ReadsTidy.statement_succ (c : Cursor) (n : Node) (c' : Cursor)
    (h : Reader.statement (fuel + 1) c = .ok (n, c')) : StatementTree c n := by
  rw [Reader.statement] at h
  obtain ⟨p, c₁, hp, h⟩ := bind_inv h
  obtain ⟨hcur, hpeek⟩ := peek_inv hp
  rw [hcur] at h
  -- the token read after the peek is the one peeked at
  have hnext : ∀ {t c₂}, next c = .ok (t, c₂) → t = p := fun ht => by
    have := next_inv ht
    rw [hpeek] at this
    cases this
    rfl
  cases hs : p.symbol
  case ifWord =>
    rw [hs] at h
    obtain ⟨t, c₂, ht, h⟩ := bind_inv h
    exact .inl (ih.conditional t (by rw [hnext ht, hs]) _ _ _ h)
  case newline =>
    rw [hs] at h
    obtain ⟨t, c₂, ht, h⟩ := bind_inv h
    rcases ih.afterBreak t _ _ _ h with h | ⟨hb, hleaf⟩
    · exact .inl h
    · exact .inr ⟨hb, hleaf, p, hpeek, hs⟩
  case rollWord =>
    rw [hs] at h
    obtain ⟨t, c₂, ht, h⟩ := bind_inv h
    obtain ⟨s, c₃, hs', h⟩ := bind_inv h
    cases h
    have hroll : nodeOf t [s] = Node.mk Symbol.rollWord.text t.value t.line t.col [s] := by
      simp [nodeOf, hnext ht, hs]
    exact .inl (hroll ▸ tidy_roll (ih.statement _ _ _ hs').tidyOrBreak)
  case openBrace =>
    rw [hs] at h
    obtain ⟨t, c₂, ht, h⟩ := bind_inv h
    exact .inl (ih.blockFrom t (by rw [hnext ht, hs]) _ _ _ h)
  -- every other token starts an expression
  all_goals
    rw [hs] at h
    exact .inl (ih.expression 0 _ _ _ h).tidy

theorem ReadsTidy.statements_succ (acc : List Node) (hacc : ∀ a ∈ acc, a.Tidy) :
    (Reader.statements (fuel + 1) acc).Yields (∀ a ∈ ·, a.Tidy) := by
  rw [Reader.statements]
  refine yields_bind (yields_trivial _) fun p _ => ?_
  split
  · exact yields_pure hacc
  · intro c ns c'' h
    obtain ⟨s, c', hs, h⟩ := bind_inv h
    split at h
    · exact ih.statements acc hacc _ _ _ h
    · rename_i hsym
      -- a statement kept in the list is no break, so it is tidy
      have htidy : s.Tidy := by
        rcases ih.statement _ _ _ hs with h | ⟨hb, -⟩
        · exact h
        · exact absurd hb hsym
      refine ih.statements _ ?_ _ _ _ h
      intro a ha
      simp only [List.mem_append, List.mem_singleton] at ha
      rcases ha with ha | rfl
      · exact hacc a ha
      · exact htidy

theorem ReadsTidy.blockFrom_succ (t : Token) (ht : t.symbol = .openBrace) :
    (Reader.blockFrom (fuel + 1) t).Yields Tidy := by
  rw [Reader.blockFrom]
  exact yields_bind (ih.statements [] (by simp)) fun body hbody =>
    yields_bind (yields_trivial _) fun _ _ =>
      yields_pure (tidy_mk (by simp [ht, isBreak_text]) hbody)

theorem ReadsTidy.block_succ : (Reader.block (fuel + 1)).Yields Tidy := by
  rw [Reader.block]
  refine yields_bind (yields_trivial _) fun t _ => ?_
  split
  · exact ih.blockFrom t (by assumption)
  · exact yields_throw _

theorem ReadsTidy.conditional_succ (t : Token) (ht : t.symbol = .ifWord) :
    (Reader.conditional (fuel + 1) t).Yields Tidy := by
  have hsym : ¬ (nodeOf t []).IsBreak := by simp [nodeOf, ht, isBreak_text]
  rw [Reader.conditional]
  refine yields_bind (ih.expression 0) fun condition hc =>
    yields_bind ih.block fun body hbody => yields_bind (yields_trivial _) fun p _ => ?_
  split
  · refine yields_bind (yields_trivial _) fun _ _ => ?_
    intro c n c'' h
    obtain ⟨q, c₁, hq, h⟩ := bind_inv h
    obtain ⟨hcur, hpeek⟩ := peek_inv hq
    rw [hcur] at h
    split at h
    · -- an `else if` statement starts with `if`, so it gives no break leaf
      rename_i hif
      obtain ⟨otherwise, c₂, ho, h⟩ := bind_inv h
      cases h
      have hotherwise : otherwise.Tidy := by
        rcases ih.statement _ _ _ ho with h | ⟨-, -, p', hp', hnl⟩
        · exact h
        · rw [hpeek] at hp'
          cases hp'
          rw [hif] at hnl
          cases hnl
      exact tidy_mk hsym (by simp [hc.tidy, hbody, hotherwise])
    · obtain ⟨otherwise, c₂, ho, h⟩ := bind_inv h
      cases h
      exact tidy_mk hsym (by simp [hc.tidy, hbody, ih.block _ _ _ ho])
  · exact yields_pure (tidy_mk hsym (by simp [hc.tidy, hbody]))

theorem ReadsTidy.afterBreak_succ (t : Token) : (Reader.afterBreak (fuel + 1) t).Yields TidyOrBreak := by
  rw [Reader.afterBreak]
  refine yields_bind (yields_trivial _) fun p _ => ?_
  split
  · exact yields_bind (yields_trivial _) fun _ _ => ih.afterBreak t
  · exact yields_bind (yields_trivial _) fun e _ => yields_pure (tidyOrBreak_leaf _ _ _ _)
  · exact yields_pure (tidyOrBreak_leaf _ _ _ _)
  · exact fun c n c' h => (ih.statement c n c' h).tidyOrBreak

theorem ReadsTidy.succ : ReadsTidy (fuel + 1) where
  expression := ih.expression_succ
  continueFrom := ih.continueFrom_succ
  prefixOf := ih.prefixOf_succ
  infixOf := ih.infixOf_succ
  arguments := ih.arguments_succ
  group := ih.group_succ
  statement := ih.statement_succ
  statements := ih.statements_succ
  block := ih.block_succ
  blockFrom := ih.blockFrom_succ
  conditional := ih.conditional_succ
  afterBreak := ih.afterBreak_succ

end Step

theorem readsTidy : ∀ fuel, ReadsTidy fuel
  | 0 => readsTidy_zero
  | fuel + 1 => (readsTidy fuel).succ

end Reader

namespace Node

/-- A tree read from a command holds a break node (`(EOF)` or `(NEWLINE)`) only
as a leaf that is the only child of a `roll` node. -/
theorem parse_breaks_under_roll [Token.Numerals] {source : String} {root : Node} (h : Node.parse source = .ok root) :
    ∀ m ∈ root.subtrees, m.IsBreak →
      m.children = [] ∧ ∃ p ∈ root.subtrees, p.sym = Symbol.rollWord.text ∧ p.children = [m] := by
  unfold Node.parse at h
  split at h
  · cases h
  · dsimp only at h
    split at h
    · cases h
    · rename_i stmts rest hread
      split at h
      · cases h
      · split at h
        · cases h
          have hstmts := (Reader.readsTidy _).statements [] (by simp) _ _ _ hread
          exact (tidy_mk (by simp [isBreak_text]) hstmts).2
        · cases h

/-- `roll` followed by a line break and the end of input reads as `roll` over the
node of the end of input, which stands alone under the `roll`; the tree read cannot
be written back, since the end of input is no symbol of a written tree. -/
theorem parse_roll_newline :
    ∃ root, Node.parse "roll\n" = .ok root ∧
      root.subtrees.map Node.sym = [Symbol.root.text, Symbol.rollWord.text, Symbol.eof.text] ∧
      render root = .error (.tree Symbol.eof.text .unknownSymbol) ∧
      ∀ m ∈ root.subtrees, m.IsBreak →
        m.children = [] ∧ ∃ p ∈ root.subtrees, p.sym = Symbol.rollWord.text ∧ p.children = [m] := by
  have hrender : (Node.parse "roll\n" >>= render) = .error (.tree Symbol.eof.text .unknownSymbol) := by
    decide +kernel
  have hsyms : (Node.parse "roll\n").map (·.subtrees.map Node.sym) =
      .ok [Symbol.root.text, Symbol.rollWord.text, Symbol.eof.text] := by
    decide +kernel
  cases h : Node.parse "roll\n" with
  | error f => rw [h] at hsyms; cases hsyms
  | ok root =>
    rw [h] at hsyms hrender
    exact ⟨root, rfl, Except.ok.inj hsyms, hrender, parse_breaks_under_roll h⟩

end Node

end DiceNotation
