import DiceNotation.Proofs.Reader.Breaks
/-!
# How the reader moves along its tokens

Two facts about every reading function, whatever the tokens.

A successful read only moves forward: the cursor it leaves has the same stop
and what is left of the tokens it started with (`Reader.Forward`).  An
expression and a statement that succeed read at least one token, provided the
cursor ends at the end of input (`Reader.expression_consumes`,
`Reader.statement_consumes`): a token read past the end is the end of input
again, and neither starts with it.

More steps never change a read that did not run out of them
(`Reader.Stable`).  The bodies of the reading functions are the same at every
number of steps, so this is one induction on the steps, each function's body
compared with itself one step higher.
-/

namespace DiceNotation

namespace Cursor

/-- `c'` is `c` after some of its tokens are read: the same stop, and a suffix of the tokens. -/
def Follows (c' c : Cursor) : Prop :=
  c'.stop = c.stop ∧ c'.tokens <:+ c.tokens

theorem Follows.refl (c : Cursor) : c.Follows c :=
  ⟨rfl, List.suffix_refl _⟩

theorem Follows.trans {c c' c'' : Cursor} (h₂ : c''.Follows c') (h₁ : c'.Follows c) :
    c''.Follows c :=
  ⟨h₂.1.trans h₁.1, h₂.2.trans h₁.2⟩

theorem Follows.length_le {c c' : Cursor} (h : c'.Follows c) :
    c'.tokens.length ≤ c.tokens.length :=
  h.2.length_le

/-- A cursor whose stop, if it is a token, is the end of input. -/
def Ends (c : Cursor) : Prop :=
  ∀ t, c.stop = .ok t → t.symbol = .eof

theorem Follows.ends {c c' : Cursor} (h : c'.Follows c) (hc : c.Ends) : c'.Ends := by
  intro t ht
  exact hc t (h.1 ▸ ht)

end Cursor

namespace Reader

/-- Reading the next token takes it off the tokens, or, once they are spent,
gives the stop again and leaves the cursor as it is. -/
theorem next_cases {c c' : Cursor} {t : Token} (h : next c = .ok (t, c')) :
    (c.tokens = t :: c'.tokens ∧ c'.stop = c.stop) ∨ (c.tokens = [] ∧ c.stop = .ok t ∧ c' = c) := by
  obtain ⟨tokens, stop⟩ := c
  cases tokens with
  | cons u us =>
    cases h
    exact .inl ⟨rfl, rfl⟩
  | nil =>
    cases stop with
    | error e => cases h
    | ok u =>
      cases h
      exact .inr ⟨rfl, rfl, rfl⟩

/-- A token other than the end of input, read from a cursor that ends at the end
of input, is taken off its tokens. -/
theorem next_consumes {c c' : Cursor} {t : Token} (hc : c.Ends) (h : next c = .ok (t, c'))
    (ht : t.symbol ≠ .eof) : c.tokens = t :: c'.tokens := by
  rcases next_cases h with ⟨htok, -⟩ | ⟨-, hstop, -⟩
  · exact htok
  · exact absurd (hc t hstop) ht

/-- Reading a token that was peeked at, and is not the end of input, takes it off the tokens. -/
theorem next_peeked {c c' : Cursor} {p t : Token} (hc : c.Ends) (hpeek : c.peek = .ok p)
    (hp : p.symbol ≠ .eof) (h : next c = .ok (t, c')) : c.tokens = p :: c'.tokens := by
  have htp : c.peek = .ok t := next_inv h
  rw [hpeek] at htp
  cases htp
  exact next_consumes hc h hp

/-! ## Reads move forward -/

/-- Every successful read of `x` leaves a cursor that follows the one it started from. -/
def Moves {α : Type} (x : Reader α) : Prop :=
  ∀ c a c', x c = .ok (a, c') → c'.Follows c

section Moves

variable {α β : Type}

theorem moves_pure (a : α) : (pure a : Reader α).Moves := by
  intro c b c' h
  cases h
  exact .refl _

theorem moves_throw (f : Fault) : (throw f : Reader α).Moves := by
  intro c b c' h
  cases h

theorem moves_bind {x : Reader α} {f : α → Reader β} (hx : x.Moves) (hf : ∀ a, (f a).Moves) :
    (x >>= f).Moves := by
  intro c b c'' h
  obtain ⟨a, c', ha, hb⟩ := bind_inv h
  exact (hf a c' b c'' hb).trans (hx c a c' ha)

theorem moves_peek : peek.Moves := by
  intro c p c' h
  rw [(peek_inv h).1]
  exact .refl c

theorem moves_next : next.Moves := by
  intro c t c' h
  rcases next_cases h with ⟨htok, hstop⟩ | ⟨-, -, rfl⟩
  · exact ⟨hstop, htok ▸ List.suffix_cons t c'.tokens⟩
  · exact .refl _

theorem moves_advance (sym : Symbol) : (advance sym).Moves := by
  unfold advance
  refine moves_bind moves_next fun t => ?_
  split
  · exact moves_pure t
  · exact moves_throw _

end Moves

/-- Each reading function with `fuel` steps moves forward. -/
structure Forward (fuel : Nat) : Prop where
  expression : ∀ rbp, (expression fuel rbp).Moves
  continueFrom : ∀ rbp left, (continueFrom fuel rbp left).Moves
  prefixOf : ∀ t, (prefixOf fuel t).Moves
  infixOf : ∀ t left, (infixOf fuel t left).Moves
  arguments : ∀ acc, (arguments fuel acc).Moves
  group : ∀ t acc, (group fuel t acc).Moves
  statement : (statement fuel).Moves
  statements : ∀ acc, (statements fuel acc).Moves
  block : (block fuel).Moves
  blockFrom : ∀ t, (blockFrom fuel t).Moves
  conditional : ∀ t, (conditional fuel t).Moves
  afterBreak : ∀ t, (afterBreak fuel t).Moves

theorem forward_zero : Forward 0 where
  expression _ := by rw [expression]; exact moves_throw _
  continueFrom _ _ := by rw [continueFrom]; exact moves_throw _
  prefixOf _ := by rw [prefixOf]; exact moves_throw _
  infixOf _ _ := by rw [infixOf]; exact moves_throw _
  arguments _ := by rw [arguments]; exact moves_throw _
  group _ _ := by rw [group]; exact moves_throw _
  statement := by rw [statement]; exact moves_throw _
  statements _ := by rw [statements]; exact moves_throw _
  block := by rw [block]; exact moves_throw _
  blockFrom _ := by rw [blockFrom]; exact moves_throw _
  conditional _ := by rw [conditional]; exact moves_throw _
  afterBreak _ := by rw [afterBreak]; exact moves_throw _

section ForwardStep

variable {fuel : Nat} (ih : Forward fuel)
include ih

theorem Forward.prefixOf_succ (t : Token) : (Reader.prefixOf (fuel + 1) t).Moves := by
  rw [Reader.prefixOf]
  cases t.symbol
  case number => exact moves_pure _
  case dice | minus => exact moves_bind (ih.expression _) fun _ => moves_pure _
  case openParen => exact ih.group t []
  all_goals exact moves_throw _

theorem Forward.infixOf_succ (t : Token) (left : Node) : (Reader.infixOf (fuel + 1) t left).Moves := by
  rw [Reader.infixOf]
  cases t.symbol
  case dropHighest | dropLowest =>
    refine moves_bind moves_peek fun p => ?_
    dsimp only
    split
    · exact moves_bind (ih.expression _) fun _ => moves_pure _
    · exact moves_bind (moves_pure _) fun _ => moves_pure _
  case ident | comma | andWord => exact moves_pure _
  case ifWord =>
    exact moves_bind (ih.expression 0) fun _ => moves_bind (moves_advance _) fun _ =>
      moves_bind (ih.expression 0) fun _ => moves_pure _
  case openParen =>
    have hcall : ∀ args : Reader (List Node), args.Moves →
        (do let args ← args; let _ ← advance .closeParen; pure (nodeOf t (left :: args))).Moves :=
      fun args h => moves_bind h fun _ => moves_bind (moves_advance _) fun _ => moves_pure _
    refine moves_bind moves_peek fun p => ?_
    dsimp only
    split
    · exact hcall _ (moves_pure _)
    · exact hcall _ (ih.arguments [])
  case number | newline | eof | root | elseWord | rollWord | closeParen | openBrace | closeBrace =>
    exact moves_throw _
  -- the operators with two operands
  all_goals exact moves_bind (ih.expression _) fun _ => moves_pure _

theorem Forward.succ : Forward (fuel + 1) where
  expression rbp := by
    rw [Reader.expression]
    exact moves_bind moves_next fun t => moves_bind (ih.prefixOf t) fun left =>
      ih.continueFrom rbp left
  continueFrom rbp left := by
    rw [Reader.continueFrom]
    refine moves_bind moves_peek fun p => ?_
    split
    · exact moves_bind moves_next fun t => moves_bind (ih.infixOf t left) fun left' =>
        ih.continueFrom rbp left'
    · exact moves_pure _
  prefixOf := ih.prefixOf_succ
  infixOf := ih.infixOf_succ
  arguments acc := by
    rw [Reader.arguments]
    refine moves_bind (ih.expression _) fun arg => moves_bind moves_peek fun p => ?_
    split
    · exact moves_bind (moves_advance _) fun _ => ih.arguments _
    · exact moves_pure _
  group t acc := by
    rw [Reader.group.eq_def]
    dsimp only
    refine moves_bind moves_peek fun p => ?_
    split
    · refine moves_bind (moves_advance _) fun _ => ?_
      split
      · exact moves_pure _
      · exact moves_throw _
    · exact moves_bind (ih.expression 0) fun e => ih.group t _
  statement := by
    rw [Reader.statement]
    refine moves_bind moves_peek fun p => ?_
    cases p.symbol
    case ifWord => exact moves_bind moves_next fun t => ih.conditional t
    case newline => exact moves_bind moves_next fun t => ih.afterBreak t
    case rollWord =>
      exact moves_bind moves_next fun _ => moves_bind ih.statement fun _ => moves_pure _
    case openBrace => exact moves_bind moves_next fun t => ih.blockFrom t
    all_goals exact ih.expression 0
  statements acc := by
    rw [Reader.statements]
    refine moves_bind moves_peek fun p => ?_
    split
    · exact moves_pure _
    · refine moves_bind ih.statement fun s => ?_
      split
      · exact ih.statements _
      · exact ih.statements _
  block := by
    rw [Reader.block]
    refine moves_bind moves_next fun t => ?_
    split
    · exact ih.blockFrom t
    · exact moves_throw _
  blockFrom t := by
    rw [Reader.blockFrom]
    exact moves_bind (ih.statements []) fun _ => moves_bind (moves_advance _) fun _ => moves_pure _
  conditional t := by
    rw [Reader.conditional]
    refine moves_bind (ih.expression 0) fun _ => moves_bind ih.block fun _ =>
      moves_bind moves_peek fun p => ?_
    split
    · refine moves_bind moves_next fun _ => moves_bind moves_peek fun q => ?_
      dsimp only
      split
      · exact moves_bind ih.statement fun _ => moves_pure _
      · exact moves_bind ih.block fun _ => moves_pure _
    · exact moves_pure _
  afterBreak t := by
    rw [Reader.afterBreak]
    refine moves_bind moves_peek fun p => ?_
    split
    · exact moves_bind moves_next fun _ => ih.afterBreak t
    · exact moves_bind (moves_advance _) fun _ => moves_pure _
    · exact moves_pure _
    · exact ih.statement

end ForwardStep

theorem forward : ∀ fuel, Forward fuel
  | 0 => forward_zero
  | fuel + 1 => (forward fuel).succ

/-! ## Expressions and statements read a token -/

/-- The end of input starts no expression. -/
theorem prefixOf_eof {fuel : Nat} {t : Token} (ht : t.symbol = .eof) (c : Cursor) (e : Node)
    (c' : Cursor) : prefixOf fuel t c ≠ .ok (e, c') := by
  intro h
  cases fuel with
  | zero => rw [prefixOf] at h; cases h
  | succ fuel =>
    rw [prefixOf] at h
    simp only [ht] at h
    cases h

/-- An expression that is read takes at least its first token off the tokens. -/
theorem expression_consumes {fuel rbp : Nat} {c c' : Cursor} {e : Node} (hc : c.Ends)
    (h : expression fuel rbp c = .ok (e, c')) : c'.tokens.length < c.tokens.length := by
  cases fuel with
  | zero => rw [expression] at h; cases h
  | succ fuel =>
    rw [expression] at h
    obtain ⟨t, c₁, ht, h⟩ := bind_inv h
    obtain ⟨left, c₂, hl, h⟩ := bind_inv h
    have htok := next_consumes hc ht fun heof => prefixOf_eof heof c₁ left c₂ hl
    have h₂ := ((forward fuel).prefixOf t c₁ left c₂ hl).length_le
    have h₃ := ((forward fuel).continueFrom rbp left c₂ e c' h).length_le
    rw [htok, List.length_cons]
    omega

/-- A statement that is read takes at least its first token off the tokens. -/
theorem statement_consumes {fuel : Nat} {c c' : Cursor} {s : Node} (hc : c.Ends)
    (h : statement fuel c = .ok (s, c')) : c'.tokens.length < c.tokens.length := by
  cases fuel with
  | zero => rw [statement] at h; cases h
  | succ fuel =>
    rw [statement] at h
    obtain ⟨p, c₁, hp, h⟩ := bind_inv h
    obtain ⟨hcur, hpeek⟩ := peek_inv hp
    rw [hcur] at h
    -- a statement that starts with a keyword, a break or a brace reads it first
    have hfirst : ∀ {α : Type} {x : Token → Reader α} {a : α} {c' : Cursor}, p.symbol ≠ .eof →
        (∀ t, (x t).Moves) → (next >>= x) c = .ok (a, c') →
          c'.tokens.length < c.tokens.length := by
      intro α x a c' hsym hx h
      obtain ⟨t, c₂, ht, h⟩ := bind_inv h
      have htok := next_peeked hc hpeek hsym ht
      have := (hx t c₂ a c' h).length_le
      rw [htok, List.length_cons]
      omega
    have forward := forward fuel
    cases hs : p.symbol
    case ifWord =>
      rw [hs] at h
      exact hfirst (by simp [hs]) forward.conditional h
    case newline =>
      rw [hs] at h
      exact hfirst (by simp [hs]) forward.afterBreak h
    case rollWord =>
      rw [hs] at h
      exact hfirst (by simp [hs]) (fun _ => moves_bind forward.statement fun _ => moves_pure _) h
    case openBrace =>
      rw [hs] at h
      exact hfirst (by simp [hs]) forward.blockFrom h
    -- every other token starts an expression
    all_goals
      rw [hs] at h
      exact expression_consumes hc h

/-! ## More steps change nothing -/

theorem bind_error {α β : Type} {x : Reader α} {f : α → Reader β} {c : Cursor} {e : Fault}
    (h : x c = .error e) : (x >>= f) c = .error e := by
  show (do let (a, s) ← x c; f a s) = _
  rw [h]
  rfl

/-- `x'` reads like `x` wherever `x` does not run out of steps. -/
def Grows {α : Type} (x x' : Reader α) : Prop :=
  ∀ c, x c ≠ .error exhausted → x' c = x c

section Grows

variable {α β : Type}

theorem grows_refl (x : Reader α) : Grows x x :=
  fun _ _ => rfl

theorem Grows.trans {x y z : Reader α} (h₁ : Grows x y) (h₂ : Grows y z) : Grows x z := by
  intro c h
  rw [h₂ c (by rw [h₁ c h]; exact h), h₁ c h]

theorem grows_exhausted (x' : Reader α) : Grows (throw exhausted) x' :=
  fun _ h => absurd rfl h

theorem grows_bind {x x' : Reader α} {f f' : α → Reader β} (hx : Grows x x')
    (hf : ∀ a, Grows (f a) (f' a)) : Grows (x >>= f) (x' >>= f') := by
  intro c h
  cases hxc : x c with
  | error e =>
    rw [bind_error hxc] at h ⊢
    have hx' : x c ≠ .error exhausted := by
      rw [hxc]
      intro he
      exact h (by rw [Except.error.inj he])
    rw [bind_error ((hx c hx').trans hxc)]
  | ok r =>
    obtain ⟨a, c₁⟩ := r
    rw [bind_ok hxc] at h ⊢
    rw [bind_ok ((hx c (by rw [hxc]; nofun)).trans hxc)]
    exact hf a c₁ h

theorem grows_ite {p : Prop} [Decidable p] {a a' b b' : Reader α} (ha : Grows a a')
    (hb : Grows b b') : Grows (if p then a else b) (if p then a' else b') := by
  by_cases hp : p
  · rw [if_pos hp, if_pos hp]
    exact ha
  · rw [if_neg hp, if_neg hp]
    exact hb

end Grows

/-- Each reading function reads with `fuel + 1` steps as with `fuel`, unless it
runs out of them. -/
structure Stable (fuel : Nat) : Prop where
  expression : ∀ rbp, Grows (expression fuel rbp) (expression (fuel + 1) rbp)
  continueFrom : ∀ rbp left, Grows (continueFrom fuel rbp left) (continueFrom (fuel + 1) rbp left)
  prefixOf : ∀ t, Grows (prefixOf fuel t) (prefixOf (fuel + 1) t)
  infixOf : ∀ t left, Grows (infixOf fuel t left) (infixOf (fuel + 1) t left)
  arguments : ∀ acc, Grows (arguments fuel acc) (arguments (fuel + 1) acc)
  group : ∀ t acc, Grows (group fuel t acc) (group (fuel + 1) t acc)
  statement : Grows (statement fuel) (statement (fuel + 1))
  statements : ∀ acc, Grows (statements fuel acc) (statements (fuel + 1) acc)
  block : Grows (block fuel) (block (fuel + 1))
  blockFrom : ∀ t, Grows (blockFrom fuel t) (blockFrom (fuel + 1) t)
  conditional : ∀ t, Grows (conditional fuel t) (conditional (fuel + 1) t)
  afterBreak : ∀ t, Grows (afterBreak fuel t) (afterBreak (fuel + 1) t)

theorem stable_zero : Stable 0 where
  expression _ := by rw [expression.eq_1]; exact grows_exhausted _
  continueFrom _ _ := by rw [continueFrom.eq_1]; exact grows_exhausted _
  prefixOf _ := by rw [prefixOf.eq_1]; exact grows_exhausted _
  infixOf _ _ := by rw [infixOf.eq_1]; exact grows_exhausted _
  arguments _ := by rw [arguments.eq_1]; exact grows_exhausted _
  group _ _ := by rw [group.eq_1]; exact grows_exhausted _
  statement := by rw [statement.eq_1]; exact grows_exhausted _
  statements _ := by rw [statements.eq_1]; exact grows_exhausted _
  block := by rw [block.eq_1]; exact grows_exhausted _
  blockFrom _ := by rw [blockFrom.eq_1]; exact grows_exhausted _
  conditional _ := by rw [conditional.eq_1]; exact grows_exhausted _
  afterBreak _ := by rw [afterBreak.eq_1]; exact grows_exhausted _

section StableStep

variable {fuel : Nat} (ih : Stable fuel)
include ih

theorem Stable.prefixOf_succ (t : Token) :
    Grows (Reader.prefixOf (fuel + 1) t) (Reader.prefixOf (fuel + 2) t) := by
  rw [Reader.prefixOf, Reader.prefixOf]
  cases t.symbol
  case dice | minus => exact grows_bind (ih.expression _) fun _ => grows_refl _
  case openParen => exact ih.group t []
  all_goals exact grows_refl _

theorem Stable.infixOf_succ (t : Token) (left : Node) :
    Grows (Reader.infixOf (fuel + 1) t left) (Reader.infixOf (fuel + 2) t left) := by
  rw [Reader.infixOf, Reader.infixOf]
  cases t.symbol
  case dropHighest | dropLowest =>
    refine grows_bind (grows_refl _) fun p => ?_
    exact grows_ite (grows_bind (ih.expression _) fun _ => grows_refl _) (grows_refl _)
  case ifWord =>
    exact grows_bind (ih.expression 0) fun _ => grows_bind (grows_refl _) fun _ =>
      grows_bind (ih.expression 0) fun _ => grows_refl _
  case openParen =>
    refine grows_bind (grows_refl _) fun p => ?_
    exact grows_ite (grows_refl _) (grows_bind (ih.arguments []) fun _ => grows_refl _)
  case ident | comma | andWord | number | newline | eof | root | elseWord | rollWord | closeParen
    | openBrace | closeBrace => exact grows_refl _
  -- the operators with two operands
  all_goals exact grows_bind (ih.expression _) fun _ => grows_refl _

theorem Stable.succ : Stable (fuel + 1) where
  expression rbp := by
    rw [Reader.expression, Reader.expression]
    exact grows_bind (grows_refl _) fun t => grows_bind (ih.prefixOf t) fun left =>
      ih.continueFrom rbp left
  continueFrom rbp left := by
    rw [Reader.continueFrom, Reader.continueFrom]
    refine grows_bind (grows_refl _) fun p => grows_ite ?_ (grows_refl _)
    exact grows_bind (grows_refl _) fun t => grows_bind (ih.infixOf t left) fun left' =>
      ih.continueFrom rbp left'
  prefixOf := ih.prefixOf_succ
  infixOf := ih.infixOf_succ
  arguments acc := by
    rw [Reader.arguments, Reader.arguments]
    refine grows_bind (ih.expression _) fun arg => grows_bind (grows_refl _) fun p => ?_
    exact grows_ite (grows_bind (grows_refl _) fun _ => ih.arguments _) (grows_refl _)
  group t acc := by
    rw [Reader.group.eq_def, Reader.group.eq_def]
    dsimp only
    refine grows_bind (grows_refl _) fun p => grows_ite (grows_refl _) ?_
    exact grows_bind (ih.expression 0) fun e => ih.group t _
  statement := by
    rw [Reader.statement, Reader.statement]
    refine grows_bind (grows_refl _) fun p => ?_
    cases p.symbol
    case ifWord => exact grows_bind (grows_refl _) fun t => ih.conditional t
    case newline => exact grows_bind (grows_refl _) fun t => ih.afterBreak t
    case rollWord =>
      exact grows_bind (grows_refl _) fun _ => grows_bind ih.statement fun _ => grows_refl _
    case openBrace => exact grows_bind (grows_refl _) fun t => ih.blockFrom t
    all_goals exact ih.expression 0
  statements acc := by
    rw [Reader.statements, Reader.statements]
    refine grows_bind (grows_refl _) fun p => grows_ite (grows_refl _) ?_
    exact grows_bind ih.statement fun s => grows_ite (ih.statements _) (ih.statements _)
  block := by
    rw [Reader.block, Reader.block]
    exact grows_bind (grows_refl _) fun t => grows_ite (ih.blockFrom t) (grows_refl _)
  blockFrom t := by
    rw [Reader.blockFrom, Reader.blockFrom]
    exact grows_bind (ih.statements []) fun _ => grows_refl _
  conditional t := by
    rw [Reader.conditional, Reader.conditional]
    refine grows_bind (ih.expression 0) fun _ => grows_bind ih.block fun _ =>
      grows_bind (grows_refl _) fun p => grows_ite ?_ (grows_refl _)
    refine grows_bind (grows_refl _) fun _ => grows_bind (grows_refl _) fun q => ?_
    exact grows_ite (grows_bind ih.statement fun _ => grows_refl _)
      (grows_bind ih.block fun _ => grows_refl _)
  afterBreak t := by
    rw [Reader.afterBreak, Reader.afterBreak]
    refine grows_bind (grows_refl _) fun p => ?_
    cases p.symbol
    case newline => exact grows_bind (grows_refl _) fun _ => ih.afterBreak t
    case eof | closeBrace => exact grows_refl _
    all_goals exact ih.statement

end StableStep

theorem stable : ∀ fuel, Stable fuel
  | 0 => stable_zero
  | fuel + 1 => (stable fuel).succ

/-- A list of statements read without running out of steps is read alike with
any more steps. -/
theorem statements_grows {fuel fuel' : Nat} (h : fuel ≤ fuel') (acc : List Node) :
    Grows (statements fuel acc) (statements fuel' acc) := by
  induction h with
  | refl => exact grows_refl _
  | step _ ih => exact ih.trans ((stable _).statements acc)

end Reader

end DiceNotation
