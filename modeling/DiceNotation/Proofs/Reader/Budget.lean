import DiceNotation.Proofs.Reader.Progress
import DiceNotation.Proofs.Token.Lines
/-!
# The reader never runs out of steps

`Node.parse` reads the tokens of a command with `Reader.budget` steps: eight a
token and sixteen more.  That is always enough.  The read never reports running
out of steps, and any number of steps beyond the budget gives the same result
(`Node.parse_within_budget`).  So reading ends after a number of steps linear in
the number of tokens, although the end of input can be read again and again.

Each reading function needs eight steps for each token left and a few more
(`Reader.Suffices`).  A function that calls another on the same tokens needs a
step more than its callee; one that reads a token first needs up to seven
fewer.  The loops that could go on at the end of input leave before reading it
or read a token each time round: an expression and a statement read at least
one token (`Reader.expression_consumes`, `Reader.statement_consumes`).  That
every other fault differs from running out of steps rests on the scanner:
its tokens stand on lines from 1, and it stops only at the end of input or at
a fault of its own.
-/

namespace DiceNotation

namespace Cursor

/-- A cursor whose own faults are never the one for running out of steps: its
tokens stand on lines from 1, and it ends at the end of input, on a line from
1, or at another fault. -/
structure Sound (c : Cursor) : Prop where
  lines : ∀ t ∈ c.tokens, t.line ≠ 0
  eof : ∀ t, c.stop = .ok t → t.symbol = .eof ∧ t.line ≠ 0
  fault : c.stop ≠ .error Reader.exhausted

theorem Sound.ends {c : Cursor} (h : c.Sound) : c.Ends :=
  fun t ht => (h.eof t ht).1

theorem Sound.follow {c c' : Cursor} (hc : c.Sound) (h : c'.Follows c) : c'.Sound where
  lines t ht := hc.lines t (h.2.subset ht)
  eof t ht := hc.eof t (h.1 ▸ ht)
  fault := h.1 ▸ hc.fault

/-- The token read from a sound cursor stands on a line from 1. -/
theorem Sound.next_line {c c' : Cursor} {t : Token} (hc : c.Sound)
    (h : Reader.next c = .ok (t, c')) : t.line ≠ 0 := by
  rcases Reader.next_cases h with ⟨htok, -⟩ | ⟨-, hstop, -⟩
  · exact hc.lines t (by rw [htok]; exact List.mem_cons_self)
  · exact (hc.eof t hstop).2

end Cursor

namespace Reader

open Cursor

section Finishes

variable {α β : Type}

/-- A read that moves forward from a sound cursor leaves a sound cursor with no more tokens. -/
theorem sound_after {x : Reader α} {c c' : Cursor} {a : α} (hx : x.Moves) (hc : c.Sound)
    (h : x c = .ok (a, c')) : c'.Sound ∧ c'.tokens.length ≤ c.tokens.length :=
  ⟨hc.follow (hx c a c' h), (hx c a c' h).length_le⟩

/-- Reading a required token other than the end of input takes it off the tokens. -/
theorem advance_consumes {c c' : Cursor} {sym : Symbol} {t : Token} (hc : c.Ends)
    (hsym : sym ≠ .eof) (h : advance sym c = .ok (t, c')) : c.tokens = t :: c'.tokens := by
  unfold advance at h
  obtain ⟨u, c₁, hu, h⟩ := bind_inv h
  split at h
  · rename_i hs
    cases h
    exact next_consumes hc hu (by rw [hs]; exact hsym)
  · cases h

/-- The read of `x` from `c` does not run out of steps. -/
def Finishes (x : Reader α) (c : Cursor) : Prop :=
  x c ≠ .error exhausted

theorem finishes_pure (a : α) (c : Cursor) : Finishes (pure a) c := by
  intro h
  cases h

/-- A fault of the reader at a token's line is not running out of steps. -/
theorem finishes_parse {cause : ParseFault} {l k : Nat} (hl : l ≠ 0) (c : Cursor) :
    Finishes (throw (.parse cause l k) : Reader α) c := by
  intro h
  cases h
  exact hl rfl

theorem finishes_bind {x : Reader α} {f : α → Reader β} {c : Cursor} (hx : Finishes x c)
    (hf : ∀ a c', x c = .ok (a, c') → Finishes (f a) c') : Finishes (x >>= f) c := by
  cases hxc : x c with
  | error e =>
    rw [Finishes, bind_error hxc]
    rw [Finishes, hxc] at hx
    intro he
    exact hx (by rw [Except.error.inj he])
  | ok r =>
    obtain ⟨a, c'⟩ := r
    rw [Finishes, bind_ok hxc]
    exact hf a c' hxc

/-- Peeking at or reading a token fails only with the fault the cursor stops at. -/
theorem stop_of_read_error {c : Cursor} {f : Fault}
    (h : peek c = .error f ∨ next c = .error f) : c.stop = .error f := by
  obtain ⟨tokens, stop⟩ := c
  cases tokens with
  | cons t ts => rcases h with h | h <;> cases h
  | nil =>
    cases stop with
    | ok t => rcases h with h | h <;> cases h
    | error e => rcases h with h | h <;> cases h <;> rfl

theorem finishes_peek {c : Cursor} (hc : c.Sound) : Finishes peek c :=
  fun h => hc.fault (stop_of_read_error (.inl h))

theorem finishes_next {c : Cursor} (hc : c.Sound) : Finishes next c :=
  fun h => hc.fault (stop_of_read_error (.inr h))

theorem finishes_advance (sym : Symbol) {c : Cursor} (hc : c.Sound) : Finishes (advance sym) c := by
  unfold advance
  refine finishes_bind (finishes_next hc) fun t c' ht => ?_
  split
  · exact finishes_pure t c'
  · exact finishes_parse (hc.next_line ht) c'

end Finishes

/-! ## Steps enough for the tokens left -/

/-- With enough steps for the tokens left, no reading function runs out of them:
eight steps a token, and a few more set by what each function reads before it
calls on another. -/
structure Suffices (fuel : Nat) : Prop where
  expression : ∀ rbp c, c.Sound → 8 * c.tokens.length + 2 ≤ fuel →
    Finishes (expression fuel rbp) c
  continueFrom : ∀ rbp left c, c.Sound → 8 * c.tokens.length + 1 ≤ fuel →
    Finishes (continueFrom fuel rbp left) c
  prefixOf : ∀ t c, t.line ≠ 0 → c.Sound → 8 * c.tokens.length + 4 ≤ fuel →
    Finishes (prefixOf fuel t) c
  infixOf : ∀ t left c, t.line ≠ 0 → c.Sound → 8 * c.tokens.length + 4 ≤ fuel →
    Finishes (infixOf fuel t left) c
  arguments : ∀ acc c, c.Sound → 8 * c.tokens.length + 3 ≤ fuel →
    Finishes (arguments fuel acc) c
  group : ∀ t acc c, t.line ≠ 0 → c.Sound → 8 * c.tokens.length + 3 ≤ fuel →
    Finishes (group fuel t acc) c
  statement : ∀ c, c.Sound → 8 * c.tokens.length + 3 ≤ fuel → Finishes (statement fuel) c
  statements : ∀ acc c, c.Sound → 8 * c.tokens.length + 4 ≤ fuel →
    Finishes (statements fuel acc) c
  block : ∀ c, c.Sound → 8 * c.tokens.length + 1 ≤ fuel → Finishes (block fuel) c
  blockFrom : ∀ t c, c.Sound → 8 * c.tokens.length + 5 ≤ fuel → Finishes (blockFrom fuel t) c
  conditional : ∀ t c, c.Sound → 8 * c.tokens.length + 3 ≤ fuel →
    Finishes (conditional fuel t) c
  afterBreak : ∀ t c, c.Sound → 8 * c.tokens.length + 4 ≤ fuel → Finishes (afterBreak fuel t) c

/-- With no steps there is nothing to show: every function needs at least one. -/
theorem suffices_zero : Suffices 0 where
  expression _ _ _ h := absurd h (by omega)
  continueFrom _ _ _ _ h := absurd h (by omega)
  prefixOf _ _ _ _ h := absurd h (by omega)
  infixOf _ _ _ _ _ h := absurd h (by omega)
  arguments _ _ _ h := absurd h (by omega)
  group _ _ _ _ _ h := absurd h (by omega)
  statement _ _ h := absurd h (by omega)
  statements _ _ _ h := absurd h (by omega)
  block _ _ h := absurd h (by omega)
  blockFrom _ _ _ h := absurd h (by omega)
  conditional _ _ _ h := absurd h (by omega)
  afterBreak _ _ _ h := absurd h (by omega)

section Step

variable {fuel : Nat} (ih : Suffices fuel)
include ih

theorem Suffices.expression_succ (rbp : Nat) (c : Cursor) (hc : c.Sound)
    (hfuel : 8 * c.tokens.length + 2 ≤ fuel + 1) :
    Finishes (Reader.expression (fuel + 1) rbp) c := by
  rw [Reader.expression]
  refine finishes_bind (finishes_next hc) fun t c₁ ht => ?_
  have hline := hc.next_line ht
  have hc₁ := (sound_after moves_next hc ht).1
  rcases next_cases ht with ⟨htok, -⟩ | ⟨hnil, hstop, -⟩
  · -- a token of the list: what follows it has eight steps fewer to pay for
    have hlen : c.tokens.length = c₁.tokens.length + 1 := by rw [htok, List.length_cons]
    refine finishes_bind (ih.prefixOf t c₁ hline hc₁ (by omega)) fun left c₂ hl => ?_
    obtain ⟨hc₂, hlen₂⟩ := sound_after ((forward fuel).prefixOf t) hc₁ hl
    exact ih.continueFrom rbp left c₂ hc₂ (by omega)
  · -- past the end of input: the end of input starts no expression
    have heof := (hc.eof t hstop).1
    have hlen : c.tokens.length = 0 := by rw [hnil]; rfl
    obtain ⟨fuel', rfl⟩ : ∃ fuel', fuel = fuel' + 1 := ⟨fuel - 1, by omega⟩
    refine finishes_bind ?_ fun left c₂ hl => absurd hl (prefixOf_eof heof _ _ _)
    rw [Reader.prefixOf]
    simp only [heof]
    exact finishes_parse hline _

theorem Suffices.continueFrom_succ (rbp : Nat) (left : Node) (c : Cursor) (hc : c.Sound)
    (hfuel : 8 * c.tokens.length + 1 ≤ fuel + 1) :
    Finishes (Reader.continueFrom (fuel + 1) rbp left) c := by
  rw [Reader.continueFrom]
  refine finishes_bind (finishes_peek hc) fun p c₁ hp => ?_
  obtain ⟨hcur, hpeek⟩ := peek_inv hp
  rw [hcur]
  split
  · -- a token that binds is not the end of input, so it is read off the tokens
    rename_i hbind
    have hp : p.symbol ≠ .eof := by
      intro heof
      simp [heof, Symbol.bindingPower] at hbind
    refine finishes_bind (finishes_next hc) fun t c₂ ht => ?_
    have htok := next_peeked hc.ends hpeek hp ht
    have hlen : c.tokens.length = c₂.tokens.length + 1 := by rw [htok, List.length_cons]
    have hc₂ := (sound_after moves_next hc ht).1
    refine finishes_bind (ih.infixOf t left c₂ (hc.next_line ht) hc₂ (by omega))
      fun left' c₃ hl => ?_
    obtain ⟨hc₃, hlen₃⟩ := sound_after ((forward fuel).infixOf t left) hc₂ hl
    exact ih.continueFrom rbp left' c₃ hc₃ (by omega)
  · exact finishes_pure left _

theorem Suffices.prefixOf_succ (t : Token) (c : Cursor) (ht : t.line ≠ 0) (hc : c.Sound)
    (hfuel : 8 * c.tokens.length + 4 ≤ fuel + 1) : Finishes (Reader.prefixOf (fuel + 1) t) c := by
  rw [Reader.prefixOf]
  cases t.symbol
  case number => exact finishes_pure _ _
  case dice | minus =>
    exact finishes_bind (ih.expression _ c hc (by omega)) fun _ _ _ => finishes_pure _ _
  case openParen => exact ih.group t [] c ht hc (by omega)
  all_goals exact finishes_parse ht _

theorem Suffices.infixOf_succ (t : Token) (left : Node) (c : Cursor) (ht : t.line ≠ 0)
    (hc : c.Sound) (hfuel : 8 * c.tokens.length + 4 ≤ fuel + 1) :
    Finishes (Reader.infixOf (fuel + 1) t left) c := by
  rw [Reader.infixOf]
  cases t.symbol
  case dropHighest | dropLowest =>
    refine finishes_bind (finishes_peek hc) fun p c₁ hp => ?_
    rw [(peek_inv hp).1]
    dsimp only
    split
    · exact finishes_bind (ih.expression _ c hc (by omega)) fun _ _ _ => finishes_pure _ _
    · exact finishes_bind (finishes_pure _ _) fun _ _ _ => finishes_pure _ _
  case ident | comma | andWord => exact finishes_pure _ _
  case ifWord =>
    refine finishes_bind (ih.expression 0 c hc (by omega)) fun _ c₁ h₁ => ?_
    obtain ⟨hc₁, hlen₁⟩ := sound_after ((forward fuel).expression 0) hc h₁
    refine finishes_bind (finishes_advance _ hc₁) fun _ c₂ h₂ => ?_
    obtain ⟨hc₂, hlen₂⟩ := sound_after (moves_advance _) hc₁ h₂
    exact finishes_bind (ih.expression 0 c₂ hc₂ (by omega)) fun _ _ _ => finishes_pure _ _
  case openParen =>
    have hcall : ∀ args : Reader (List Node), args.Moves → Finishes args c →
        Finishes (do let args ← args; let _ ← advance .closeParen; pure (nodeOf t (left :: args))) c :=
      fun args hm hf => finishes_bind hf fun _ c₂ h₂ =>
        finishes_bind (finishes_advance _ (sound_after hm hc h₂).1) fun _ _ _ => finishes_pure _ _
    refine finishes_bind (finishes_peek hc) fun p c₁ hp => ?_
    rw [(peek_inv hp).1]
    dsimp only
    split
    · exact hcall _ (moves_pure _) (finishes_pure _ _)
    · exact hcall _ ((forward fuel).arguments []) (ih.arguments [] c hc (by omega))
  case number | newline | eof | root | elseWord | rollWord | closeParen | openBrace | closeBrace =>
    exact finishes_parse ht _
  -- the operators with two operands
  all_goals exact finishes_bind (ih.expression _ c hc (by omega)) fun _ _ _ => finishes_pure _ _

theorem Suffices.arguments_succ (acc : List Node) (c : Cursor) (hc : c.Sound)
    (hfuel : 8 * c.tokens.length + 3 ≤ fuel + 1) : Finishes (Reader.arguments (fuel + 1) acc) c := by
  rw [Reader.arguments]
  refine finishes_bind (ih.expression _ c hc (by omega)) fun arg c₁ h₁ => ?_
  obtain ⟨hc₁, hlen₁⟩ := sound_after ((forward fuel).expression _) hc h₁
  refine finishes_bind (finishes_peek hc₁) fun p c₂ hp => ?_
  rw [(peek_inv hp).1]
  split
  · -- the comma is read off the tokens before the next argument
    refine finishes_bind (finishes_advance _ hc₁) fun _ c₃ h₃ => ?_
    have htok := advance_consumes hc₁.ends (by decide) h₃
    have hlen₃ : c₁.tokens.length = c₃.tokens.length + 1 := by rw [htok, List.length_cons]
    exact ih.arguments _ c₃ (sound_after (moves_advance _) hc₁ h₃).1 (by omega)
  · exact finishes_pure _ _

theorem Suffices.group_succ (t : Token) (acc : List Node) (c : Cursor) (ht : t.line ≠ 0)
    (hc : c.Sound) (hfuel : 8 * c.tokens.length + 3 ≤ fuel + 1) :
    Finishes (Reader.group (fuel + 1) t acc) c := by
  rw [Reader.group.eq_def]
  dsimp only
  refine finishes_bind (finishes_peek hc) fun p c₁ hp => ?_
  rw [(peek_inv hp).1]
  split
  · refine finishes_bind (finishes_advance _ hc) fun _ _ _ => ?_
    split
    · exact finishes_pure _ _
    · exact finishes_parse ht _
  · -- each expression of the group takes a token
    refine finishes_bind (ih.expression 0 c hc (by omega)) fun e c₂ h₂ => ?_
    have hlt := expression_consumes hc.ends h₂
    exact ih.group t _ c₂ ht (sound_after ((forward fuel).expression 0) hc h₂).1 (by omega)

theorem Suffices.statement_succ (c : Cursor) (hc : c.Sound)
    (hfuel : 8 * c.tokens.length + 3 ≤ fuel + 1) : Finishes (Reader.statement (fuel + 1)) c := by
  rw [Reader.statement]
  refine finishes_bind (finishes_peek hc) fun p c₁ hp => ?_
  obtain ⟨hcur, hpeek⟩ := peek_inv hp
  rw [hcur]
  -- a keyword, a break or a brace is read off the tokens first
  have hfirst : ∀ {α : Type} {x : Token → Reader α}, p.symbol ≠ .eof →
      (∀ t c', c'.Sound → c'.tokens.length + 1 = c.tokens.length → Finishes (x t) c') →
        Finishes (next >>= x) c := by
    intro α x hp hx
    refine finishes_bind (finishes_next hc) fun t c₂ ht => ?_
    have htok := next_peeked hc.ends hpeek hp ht
    exact hx t c₂ (sound_after moves_next hc ht).1 (by rw [htok, List.length_cons])
  cases hs : p.symbol
  case ifWord =>
    exact hfirst (by simp [hs]) fun t c' hc' hlen => ih.conditional t c' hc' (by omega)
  case newline =>
    exact hfirst (by simp [hs]) fun t c' hc' hlen => ih.afterBreak t c' hc' (by omega)
  case rollWord =>
    exact hfirst (by simp [hs]) fun _ c' hc' hlen =>
      finishes_bind (ih.statement c' hc' (by omega)) fun _ _ _ => finishes_pure _ _
  case openBrace =>
    exact hfirst (by simp [hs]) fun t c' hc' hlen => ih.blockFrom t c' hc' (by omega)
  -- every other token starts an expression
  all_goals exact ih.expression 0 c hc (by omega)

theorem Suffices.statements_succ (acc : List Node) (c : Cursor) (hc : c.Sound)
    (hfuel : 8 * c.tokens.length + 4 ≤ fuel + 1) :
    Finishes (Reader.statements (fuel + 1) acc) c := by
  rw [Reader.statements]
  refine finishes_bind (finishes_peek hc) fun p c₁ hp => ?_
  rw [(peek_inv hp).1]
  split
  · exact finishes_pure _ _
  · -- each statement takes a token
    refine finishes_bind (ih.statement c hc (by omega)) fun s c₂ h₂ => ?_
    have hlt := statement_consumes hc.ends h₂
    have hc₂ := (sound_after (forward fuel).statement hc h₂).1
    split
    · exact ih.statements _ c₂ hc₂ (by omega)
    · exact ih.statements _ c₂ hc₂ (by omega)

theorem Suffices.block_succ (c : Cursor) (hc : c.Sound)
    (hfuel : 8 * c.tokens.length + 1 ≤ fuel + 1) : Finishes (Reader.block (fuel + 1)) c := by
  rw [Reader.block]
  refine finishes_bind (finishes_next hc) fun t c₁ ht => ?_
  split
  · rename_i hbrace
    have htok := next_consumes hc.ends ht (by rw [hbrace]; decide)
    have hlen : c.tokens.length = c₁.tokens.length + 1 := by rw [htok, List.length_cons]
    exact ih.blockFrom t c₁ (sound_after moves_next hc ht).1 (by omega)
  · exact finishes_parse (hc.next_line ht) _

theorem Suffices.blockFrom_succ (t : Token) (c : Cursor) (hc : c.Sound)
    (hfuel : 8 * c.tokens.length + 5 ≤ fuel + 1) : Finishes (Reader.blockFrom (fuel + 1) t) c := by
  rw [Reader.blockFrom]
  refine finishes_bind (ih.statements [] c hc (by omega)) fun _ c₁ h₁ => ?_
  have hc₁ := (sound_after ((forward fuel).statements []) hc h₁).1
  exact finishes_bind (finishes_advance _ hc₁) fun _ _ _ => finishes_pure _ _

theorem Suffices.conditional_succ (t : Token) (c : Cursor) (hc : c.Sound)
    (hfuel : 8 * c.tokens.length + 3 ≤ fuel + 1) :
    Finishes (Reader.conditional (fuel + 1) t) c := by
  rw [Reader.conditional]
  refine finishes_bind (ih.expression 0 c hc (by omega)) fun _ c₁ h₁ => ?_
  -- the condition takes a token, which pays for what follows the block
  have hlt₁ := expression_consumes hc.ends h₁
  have hc₁ := (sound_after ((forward fuel).expression 0) hc h₁).1
  refine finishes_bind (ih.block c₁ hc₁ (by omega)) fun _ c₂ h₂ => ?_
  obtain ⟨hc₂, hlen₂⟩ := sound_after (forward fuel).block hc₁ h₂
  refine finishes_bind (finishes_peek hc₂) fun p c₃ hp => ?_
  rw [(peek_inv hp).1]
  split
  · refine finishes_bind (finishes_next hc₂) fun _ c₄ h₄ => ?_
    obtain ⟨hc₄, hlen₄⟩ := sound_after moves_next hc₂ h₄
    refine finishes_bind (finishes_peek hc₄) fun q c₅ hq => ?_
    rw [(peek_inv hq).1]
    dsimp only
    split
    · exact finishes_bind (ih.statement c₄ hc₄ (by omega)) fun _ _ _ => finishes_pure _ _
    · exact finishes_bind (ih.block c₄ hc₄ (by omega)) fun _ _ _ => finishes_pure _ _
  · exact finishes_pure _ _

theorem Suffices.afterBreak_succ (t : Token) (c : Cursor) (hc : c.Sound)
    (hfuel : 8 * c.tokens.length + 4 ≤ fuel + 1) : Finishes (Reader.afterBreak (fuel + 1) t) c := by
  rw [Reader.afterBreak]
  refine finishes_bind (finishes_peek hc) fun p c₁ hp => ?_
  obtain ⟨hcur, hpeek⟩ := peek_inv hp
  rw [hcur]
  cases hs : p.symbol
  case newline =>
    refine finishes_bind (finishes_next hc) fun _ c₂ h₂ => ?_
    have htok := next_peeked hc.ends hpeek (by simp [hs]) h₂
    have hlen : c.tokens.length = c₂.tokens.length + 1 := by rw [htok, List.length_cons]
    exact ih.afterBreak t c₂ (sound_after moves_next hc h₂).1 (by omega)
  case eof => exact finishes_bind (finishes_advance _ hc) fun _ _ _ => finishes_pure _ _
  case closeBrace => exact finishes_pure _ _
  all_goals exact ih.statement c hc (by omega)

theorem Suffices.succ : Suffices (fuel + 1) where
  expression := ih.expression_succ
  continueFrom := ih.continueFrom_succ
  prefixOf := ih.prefixOf_succ
  infixOf := ih.infixOf_succ
  arguments := ih.arguments_succ
  group := ih.group_succ
  statement := ih.statement_succ
  statements := ih.statements_succ
  block := ih.block_succ
  blockFrom := ih.blockFrom_succ
  conditional := ih.conditional_succ
  afterBreak := ih.afterBreak_succ

end Step

theorem suffices_all : ∀ fuel, Suffices fuel
  | 0 => suffices_zero
  | fuel + 1 => (suffices_all fuel).succ

end Reader

/-! ## The tokens of a command -/

theorem Token.Placed.line_ne_zero {cs : List Char} {lower upper : Nat} {ts : List Token}
    (h : Token.Placed cs lower upper ts) : ∀ t ∈ ts, t.line ≠ 0 := by
  induction h with
  | nil => simp
  | cons _ _ hl _ _ ih =>
    intro t ht
    rcases List.mem_cons.mp ht with rfl | ht
    · rw [hl, Token.lineAt]
      omega
    · exact ih t ht

/-- The tokens of a command, with what ends them, make a sound cursor. -/
theorem scan_sound [Token.Numerals] (source : String) :
    Cursor.Sound ⟨(Token.scan source).tokens, (Token.scan source).stop⟩ := by
  have hexact := Token.scanFrom_start_exact source.toList
  refine ⟨hexact.tokens.line_ne_zero, fun t ht => ?_, fun hstop => ?_⟩
  · obtain ⟨heof, hline, -⟩ := hexact.eof t ht
    refine ⟨heof, ?_⟩
    rw [hline, Token.lineAt]
    omega
  · -- the scanner stops only at a fault of its own
    obtain ⟨_, _, _, hraised⟩ := hexact.fault _ hstop
    rcases hraised with ⟨cause, hf⟩ | hf
    · cases hf
    · cases hf

/-- Reading a command never runs out of steps: with the budget of eight steps a
token and sixteen more, the read of its statements ends in a result or a fault
of its own, any more steps give the same, and `Node.parse` never reports running
out of steps. -/
theorem Node.parse_within_budget [Token.Numerals] (source : String) :
    (Reader.statements (Reader.budget (Token.scan source).tokens) []).run
        ⟨(Token.scan source).tokens, (Token.scan source).stop⟩ ≠ .error Reader.exhausted ∧
      (∀ fuel ≥ Reader.budget (Token.scan source).tokens,
        (Reader.statements fuel []).run ⟨(Token.scan source).tokens, (Token.scan source).stop⟩ =
          (Reader.statements (Reader.budget (Token.scan source).tokens) []).run
            ⟨(Token.scan source).tokens, (Token.scan source).stop⟩) ∧
      Node.parse source ≠ .error Reader.exhausted := by
  have hstart := scan_sound source
  have hfin : Reader.Finishes (Reader.statements (Reader.budget (Token.scan source).tokens) [])
      ⟨(Token.scan source).tokens, (Token.scan source).stop⟩ :=
    (Reader.suffices_all _).statements [] _ hstart (by simp [Reader.budget])
  refine ⟨hfin, fun fuel hfuel => Reader.statements_grows hfuel [] _ hfin, ?_⟩
  -- beyond the reader, the tree is refused only for a fault at a position or of the scanner
  unfold Node.parse
  split
  · intro h
    cases h
  · dsimp only
    split
    · rename_i f hf
      intro h
      cases h
      exact hfin hf
    · rename_i stmts rest hread
      have hrest := (Reader.sound_after ((Reader.forward _).statements []) hstart hread).1
      split
      · rename_i f hf
        intro h
        cases h
        -- past the tokens, the cursor left gives its stop
        obtain ⟨tokens, stop⟩ := rest
        cases tokens with
        | cons t ts => cases hf
        | nil => exact hrest.fault hf
      · split
        · intro h
          cases h
        · intro h
          cases h

end DiceNotation
