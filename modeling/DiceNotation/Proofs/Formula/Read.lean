import DiceNotation.Proofs.Formula.Scan
import DiceNotation.CommandLine.NumberWords
import DiceNotation.Node.Parser
/-!
# Reading a formula back

The reader reads the tokens of a formula's spelling back into the formula, up
to positions.  An operand that binds at least as tightly as its operator (more
tightly, on the right) is left bare by the spelling, and the reader, which
lets a token take the expression on its left only while that token binds
more tightly than the context, stops exactly at its end; an operand in
parentheses is read as a group.  Each token costs at most three steps, so the
steps `Node.parse` supplies are enough.

The main statement is `Node.Formula.parse_unplace_render`: the written form of
a formula, with its placeholders taken out, reads back as a root holding a
single tree equal to the formula but for positions.
-/

namespace DiceNotation

namespace Reader

/-! ## Steps of the reader on known tokens -/

theorem bind_ok {α β : Type} {x : Reader α} {f : α → Reader β} {c c' : Cursor} {a : α}
    (h : x c = .ok (a, c')) : (x >>= f) c = f a c' := by
  show (do let (a, s) ← x c; f a s) = _
  rw [h]
  rfl

theorem map_ok {α β : Type} {x : Reader α} {f : α → β} {c c' : Cursor} {a : α}
    (h : x c = .ok (a, c')) : (f <$> x) c = .ok (f a, c') := by
  show (do let (a, s) ← x c; pure (f a, s)) = _
  rw [h]
  rfl

theorem peek_eq {c : Cursor} {p : Token} (hp : c.peek = .ok p) : peek c = .ok (p, c) := by
  unfold peek
  rw [bind_ok (rfl : (get : Reader Cursor) c = .ok (c, c))]
  show (do let a ← c.peek; pure (a, c)) = _
  rw [hp]
  rfl

theorem advance_cons {sym : Symbol} {t : Token} (h : t.symbol = sym) (ts : List Token)
    (stop : Except Fault Token) : advance sym ⟨t :: ts, stop⟩ = .ok (t, ⟨ts, stop⟩) := by
  unfold advance
  rw [bind_ok (rfl : next ⟨t :: ts, stop⟩ = .ok (t, ⟨ts, stop⟩)), if_pos h]
  rfl

theorem expression_cons (fuel rbp : Nat) (t : Token) (ts : List Token)
    (stop : Except Fault Token) :
    expression (fuel + 1) rbp ⟨t :: ts, stop⟩ =
      (prefixOf fuel t >>= continueFrom fuel rbp) ⟨ts, stop⟩ := by
  rw [expression]
  exact bind_ok rfl

theorem continueFrom_stop {fuel rbp : Nat} {left : Node} {c : Cursor} {p : Token}
    (hp : c.peek = .ok p) (h : p.symbol.bindingPower ≤ rbp) :
    continueFrom (fuel + 1) rbp left c = .ok (left, c) := by
  rw [continueFrom, bind_ok (peek_eq hp), if_neg (by omega)]
  rfl

theorem continueFrom_cons {fuel rbp : Nat} {left : Node} {t : Token} {ts : List Token}
    {stop : Except Fault Token} (h : rbp < t.symbol.bindingPower) :
    continueFrom (fuel + 1) rbp left ⟨t :: ts, stop⟩ =
      (infixOf fuel t left >>= continueFrom fuel rbp) ⟨ts, stop⟩ := by
  rw [continueFrom, bind_ok (peek_eq rfl), if_pos h]
  exact bind_ok rfl

theorem prefixOf_number {fuel : Nat} {t : Token} (h : t.symbol = .number) (c : Cursor) :
    prefixOf (fuel + 1) t c = .ok (leafOf t, c) := by
  rw [prefixOf, h]
  rfl

theorem prefixOf_minus {fuel : Nat} {t : Token} (h : t.symbol = .minus) :
    prefixOf (fuel + 1) t = (fun o => nodeOf t [o]) <$> expression fuel Symbol.prefixPower := by
  rw [prefixOf, h]
  rfl

theorem prefixOf_openParen {fuel : Nat} {t : Token} (h : t.symbol = .openParen) :
    prefixOf (fuel + 1) t = group fuel t [] := by
  rw [prefixOf, h]

theorem infixOf_binary {fuel : Nat} {t : Token} {left : Node}
    (h : t.symbol ∈ Symbol.spacedOperators ∨ t.symbol = .dice) :
    infixOf (fuel + 1) t left =
      (fun right => nodeOf t [left, right]) <$> expression fuel t.symbol.bindingPower := by
  obtain ⟨sym, value, line, col⟩ := t
  simp only [Symbol.spacedOperators, List.mem_cons, List.not_mem_nil, or_false] at h
  rw [infixOf]
  rcases h with (rfl | rfl | rfl | rfl | rfl | rfl | rfl | rfl | rfl | rfl | rfl | rfl) | rfl <;>
    rfl

theorem infixOf_ifWord {fuel : Nat} {t : Token} {left : Node} (h : t.symbol = .ifWord) :
    infixOf (fuel + 1) t left = (do
      let condition ← expression fuel 0
      let _ ← advance .elseWord
      let otherwise ← expression fuel 0
      return nodeOf t [condition, left, otherwise]) := by
  rw [infixOf, h]

theorem group_open {fuel : Nat} {opening : Token} {acc : List Node} {c : Cursor} {p : Token}
    (hp : c.peek = .ok p) (hnot : p.symbol ≠ .closeParen ∧ p.symbol ≠ .eof) :
    group (fuel + 1) opening acc c =
      (expression fuel 0 >>= fun e => group fuel opening (acc ++ [e])) c := by
  rw [group.eq_def]
  dsimp only
  rw [bind_ok (peek_eq hp), if_neg (by simp [hnot])]

theorem group_close {fuel : Nat} {opening close : Token} {first : Node} {acc : List Node}
    (hc : close.symbol = .closeParen) (ts : List Token) (stop : Except Fault Token) :
    group (fuel + 1) opening (first :: acc) ⟨close :: ts, stop⟩ = .ok (first, ⟨ts, stop⟩) := by
  unfold group
  rw [bind_ok (peek_eq rfl), if_pos (.inl hc), bind_ok (advance_cons hc ts stop)]
  rfl

theorem statement_expression {fuel : Nat} {c : Cursor} {p : Token} (hp : c.peek = .ok p)
    (hs : p.symbol = .number ∨ p.symbol = .minus ∨ p.symbol = .openParen) :
    statement (fuel + 1) c = expression fuel 0 c := by
  rw [statement.eq_def]
  dsimp only
  rw [bind_ok (peek_eq hp)]
  rcases hs with h | h | h <;> rw [h]

theorem statements_more {fuel : Nat} {acc : List Node} {c c' : Cursor} {p : Token} {s : Node}
    (hp : c.peek = .ok p) (hnot : p.symbol ≠ .eof ∧ p.symbol ≠ .closeBrace)
    (hs : statement fuel c = .ok (s, c'))
    (hsym : s.sym ≠ Symbol.eof.text ∧ s.sym ≠ Symbol.newline.text) :
    statements (fuel + 1) acc c = statements fuel (acc ++ [s]) c' := by
  rw [statements.eq_def]
  dsimp only
  rw [bind_ok (peek_eq hp), if_neg (by simp [hnot]), bind_ok hs, if_neg (by simp [hsym])]

theorem statements_end {fuel : Nat} {acc : List Node} {c : Cursor} {p : Token}
    (hp : c.peek = .ok p) (h : p.symbol = .eof) : statements (fuel + 1) acc c = .ok (acc, c) := by
  rw [statements.eq_def]
  dsimp only
  rw [bind_ok (peek_eq hp), if_pos (.inl h)]
  rfl

/-! ## Reading a unit -/

/-- The next token of a cursor binds no tighter than `bound`. -/
def NextBinds (c : Cursor) (bound : Nat) : Prop :=
  ∃ p, c.peek = .ok p ∧ p.symbol.bindingPower ≤ bound

theorem nextBinds_cons {t : Token} {ts : List Token} {stop : Except Fault Token} {bound : Nat}
    (h : t.symbol.bindingPower ≤ bound) : NextBinds ⟨t :: ts, stop⟩ bound :=
  ⟨t, rfl, h⟩

theorem NextBinds.mono {c : Cursor} {bound bound' : Nat} (h : NextBinds c bound)
    (hle : bound ≤ bound') : NextBinds c bound' := by
  obtain ⟨p, hp, hb⟩ := h
  exact ⟨p, hp, by omega⟩

/-- Tokens `ts` before `rest` read, in a context binding with `rbp` and with
three steps or more per token, as a tree equal to `t` but for positions; the
reader then goes on in the same context after them, having spent at most one
step per token. -/
def Reads (rbp : Nat) (t : Node) (ts rest : List Token) (stop : Except Fault Token) : Prop :=
  ∀ fuel, 3 * ts.length ≤ fuel → ∃ t' k, t'.erase = t.erase ∧ k ≤ ts.length ∧
    expression (fuel + 1) rbp ⟨ts ++ rest, stop⟩ = continueFrom (fuel - k) rbp t' ⟨rest, stop⟩

/-- A unit read before a token that binds no tighter than the context ends there. -/
theorem Reads.finish {rbp : Nat} {t : Node} {ts rest : List Token} {stop : Except Fault Token}
    (h : Reads rbp t ts rest stop) (hne : ts ≠ []) (hnext : NextBinds ⟨rest, stop⟩ rbp)
    (fuel : Nat) (hfuel : 3 * ts.length ≤ fuel) :
    ∃ t', t'.erase = t.erase ∧
      expression (fuel + 1) rbp ⟨ts ++ rest, stop⟩ = .ok (t', ⟨rest, stop⟩) := by
  obtain ⟨t', k, he, hk, hread⟩ := h fuel hfuel
  obtain ⟨p, hp, hb⟩ := hnext
  have hlen : 0 < ts.length := List.length_pos_iff.2 hne
  obtain ⟨j, hj⟩ : ∃ j, fuel - k = j + 1 := ⟨fuel - k - 1, by omega⟩
  exact ⟨t', he, by rw [hread, hj, continueFrom_stop hp hb]⟩

theorem reads_numeral {rbp : Nat} {tk : Token} (htk : tk.spelling = (.number, v))
    (line col : Nat) (rest : List Token) (stop : Except Fault Token) :
    Reads rbp (.mk Symbol.number.text v line col []) [tk] rest stop := by
  intro fuel hfuel
  obtain ⟨f, rfl⟩ : ∃ f, fuel = f + 1 := ⟨fuel - 1, by simp at hfuel; omega⟩
  simp only [Token.spelling, Prod.mk.injEq] at htk
  refine ⟨leafOf tk, 0, ?_, Nat.zero_le _, ?_⟩
  · simp [leafOf, Node.leaf, Node.erase, htk.1, htk.2]
  · rw [List.singleton_append, expression_cons, bind_ok (prefixOf_number htk.1 _)]
    rfl

theorem reads_negation {rbp : Nat} {a : Node} {tm : Token} {tsA rest : List Token}
    {stop : Except Fault Token} (hm : tm.spelling = (.minus, Symbol.minus.text))
    (hA : Reads Symbol.prefixPower a tsA rest stop) (hne : tsA ≠ [])
    (hnext : NextBinds ⟨rest, stop⟩ Symbol.prefixPower) (line col : Nat) :
    Reads rbp (.mk Symbol.minus.text Symbol.minus.text line col [a]) (tm :: tsA) rest stop := by
  intro fuel hfuel
  simp only [List.length_cons] at hfuel
  obtain ⟨g, rfl⟩ : ∃ g, fuel = g + 2 := ⟨fuel - 2, by omega⟩
  simp only [Token.spelling, Prod.mk.injEq] at hm
  obtain ⟨a', ha', hread⟩ := hA.finish hne hnext g (by omega)
  refine ⟨nodeOf tm [a'], 0, ?_, Nat.zero_le _, ?_⟩
  · simp [nodeOf, Node.erase, hm.1, hm.2, ← ha']
  · rw [List.cons_append, expression_cons, prefixOf_minus hm.1, bind_ok (map_ok hread)]
    rfl

theorem reads_infix {rbp : Nat} {s : Symbol} {a b : Node} {op : Token} {tsA tsB rest : List Token}
    {stop : Except Fault Token} (hsp : op.spelling = (s, s.text))
    (hs : s ∈ Symbol.spacedOperators ∨ s = .dice) (hrbp : rbp < s.bindingPower)
    (hA : Reads rbp a tsA (op :: (tsB ++ rest)) stop) (hB : Reads s.bindingPower b tsB rest stop)
    (hne : tsB ≠ []) (hnext : NextBinds ⟨rest, stop⟩ s.bindingPower) (line col : Nat) :
    Reads rbp (.mk s.text s.text line col [a, b]) (tsA ++ op :: tsB) rest stop := by
  intro fuel hfuel
  simp only [List.length_append, List.length_cons] at hfuel
  simp only [Token.spelling, Prod.mk.injEq] at hsp
  rw [← hsp.1] at hs hrbp hB hnext
  obtain ⟨a', ka, ha', hka, hreadA⟩ := hA fuel (by omega)
  -- after the left operand: one step to take the operator, one to read its right operand
  obtain ⟨i, hi⟩ : ∃ i, fuel - ka = i + 2 + 1 := ⟨fuel - ka - 3, by omega⟩
  obtain ⟨b', hb', hreadB⟩ := hB.finish hne hnext i (by omega)
  refine ⟨nodeOf op [a', b'], ka + 1, ?_, by simp; omega, ?_⟩
  · simp [nodeOf, Node.erase, hsp.1, hsp.2, ← ha', ← hb']
  · rw [List.append_assoc, List.cons_append, hreadA, hi, continueFrom_cons hrbp,
      infixOf_binary hs, bind_ok (map_ok hreadB), show fuel - (ka + 1) = i + 2 by omega]

theorem reads_conditional {rbp : Nat} {c a b : Node} {ti te : Token}
    {tsC tsA tsB rest : List Token} {stop : Except Fault Token}
    (hi : ti.spelling = (.ifWord, Symbol.ifWord.text))
    (he : te.symbol = .elseWord) (hrbp : rbp < Symbol.ifWord.bindingPower)
    (hA : Reads rbp a tsA (ti :: (tsC ++ te :: (tsB ++ rest))) stop)
    (hC : Reads 0 c tsC (te :: (tsB ++ rest)) stop) (hB : Reads 0 b tsB rest stop)
    (hneC : tsC ≠ []) (hneB : tsB ≠ []) (hnext : NextBinds ⟨rest, stop⟩ 0) (line col : Nat) :
    Reads rbp (.mk Symbol.ifWord.text Symbol.ifWord.text line col [c, a, b])
      (tsA ++ ti :: (tsC ++ te :: tsB)) rest stop := by
  intro fuel hfuel
  simp only [List.length_append, List.length_cons] at hfuel
  simp only [Token.spelling, Prod.mk.injEq] at hi
  obtain ⟨a', ka, ha', hka, hreadA⟩ := hA fuel (by omega)
  obtain ⟨i, hi'⟩ : ∃ i, fuel - ka = i + 2 + 1 := ⟨fuel - ka - 3, by omega⟩
  obtain ⟨c', hc', hreadC⟩ := hC.finish hneC (nextBinds_cons (by rw [he]; decide))
    i (by omega)
  obtain ⟨b', hb', hreadB⟩ := hB.finish hneB hnext i (by omega)
  have hinfix : infixOf (i + 2) ti a' ⟨tsC ++ te :: (tsB ++ rest), stop⟩ =
      .ok (nodeOf ti [c', a', b'], ⟨rest, stop⟩) := by
    rw [infixOf_ifWord hi.1, bind_ok hreadC, bind_ok (advance_cons he _ _), bind_ok hreadB]
    rfl
  refine ⟨nodeOf ti [c', a', b'], ka + 1, ?_, by simp; omega, ?_⟩
  · simp [nodeOf, Node.erase, hi.1, hi.2, ← ha', ← hb', ← hc']
  · simp only [List.append_assoc, List.cons_append]
    rw [hreadA, hi', continueFrom_cons (by rw [hi.1]; exact hrbp), bind_ok hinfix,
      show fuel - (ka + 1) = i + 2 by omega]

theorem reads_group {rbp : Nat} {a : Node} {o close : Token} {tsA rest : List Token}
    {stop : Except Fault Token} (ho : o.symbol = .openParen) (hc : close.symbol = .closeParen)
    (hA : Reads 0 a tsA (close :: rest) stop) (hne : tsA ≠ [])
    (hfirst : ∀ p ∈ tsA.head?, p.symbol ≠ .closeParen ∧ p.symbol ≠ .eof) :
    Reads rbp a (o :: (tsA ++ [close])) rest stop := by
  intro fuel hfuel
  simp only [List.length_cons, List.length_append] at hfuel
  obtain ⟨g, rfl⟩ : ∃ g, fuel = g + 2 + 1 := ⟨fuel - 3, by omega⟩
  obtain ⟨a', ha', hread⟩ := hA.finish hne (nextBinds_cons (by rw [hc]; decide)) g (by omega)
  obtain ⟨p, more, rfl⟩ := List.exists_cons_of_ne_nil hne
  have hgroup :
      group (g + 2) o [] ⟨p :: (more ++ close :: rest), stop⟩ = .ok (a', ⟨rest, stop⟩) := by
    simp only [List.cons_append] at hread
    rw [group_open rfl (hfirst p rfl), bind_ok hread, List.nil_append, group_close hc]
  refine ⟨a', 0, ha', Nat.zero_le _, ?_⟩
  simp only [List.cons_append, List.append_assoc, List.nil_append]
  rw [expression_cons, prefixOf_openParen ho, bind_ok hgroup]
  rfl

end Reader

/-! ## Reading a formula -/

namespace Node

open Reader

/-- The most a token after a formula may bind for the reader to stop there: as
much as the formula itself, except after a conditional, whose last branch is
read in the loosest context. -/
def closingPower (t : Node) : Nat :=
  if t.sym = Symbol.ifWord.text then 0 else t.printPower

/-- Tokens that open a unit: a numeral, a minus sign or a parenthesis comes first. -/
def OpensUnit (ts : List (Symbol × String)) : Prop :=
  ∃ x rest, ts = x :: rest ∧ (x.1 = .number ∨ x.1 = .minus ∨ x.1 = .openParen)

theorem opensUnit_enclose (needed : Prop) [Decidable needed] {ts : List (Symbol × String)}
    (h : OpensUnit ts) : OpensUnit (encloseTokens needed ts) := by
  unfold encloseTokens
  split
  · exact ⟨_, _, rfl, by simp⟩
  · exact h

theorem opensUnit_append {ts us : List (Symbol × String)} (h : OpensUnit ts) :
    OpensUnit (ts ++ us) := by
  obtain ⟨x, rest, rfl, hx⟩ := h
  exact ⟨x, rest ++ us, rfl, hx⟩

section Formulas

variable {t : Node}

theorem Formula.opensUnit (ht : t.Formula) : OpensUnit t.tokens := by
  induction ht with
  | numeral => exact ⟨_, [], rfl, .inl rfl⟩
  | negate => exact ⟨_, _, rfl, .inr (.inl rfl)⟩
  | binary _ _ _ iha => exact opensUnit_append (opensUnit_enclose _ iha)
  | throw _ _ iha => exact opensUnit_append (opensUnit_enclose _ iha)
  | conditional _ _ _ _ iha => exact opensUnit_append (opensUnit_enclose _ iha)

theorem Formula.printPower_of_sym (ht : t.Formula) (hs : t.sym = Symbol.ifWord.text) :
    t.printPower = Symbol.ifWord.bindingPower := by
  cases ht with
  | @binary s a b line col hsp =>
    rw [sym_mk, Symbol.text_inj] at hs
    subst hs
    simp [Symbol.spacedOperators] at hsp
  | conditional => rfl
  | _ => simp [Symbol.text] at hs

/-- After a formula binding more tightly than a conditional, the reader stops
at any token binding no tighter than the formula. -/
theorem Formula.closingPower_eq (ht : t.Formula) (h : Symbol.ifWord.bindingPower < t.printPower) :
    t.closingPower = t.printPower := by
  unfold closingPower
  rw [if_neg fun hs => by rw [ht.printPower_of_sym hs] at h; omega]

/-- A formula opens in every context looser than its top operator; a numeral
or a negation opens in any context. -/
def Opens (t : Node) (rbp : Nat) : Prop :=
  t.children.length ≤ 1 ∨ rbp < t.printPower

theorem Formula.opens_zero (ht : t.Formula) : t.Opens 0 :=
  .inr (Nat.lt_of_lt_of_le (by decide) ht.printPower_ge)

theorem map_spelling_eq_append_cons {ts : List Token} {xs ys : List (Symbol × String)}
    {x : Symbol × String} (h : ts.map Token.spelling = xs ++ x :: ys) :
    ∃ us v ws, ts = us ++ v :: ws ∧ us.map Token.spelling = xs ∧ v.spelling = x ∧
      ws.map Token.spelling = ys := by
  obtain ⟨us, rest, rfl, hus, hrest⟩ := List.map_eq_append_iff.1 h
  obtain ⟨v, ws, rfl, hv, hws⟩ := List.map_eq_cons_iff.1 hrest
  exact ⟨us, v, ws, rfl, hus, hv, hws⟩

theorem ne_nil_of_map_spelling {ts : List Token} {toks : List (Symbol × String)}
    (h : ts.map Token.spelling = toks) (hne : OpensUnit toks) : ts ≠ [] := by
  rintro rfl
  obtain ⟨x, rest, hx, -⟩ := hne
  rw [← h] at hx
  simp at hx

/-- A formula read as an operand: in parentheses where they are `needed`, and
otherwise in a context it opens in and before a token it stops at. -/
theorem Formula.reads_enclose (ht : t.Formula)
    (hreads : ∀ {rbp ts rest stop}, t.Opens rbp → ts.map Token.spelling = t.tokens →
      NextBinds ⟨rest, stop⟩ t.closingPower → Reads rbp t ts rest stop)
    (needed : Prop) [Decidable needed] {rbp : Nat} {ts rest : List Token}
    {stop : Except Fault Token} (hopen : needed ∨ t.Opens rbp)
    (hts : ts.map Token.spelling = encloseTokens needed t.tokens)
    (hclose : needed ∨ NextBinds ⟨rest, stop⟩ t.closingPower) : Reads rbp t ts rest stop := by
  by_cases hn : needed
  · rw [encloseTokens, if_pos hn, List.cons_append] at hts
    obtain ⟨o, more, rfl, ho, hmore⟩ := List.map_eq_cons_iff.1 hts
    obtain ⟨tsA, rest', rfl, hA, hclose'⟩ := List.map_eq_append_iff.1 hmore
    obtain ⟨close, rfl, hc⟩ := List.map_eq_singleton_iff.1 hclose'
    simp only [Token.spelling, Prod.mk.injEq] at ho hc
    obtain ⟨x, xs, htoks, hx⟩ := ht.opensUnit
    have hfirst : ∀ p ∈ tsA.head?, p.symbol ≠ .closeParen ∧ p.symbol ≠ .eof := by
      intro p hp
      obtain ⟨q, qs, rfl⟩ := List.exists_cons_of_ne_nil (ne_nil_of_map_spelling hA ht.opensUnit)
      cases hp
      rw [htoks, List.map_cons, List.cons.injEq] at hA
      simp only [Token.spelling] at hA
      rw [← hA.1] at hx
      rcases hx with hx | hx | hx <;> simp only at hx <;> simp [hx]
    exact reads_group ho.1 hc.1
      (hreads ht.opens_zero hA (nextBinds_cons (by rw [hc.1]; exact Nat.zero_le _)))
      (ne_nil_of_map_spelling hA ht.opensUnit) hfirst
  · rw [encloseTokens, if_neg hn] at hts
    exact hreads (hopen.resolve_left hn) hts (hclose.resolve_left hn)

/-- The operand of an operator that the next token binds with `power`, in
parentheses exactly where the spelling puts them, reads in the operator's context. -/
theorem Formula.reads_operand (ht : t.Formula)
    (hreads : ∀ {rbp ts rest stop}, t.Opens rbp → ts.map Token.spelling = t.tokens →
      NextBinds ⟨rest, stop⟩ t.closingPower → Reads rbp t ts rest stop)
    {power rbp : Nat} {ts rest : List Token} {stop : Except Fault Token}
    (needed : Prop) [Decidable needed]
    (hbare : ¬needed → t.Opens rbp ∧ power ≤ t.printPower ∧
      Symbol.ifWord.bindingPower < t.printPower)
    (hts : ts.map Token.spelling = encloseTokens needed t.tokens)
    (hnext : NextBinds ⟨rest, stop⟩ power) : Reads rbp t ts rest stop := by
  by_cases hn : needed
  · exact ht.reads_enclose hreads needed (.inl hn) hts (.inl hn)
  · obtain ⟨hopen, hpower, hif⟩ := hbare hn
    refine ht.reads_enclose hreads needed (.inr hopen) hts (.inr (hnext.mono ?_))
    rw [ht.closingPower_eq hif]
    exact hpower

theorem ifWord_bindingPower : Symbol.ifWord.bindingPower = 20 := rfl

/-- The operands of a binary operator or a throw, each in parentheses exactly
where the spelling puts them, read as the operator's two children. -/
theorem reads_pair {s : Symbol} {a b : Node} (hs : s ∈ Symbol.spacedOperators ∨ s = .dice)
    (ha : a.Formula) (hb : b.Formula)
    (iha : ∀ {rbp ts rest stop}, a.Opens rbp → ts.map Token.spelling = a.tokens →
      NextBinds ⟨rest, stop⟩ a.closingPower → Reads rbp a ts rest stop)
    (ihb : ∀ {rbp ts rest stop}, b.Opens rbp → ts.map Token.spelling = b.tokens →
      NextBinds ⟨rest, stop⟩ b.closingPower → Reads rbp b ts rest stop)
    (hif : Symbol.ifWord.bindingPower < s.bindingPower) {rbp line col : Nat}
    {ts rest : List Token} {stop : Except Fault Token} (hrbp : rbp < s.bindingPower)
    (hts : ts.map Token.spelling = encloseTokens (a.printPower < s.bindingPower) a.tokens ++
      (s, s.text) :: encloseTokens (b.printPower ≤ s.bindingPower) b.tokens)
    (hclose : NextBinds ⟨rest, stop⟩ s.bindingPower) :
    Reads rbp (mk s.text s.text line col [a, b]) ts rest stop := by
  obtain ⟨tsA, op, tsB, rfl, hA, hop, hB⟩ := map_spelling_eq_append_cons hts
  have hsym : op.symbol = s := congrArg Prod.fst hop
  -- the left operand stops at the operator, the right one where the whole node does
  refine reads_infix hop hs hrbp
    (ha.reads_operand iha (a.printPower < s.bindingPower) (fun hn => ?_) hA
      (nextBinds_cons (Nat.le_of_eq (congrArg Symbol.bindingPower hsym))))
    (hb.reads_operand ihb (b.printPower ≤ s.bindingPower) (fun hn => ?_) hB hclose)
    (ne_nil_of_map_spelling hB (opensUnit_enclose _ hb.opensUnit)) hclose line col
  · have := Nat.le_of_not_lt hn
    exact ⟨.inr (by omega), this, by omega⟩
  · have := Nat.lt_of_not_le hn
    exact ⟨.inr this, Nat.le_of_lt this, by omega⟩

/-- Every formula reads back from its tokens, in a context it opens in and
before a token it stops at. -/
theorem Formula.reads (ht : t.Formula) {rbp : Nat} {ts rest : List Token}
    {stop : Except Fault Token} (hopen : t.Opens rbp) (hts : ts.map Token.spelling = t.tokens)
    (hclose : NextBinds ⟨rest, stop⟩ t.closingPower) : Reads rbp t ts rest stop := by
  induction ht generalizing rbp ts rest stop with
  | @numeral v line col hv =>
    obtain ⟨tk, rfl, htk⟩ := List.map_eq_singleton_iff.1 hts
    exact reads_numeral htk line col rest stop
  | @negate a line col ha iha =>
    obtain ⟨tm, tsA, rfl, hm, hA⟩ := List.map_eq_cons_iff.1 hts
    have hnext : NextBinds ⟨rest, stop⟩ Symbol.prefixPower := hclose
    refine reads_negation hm (ha.reads_operand iha (a.printPower < Symbol.prefixPower) ?_ hA hnext)
      (ne_nil_of_map_spelling hA (opensUnit_enclose _ ha.opensUnit)) hnext line col
    intro hn
    have hp : Symbol.prefixPower ≤ a.printPower := Nat.le_of_not_lt hn
    exact ⟨.inl (ha.children_of_prefixPower_le hp), hp, Nat.lt_of_lt_of_le (by decide) hp⟩
  | @binary s a b line col hs ha hb iha ihb =>
    have hpower := Symbol.bindingPower_of_spaced hs
    simp only [tokens, Symbol.ofText?_text, Option.getD_some, Symbol.powerOfText_text] at hts
    have hrbp : rbp < s.bindingPower := by
      rcases hopen with h | h
      · simp at h
      · rwa [printPower_spaced hs] at h
    have hclosing : (mk s.text s.text line col [a, b]).closingPower = s.bindingPower := by
      rw [(Formula.binary hs ha hb).closingPower_eq
          (by rw [printPower_spaced hs, ifWord_bindingPower]; omega),
        printPower_spaced hs]
    rw [hclosing] at hclose
    exact reads_pair (.inl hs) ha hb iha ihb (by rw [ifWord_bindingPower]; omega) hrbp hts hclose
  | @throw a b line col ha hb iha ihb =>
    simp only [tokens, Symbol.ofText?_text, Option.getD_some, Symbol.powerOfText_text] at hts
    have hrbp : rbp < Symbol.dice.bindingPower := by
      rcases hopen with h | h
      · simp at h
      · exact h
    exact reads_pair (.inr rfl) ha hb iha ihb (by decide) hrbp hts hclose
  | @conditional c a b line col hc ha hb ihc iha ihb =>
    simp only [tokens] at hts
    obtain ⟨tsA, ti, more, rfl, hA, hi, hmore⟩ := map_spelling_eq_append_cons hts
    obtain ⟨tsC, te, tsB, rfl, hC, he, hB⟩ := map_spelling_eq_append_cons hmore
    have hrbp : rbp < Symbol.ifWord.bindingPower := by
      rcases hopen with h | h
      · simp at h
      · exact h
    have hnext : NextBinds ⟨rest, stop⟩ 0 := hclose
    have hiSym : ti.symbol = .ifWord := congrArg Prod.fst hi
    have heSym : te.symbol = .elseWord := congrArg Prod.fst he
    refine reads_conditional hi heSym hrbp
      (ha.reads_operand iha (a.printPower ≤ Symbol.ifWord.bindingPower) (fun hn => ?_) hA
        (nextBinds_cons (Nat.le_of_eq (congrArg Symbol.bindingPower hiSym)) :
          NextBinds _ Symbol.ifWord.bindingPower))
      (ihc hc.opens_zero hC (nextBinds_cons (by rw [heSym]; exact Nat.zero_le _)))
      (ihb hb.opens_zero hB (hnext.mono (Nat.zero_le _)))
      (ne_nil_of_map_spelling hC hc.opensUnit) (ne_nil_of_map_spelling hB hb.opensUnit)
      hnext line col
    have := Nat.lt_of_not_le hn
    exact ⟨.inr (by omega), Nat.le_of_lt this, this⟩

/-- No formula is the end of the input or a line break. -/
theorem Formula.sym_ne_end (ht : t.Formula) :
    t.sym ≠ Symbol.eof.text ∧ t.sym ≠ Symbol.newline.text := by
  cases ht with
  | @binary s a b line col hs =>
    simp only [sym_mk, ne_eq, Symbol.text_inj]
    constructor <;> rintro rfl <;> simp [Symbol.spacedOperators] at hs
  | _ => simp [Symbol.text]

/-- Scanning the bare spelling of a formula gives its tokens and then the end. -/
theorem Formula.scan_spell [Token.Numerals] (ht : t.Formula) : ∃ ts col, ts.map Token.spelling = t.tokens ∧
    Token.scan (String.ofList (t.spell [])) = ⟨ts, .ok ⟨.eof, "EOF", 1, col⟩⟩ := by
  obtain ⟨ts, col, hts, hscan⟩ := ht.scansTo [] (fun _ h => by cases h) 1 1 []
  refine ⟨ts, col, hts, ?_⟩
  rw [Token.scan, String.toList_ofList, ← List.append_nil (t.spell []), hscan]
  simp [Token.scanFrom]

/-- The bare spelling of a formula reads as a root holding that formula alone. -/
theorem Formula.parse_spell [Token.Numerals] (ht : t.Formula) :
    ∃ c, Node.parse (String.ofList (t.spell [])) = .ok (.mk Symbol.root.text "" 0 0 [c]) ∧
      c.erase = t.erase := by
  obtain ⟨ts, col, hts, hscan⟩ := ht.scan_spell
  have hne : ts ≠ [] := ne_nil_of_map_spelling hts ht.opensUnit
  obtain ⟨p, ps, rfl⟩ := List.exists_cons_of_ne_nil hne
  have hfirst : p.symbol = .number ∨ p.symbol = .minus ∨ p.symbol = .openParen := by
    obtain ⟨x, xs, htoks, hx⟩ := ht.opensUnit
    rw [htoks, List.map_cons, List.cons.injEq] at hts
    rw [← hts.1] at hx
    exact hx
  let eof : Token := ⟨.eof, "EOF", 1, col⟩
  have hend : NextBinds ⟨[], .ok eof⟩ 0 := ⟨eof, rfl, Nat.le_refl 0⟩
  -- the parser's budget of eight steps per token leaves the three per token that reading needs
  obtain ⟨c, hc, hread⟩ := (ht.reads ht.opens_zero hts (hend.mono (Nat.zero_le _))).finish hne
    hend (8 * (p :: ps).length + 13) (by omega)
  rw [List.append_nil] at hread
  have hsym : c.sym ≠ Symbol.eof.text ∧ c.sym ≠ Symbol.newline.text := by
    rw [← sym_erase c, hc, sym_erase]
    exact ht.sym_ne_end
  have hstatements : statements (budget (p :: ps)) [] ⟨p :: ps, .ok eof⟩ =
      .ok ([c], ⟨[], .ok eof⟩) := by
    rw [budget, show 8 * (p :: ps).length + 16 = 8 * (p :: ps).length + 14 + 1 + 1 by omega,
      statements_more rfl ?_ ?_ hsym, statements_end (c := ⟨[], .ok eof⟩) (p := eof) rfl rfl]
    · rfl
    · rcases hfirst with h | h | h <;> simp [h]
    · rw [statement_expression rfl hfirst, hread]
  refine ⟨c, ?_, hc⟩
  have hsource : (String.ofList (t.spell [])).isEmpty = false := by
    obtain ⟨x, xs, hx, -⟩ := ht.startsUnit []
    simp [hx]
  unfold Node.parse
  rw [if_neg (by simp [hsource])]
  simp only [hscan]
  rw [show (statements (budget (p :: ps)) []).run ⟨p :: ps, .ok eof⟩ = .ok ([c], ⟨[], .ok eof⟩)
    from hstatements]
  rfl

/-- Reading the written form of a formula with its placeholders taken out
gives the formula back, alone under the root, up to positions. -/
theorem Formula.parse_unplace_spell [Token.Numerals] (ht : t.Formula) :
    ∃ c, Node.parse (String.ofList (unplace (t.spell placeholder.toList))) =
      .ok (.mk Symbol.root.text "" 0 0 [c]) ∧ c.erase = t.erase := by
  rw [← List.append_nil (t.spell _), ht.unplace_spell]
  simpa [unplace] using ht.parse_spell

end Formulas

/-- Writing a formula and reading it back, with the placeholders for the faces
taken out, gives the formula again, alone under the root, up to positions. -/
theorem Formula.parse_unplace_render [Token.Numerals] {t : Node} (ht : t.Formula) :
    ∃ text, render t = .ok text ∧ ∃ c, Node.parse (String.ofList (unplace text.toList)) =
      .ok (.mk Symbol.root.text "" 0 0 [c]) ∧ c.erase = t.erase := by
  refine ⟨_, ht.render_eq, ?_⟩
  rw [String.toList_ofList]
  exact ht.parse_unplace_spell

/-- `2 * (1d6 + 3) if 1 < 2 else -4` is a formula, and reads back from its written form. -/
theorem Formula.parse_unplace_render_conditional :
    let t := Node.mk Symbol.ifWord.text Symbol.ifWord.text 0 0
      [.mk Symbol.less.text Symbol.less.text 0 0
        [.mk Symbol.number.text "1" 0 0 [], .mk Symbol.number.text "2" 0 0 []],
       .mk Symbol.times.text Symbol.times.text 0 0
        [.mk Symbol.number.text "2" 0 0 [],
         .mk Symbol.plus.text Symbol.plus.text 0 0
          [.mk Symbol.dice.text Symbol.dice.text 0 0
            [.mk Symbol.number.text "1" 0 0 [], .mk Symbol.number.text "6" 0 0 []],
           .mk Symbol.number.text "3" 0 0 []]],
       .mk Symbol.minus.text Symbol.minus.text 0 0 [.mk Symbol.number.text "4" 0 0 []]]
    t.Formula ∧ ∃ text, render t = .ok text ∧
      ∃ c, Node.parse (String.ofList (unplace text.toList)) =
        .ok (.mk Symbol.root.text "" 0 0 [c]) ∧ c.erase = t.erase := by
  intro t
  have ht : t.Formula :=
    .conditional
      (.binary (by decide) (.numeral (isNumeral_digit rfl)) (.numeral (isNumeral_digit rfl)))
      (.binary (by decide) (.numeral (isNumeral_digit rfl))
        (.binary (by decide)
          (.throw (.numeral (isNumeral_digit rfl)) (.numeral (isNumeral_digit rfl)))
          (.numeral (isNumeral_digit rfl))))
      (.negate (.numeral (isNumeral_digit rfl)))
  exact ⟨ht, Formula.parse_unplace_render ht⟩

end Node

end DiceNotation
