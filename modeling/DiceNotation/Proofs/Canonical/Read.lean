import DiceNotation.Proofs.Canonical.Scan
/-!
# Reading the written form back

The written form of a command reads back as the command, up to positions.
A tag is taken by the operand on its left as the reader meets it, and each
drop by the throw before it, so a numeral reads with its tags and a throw
with its drops.  A comma after a statement is taken by the expression before
it, which leaves it out; a block and an `if` statement read their braces and
`else` in turn.  Every token costs the reader at most four steps, so the
steps `Node.parse` supplies are enough.
-/

namespace DiceNotation

namespace Node

theorem TagLeaf.erase_leaf {c : Node} (h : TagLeaf c) (line col : Nat) :
    (Node.leaf Symbol.ident.text (Text.capitalize c.value) line col).erase = c.erase := by
  obtain ⟨s, v, l, k, cs⟩ := c
  obtain ⟨hs, hl, hcap, -⟩ := h
  simp only [sym_mk, children_mk, value_mk] at hs hl hcap
  subst hs hl
  simp [Node.leaf, erase, hcap]

theorem erase_mk_append {s v : String} {l k l' k' : Nat} {cs cs' ds ds' : List Node}
    (hc : cs'.map erase = cs.map erase) (hd : ds'.map erase = ds.map erase) :
    (mk s v l' k' (cs' ++ ds')).erase = (mk s v l k (cs ++ ds)).erase := by
  simp only [erase, List.map_append, hc, hd]

theorem Drops.length_le {reads : Bool} {ds : List Node} {w : List Char}
    {ts : List (Symbol × String)} {g : List String} (h : Drops reads ds w ts g) :
    ds.length ≤ ts.length := by
  induction h with
  | nil => exact Nat.le_refl 0
  | cons => simp only [List.length_cons, List.cons_append, List.length_append]; omega

end Node

open Node

namespace Reader

/-! ## Tags, drops and commas after an operand -/

theorem infixOf_ident {fuel : Nat} {t : Token} {left : Node} (h : t.symbol = .ident) (c : Cursor) :
    infixOf (fuel + 1) t left c =
      .ok (left.push (.leaf t.symbol.text (Text.capitalize t.value) t.line t.col), c) := by
  rw [infixOf, h]
  rfl

theorem infixOf_comma {fuel : Nat} {t : Token} {left : Node} (h : t.symbol = .comma) (c : Cursor) :
    infixOf (fuel + 1) t left c = .ok (left, c) := by
  rw [infixOf, h]
  rfl

theorem infixOf_drop {fuel : Nat} {t : Token} {left count : Node} {c c' : Cursor} {p : Token}
    (h : t.symbol = .dropHighest ∨ t.symbol = .dropLowest) (hp : c.peek = .ok p)
    (hnum : p.symbol = .number) (hcount : expression fuel t.symbol.bindingPower c = .ok (count, c')) :
    infixOf (fuel + 1) t left c = .ok (left.push (nodeOf t [count]), c') := by
  obtain ⟨sym, value, line, col⟩ := t
  simp only at h hcount
  rcases h with rfl | rfl <;>
  · rw [infixOf]
    simp only
    rw [bind_ok (peek_eq hp), if_pos hnum, bind_ok hcount]
    rfl

/-- Tags after a node are pushed onto it one by one, a step each. -/
theorem continueFrom_tags {rbp : Nat} (hrbp : rbp < Symbol.tagPower) {rest : List Token}
    {stop : Except Fault Token} {s v : String} {l k : Nat} :
    ∀ {cs : List Node} {tags : List Token} (fuel : Nat) (cs₀ : List Node), (∀ c ∈ cs, TagLeaf c) →
      tags.map Token.spelling = Written.tagTokens (cs.map value) →
      ∃ cs', cs'.map erase = cs.map erase ∧
        continueFrom (fuel + 1 + tags.length) rbp (mk s v l k cs₀) ⟨tags ++ rest, stop⟩ =
          continueFrom (fuel + 1) rbp (mk s v l k (cs₀ ++ cs')) ⟨rest, stop⟩
  | [], tags, fuel, cs₀, _, htags => by
    obtain rfl : tags = [] := List.map_eq_nil_iff.mp htags
    exact ⟨[], rfl, by simp⟩
  | c :: cs, tags, fuel, cs₀, hcs, htags => by
    obtain ⟨τ, more, rfl, hτ, hmore⟩ := List.map_eq_cons_iff.mp htags
    simp only [Token.spelling, Prod.mk.injEq] at hτ
    obtain ⟨cs', hcs', hread⟩ := @continueFrom_tags rbp hrbp rest stop s v l k cs more fuel (cs₀ ++ [Node.leaf τ.symbol.text
      (Text.capitalize τ.value) τ.line τ.col]) (fun c' h' => hcs c' (List.mem_cons_of_mem _ h'))
      hmore
    refine ⟨Node.leaf τ.symbol.text (Text.capitalize τ.value) τ.line τ.col :: cs', ?_, ?_⟩
    · rw [List.map_cons, List.map_cons, hcs', hτ.2, hτ.1,
        (hcs c List.mem_cons_self).erase_leaf]
    · rw [show fuel + 1 + more.length = fuel + more.length + 1 by omega] at hread
      rw [List.cons_append, List.length_cons, show fuel + 1 + (more.length + 1) =
          fuel + more.length + 1 + 1 by omega, continueFrom_cons (by rw [hτ.1]; exact hrbp),
        bind_ok (infixOf_ident hτ.1 _), List.append_cons]
      exact hread

/-- A numeral reads with the tags after it, in any context looser than a tag. -/
theorem reads_tagged {rbp : Nat} (hrbp : rbp < Symbol.tagPower) {v : String} {cs : List Node}
    {tk : Token} {tags rest : List Token} {stop : Except Fault Token}
    (htk : tk.spelling = (.number, v)) (hcs : ∀ c ∈ cs, TagLeaf c)
    (htags : tags.map Token.spelling = Written.tagTokens (cs.map value)) (line col : Nat) :
    Reads rbp (mk Symbol.number.text v line col cs) (tk :: tags) rest stop := by
  intro fuel hfuel
  simp only [List.length_cons] at hfuel
  obtain ⟨g, rfl⟩ : ∃ g, fuel = g + 1 + tags.length := ⟨fuel - 1 - tags.length, by omega⟩
  simp only [Token.spelling, Prod.mk.injEq] at htk
  obtain ⟨cs', hcs', hread⟩ := @continueFrom_tags rbp hrbp rest stop tk.symbol.text tk.value
    tk.line tk.col cs tags g [] hcs htags
  refine ⟨mk tk.symbol.text tk.value tk.line tk.col ([] ++ cs'), tags.length, ?_, by simp, ?_⟩
  · simp [erase, htk.1, htk.2, hcs']
  · rw [List.cons_append, show g + 1 + tags.length = g + tags.length + 1 by omega, expression_cons,
      bind_ok (prefixOf_number htk.1 _), show g + tags.length + 1 - tags.length = g + 1 by omega,
      show g + tags.length + 1 = g + 1 + tags.length by omega]
    exact hread

/-- After drops, the next token binds no tighter than a drop: it is the next
drop, or what follows the drops. -/
theorem nextBinds_drops {ds : List Node} {w : List Char} {ts : List (Symbol × String)}
    {g : List String} (h : Drops true ds w ts g) {toks rest : List Token} {stop : Except Fault Token}
    (htoks : toks.map Token.spelling = ts) (hnext : NextBinds ⟨rest, stop⟩ Symbol.dice.bindingPower) :
    NextBinds ⟨toks ++ rest, stop⟩ Symbol.dice.bindingPower := by
  cases h with
  | nil =>
    obtain rfl := List.map_eq_nil_iff.mp htoks
    exact hnext
  | cons ho =>
    obtain ⟨t, more, rfl, ht, -⟩ := List.map_eq_cons_iff.mp htoks
    simp only [Token.spelling, Prod.mk.injEq] at ht
    refine nextBinds_cons ?_
    rw [ht.1]
    rcases ho with rfl | rfl <;> exact Nat.le_refl _

/-- Drops after a throw are pushed onto it one by one, a step each; each
count reads with its tags in the context of a drop. -/
theorem continueFrom_drops {rbp : Nat} (hrbp : rbp < Symbol.dice.bindingPower) {rest : List Token}
    {stop : Except Fault Token} (hnext : NextBinds ⟨rest, stop⟩ Symbol.dice.bindingPower)
    {s v : String} {l k : Nat} {ds : List Node} {w : List Char} {ts : List (Symbol × String)}
    {g : List String} (h : Drops true ds w ts g) :
    ∀ {toks : List Token} (fuel : Nat) (cs₀ : List Node), toks.map Token.spelling = ts →
      3 * toks.length ≤ fuel → ∃ ds', ds'.map erase = ds.map erase ∧
        continueFrom (fuel + 1) rbp (mk s v l k cs₀) ⟨toks ++ rest, stop⟩ =
          continueFrom (fuel + 1 - ds.length) rbp (mk s v l k (cs₀ ++ ds')) ⟨rest, stop⟩ := by
  induction h with
  | nil =>
    intro toks fuel cs₀ htoks _
    obtain rfl := List.map_eq_nil_iff.mp htoks
    exact ⟨[], rfl, by simp⟩
  | @cons o v' cs ds w ts g l' k' l'' k'' ho hv hcs hlast hd ih =>
    intro toks fuel cs₀ htoks hfuel
    obtain ⟨top, more, rfl, htop, hmore⟩ := List.map_eq_cons_iff.mp htoks
    obtain ⟨tnum, more, rfl, hnum, hmore⟩ := List.map_eq_cons_iff.mp hmore
    obtain ⟨tags, after, rfl, htags, hafter⟩ := List.map_eq_append_iff.mp hmore
    simp only [Token.spelling, Prod.mk.injEq] at htop
    simp only [List.length_cons, List.length_append] at hfuel
    obtain ⟨f, rfl⟩ : ∃ f, fuel = f + 2 := ⟨fuel - 2, by omega⟩
    have hop : top.symbol.bindingPower = Symbol.dice.bindingPower := by
      rw [htop.1]
      rcases ho with rfl | rfl <;> rfl
    have hreads : Reads top.symbol.bindingPower (mk Symbol.number.text v' l'' k'' cs) (tnum :: tags)
        (after ++ rest) stop :=
      reads_tagged (by rw [hop]; decide) hnum hcs htags l'' k''
    obtain ⟨count, hcount, hread⟩ := hreads.finish (List.cons_ne_nil _ _)
      (hop ▸ nextBinds_drops hd hafter hnext) f (by simp; omega)
    obtain ⟨ds', hds', hrest⟩ := ih (f + 1) (cs₀ ++ [nodeOf top [count]]) hafter (by omega)
    refine ⟨nodeOf top [count] :: ds', ?_, ?_⟩
    · simp [nodeOf, erase, htop.1, htop.2, ← hcount, hds']
    · simp only [List.cons_append, List.append_assoc] at hread ⊢
      rw [continueFrom_cons (by rw [hop]; exact hrbp), bind_ok (infixOf_drop (by rw [htop.1]; exact ho)
          rfl (congrArg Prod.fst hnum) hread),
        List.length_cons, show f + 2 + 1 - (ds.length + 1) = f + 1 + 1 - ds.length by omega,
        List.append_cons]
      exact hrest

/-- A unit that reads before drops reads with them pushed onto it. -/
theorem Reads.drops {rbp : Nat} (hrbp : rbp < Symbol.dice.bindingPower) {s v : String} {l k : Nat}
    {cs ds : List Node} {w : List Char} {ts : List (Symbol × String)} {g : List String}
    {pre toks rest : List Token} {stop : Except Fault Token}
    (hA : Reads rbp (mk s v l k cs) pre (toks ++ rest) stop) (hne : pre ≠ [])
    (hd : Drops true ds w ts g) (htoks : toks.map Token.spelling = ts)
    (hnext : NextBinds ⟨rest, stop⟩ Symbol.dice.bindingPower) :
    Reads rbp (mk s v l k (cs ++ ds)) (pre ++ toks) rest stop := by
  intro fuel hfuel
  simp only [List.length_append] at hfuel
  obtain ⟨⟨s₁, v₁, l₁, c₁, cs₁⟩, k₁, he, hk, hread⟩ := hA fuel (by omega)
  simp only [erase, Node.mk.injEq, true_and] at he
  obtain ⟨rfl, rfl, hcs⟩ := he
  have hlen := List.length_pos_iff.mpr hne
  obtain ⟨F, hF⟩ : ∃ F, fuel - k₁ = F + 1 := ⟨fuel - k₁ - 1, by omega⟩
  obtain ⟨ds', hds', hrest⟩ := continueFrom_drops hrbp hnext hd F cs₁ htoks (by omega)
  have hdl := hd.length_le
  rw [← htoks, List.length_map] at hdl
  refine ⟨mk s₁ v₁ l₁ c₁ (cs₁ ++ ds'), k₁ + ds.length, ?_, by simp; omega, ?_⟩
  · simp [erase, hcs, hds']
  · rw [List.append_assoc, hread, hF, hrest, show F + 1 - ds.length = fuel - (k₁ + ds.length) by omega]

/-! ## Steps of the reader on statements -/

/-- The next token ends a run of statements: the end of the input or a closing brace. -/
def NextEnds (c : Cursor) : Prop :=
  ∃ p, c.peek = .ok p ∧ (p.symbol = .eof ∨ p.symbol = .closeBrace)

theorem NextEnds.nextBinds {c : Cursor} (h : NextEnds c) : NextBinds c 0 := by
  obtain ⟨p, hp, he | he⟩ := h <;> exact ⟨p, hp, by rw [he]; exact Nat.le_refl 0⟩

theorem statement_roll {fuel : Nat} {r : Token} (hr : r.symbol = .rollWord) {ts : List Token}
    {stop : Except Fault Token} {s : Node} {c : Cursor} (hs : statement fuel ⟨ts, stop⟩ = .ok (s, c)) :
    statement (fuel + 1) ⟨r :: ts, stop⟩ = .ok (nodeOf r [s], c) := by
  rw [statement.eq_def]
  dsimp only
  rw [bind_ok (peek_eq rfl), hr]
  dsimp only
  rw [bind_ok (rfl : next ⟨r :: ts, stop⟩ = .ok (r, ⟨ts, stop⟩)), bind_ok hs]
  rfl

theorem statement_brace {fuel : Nat} {o : Token} (ho : o.symbol = .openBrace) (ts : List Token)
    (stop : Except Fault Token) : statement (fuel + 1) ⟨o :: ts, stop⟩ = blockFrom fuel o ⟨ts, stop⟩ := by
  rw [statement.eq_def]
  dsimp only
  rw [bind_ok (peek_eq rfl), ho]
  dsimp only
  rw [bind_ok (rfl : next ⟨o :: ts, stop⟩ = .ok (o, ⟨ts, stop⟩))]

theorem statement_if {fuel : Nat} {i : Token} (hi : i.symbol = .ifWord) (ts : List Token)
    (stop : Except Fault Token) : statement (fuel + 1) ⟨i :: ts, stop⟩ = conditional fuel i ⟨ts, stop⟩ := by
  rw [statement.eq_def]
  dsimp only
  rw [bind_ok (peek_eq rfl), hi]
  dsimp only
  rw [bind_ok (rfl : next ⟨i :: ts, stop⟩ = .ok (i, ⟨ts, stop⟩))]

theorem block_brace {fuel : Nat} {o : Token} (ho : o.symbol = .openBrace) (ts : List Token)
    (stop : Except Fault Token) : block (fuel + 1) ⟨o :: ts, stop⟩ = blockFrom fuel o ⟨ts, stop⟩ := by
  rw [block, bind_ok (rfl : next ⟨o :: ts, stop⟩ = .ok (o, ⟨ts, stop⟩)), if_pos ho]

theorem blockFrom_close {fuel : Nat} {o cl : Token} {c : Cursor} {body : List Node}
    {rest : List Token} {stop : Except Fault Token} (hcl : cl.symbol = .closeBrace)
    (hbody : statements fuel [] c = .ok (body, ⟨cl :: rest, stop⟩)) :
    blockFrom (fuel + 1) o c = .ok (nodeOf o body, ⟨rest, stop⟩) := by
  rw [blockFrom, bind_ok hbody, bind_ok (advance_cons hcl rest stop)]
  rfl

theorem statements_stop {fuel : Nat} {acc : List Node} {c : Cursor} (h : NextEnds c) :
    statements (fuel + 1) acc c = .ok (acc, c) := by
  obtain ⟨p, hp, hend⟩ := h
  rw [statements.eq_def]
  dsimp only
  rw [bind_ok (peek_eq hp), if_pos hend]
  rfl

theorem conditional_bare {fuel : Nat} {i : Token} {c c₁ c₂ : Cursor} {cond body : Node} {p : Token}
    (hc : expression fuel 0 c = .ok (cond, c₁)) (hb : block fuel c₁ = .ok (body, c₂))
    (hp : c₂.peek = .ok p) (hne : p.symbol ≠ .elseWord) :
    conditional (fuel + 1) i c = .ok (nodeOf i [cond, body], c₂) := by
  rw [conditional, bind_ok hc, bind_ok hb, bind_ok (peek_eq hp), if_neg hne]
  rfl

theorem conditional_else {fuel : Nat} {i e q : Token} {c c₁ c' : Cursor} {cond body other : Node}
    {ts : List Token} {stop : Except Fault Token}
    (hc : expression fuel 0 c = .ok (cond, c₁)) (hb : block fuel c₁ = .ok (body, ⟨e :: ts, stop⟩))
    (he : e.symbol = .elseWord) (hq : Cursor.peek ⟨ts, stop⟩ = .ok q)
    (ho : (if q.symbol = .ifWord then statement fuel else block fuel) ⟨ts, stop⟩ = .ok (other, c')) :
    conditional (fuel + 1) i c = .ok (nodeOf i [cond, body, other], c') := by
  rw [conditional, bind_ok hc, bind_ok hb, bind_ok (peek_eq rfl), if_pos he,
    bind_ok (rfl : next ⟨e :: ts, stop⟩ = .ok (e, ⟨ts, stop⟩)), bind_ok (peek_eq hq)]
  by_cases hif : q.symbol = .ifWord
  · rw [if_pos hif] at ho ⊢
    rw [bind_ok ho]
    rfl
  · rw [if_neg hif] at ho ⊢
    rw [bind_ok ho]
    rfl

end Reader

/-! ## Reading an expression -/

namespace Node

open Reader

/-- The contexts an expression reads in: a negation in any, every other
expression in one looser than it binds. -/
def Written.Opens (x : Written) (rbp : Nat) : Prop :=
  x.power = Symbol.prefixPower ∨ rbp < x.power

theorem Written.closing_of_lt {x : Written} (h : Symbol.ifWord.bindingPower < x.power) :
    x.closing = x.power := by
  unfold Written.closing
  rw [if_neg (by omega)]

theorem opensUnit_head {ts : List Token} {toks : List (Symbol × String)}
    (hts : ts.map Token.spelling = toks) (h : OpensUnit toks) :
    ∀ p ∈ ts.head?, p.symbol ≠ .closeParen ∧ p.symbol ≠ .eof := by
  obtain ⟨y, ys, rfl, hy⟩ := h
  obtain ⟨q, qs, rfl, hq, -⟩ := List.map_eq_cons_iff.mp hts
  rintro p ⟨⟩
  rw [← hq] at hy
  rcases hy with hy | hy | hy <;> simp only [Token.spelling] at hy <;> simp [hy]

section Canonical

variable {t : Node} {x : Written}

theorem Canonical.power_pos {reads : Bool} (h : Canonical reads t x) : 0 < x.power := by
  cases h with
  | numeral => show 0 < Symbol.tagPower; decide
  | negate => show 0 < Symbol.prefixPower; decide
  | @binary s _ _ _ _ _ _ hs => exact Nat.lt_of_lt_of_le (by decide) (Symbol.bindingPower_of_spaced hs).1
  | throw => show 0 < Symbol.dice.bindingPower; decide
  | conditional => show 0 < Symbol.ifWord.bindingPower; decide
  | «repeat» => show 0 < Symbol.repWord.bindingPower; decide

/-- An operand read in a context: in parentheses where they are `needed`,
and otherwise opening there and stopping before a token binding with `power`. -/
theorem Canonical.reads_operand (h : Canonical true t x)
    (ih : ∀ {rbp ts rest stop}, x.Opens rbp → ts.map Token.spelling = x.tokens →
      NextBinds ⟨rest, stop⟩ x.closing → Reads rbp t ts rest stop)
    (needed : Prop) [Decidable needed] {power rbp : Nat} {ts rest : List Token}
    {stop : Except Fault Token} (hbare : ¬needed → x.Opens rbp ∧ power ≤ x.closing)
    (hts : ts.map Token.spelling = encloseTokens needed x.tokens)
    (hnext : NextBinds ⟨rest, stop⟩ power) : Reads rbp t ts rest stop := by
  by_cases hn : needed
  · rw [encloseTokens, if_pos hn, List.cons_append] at hts
    obtain ⟨o, more, rfl, ho, hmore⟩ := List.map_eq_cons_iff.1 hts
    obtain ⟨tsA, rest', rfl, hA, hclose'⟩ := List.map_eq_append_iff.1 hmore
    obtain ⟨close, rfl, hc⟩ := List.map_eq_singleton_iff.1 hclose'
    simp only [Token.spelling, Prod.mk.injEq] at ho hc
    exact reads_group ho.1 hc.1
      (ih (.inr h.power_pos) hA (nextBinds_cons (by rw [hc.1]; exact Nat.zero_le _)))
      (ne_nil_of_map_spelling hA h.opensUnit) (opensUnit_head hA h.opensUnit)
  · rw [encloseTokens, if_neg hn] at hts
    obtain ⟨hopen, hpower⟩ := hbare hn
    exact ih hopen hts (hnext.mono hpower)

/-- An operand left bare binds at least as tightly as `power`, above a conditional. -/
theorem bare_operand {x : Written} {power rbp : Nat} (hrbp : rbp < x.power) (h : power ≤ x.power)
    (hif : Symbol.ifWord.bindingPower < x.power) : x.Opens rbp ∧ power ≤ x.closing := by
  refine ⟨.inr hrbp, ?_⟩
  rw [Written.closing_of_lt hif]
  exact h

/-- Every expression the reader builds reads back from its tokens, in a
context it opens in and before a token it stops at. -/
theorem Canonical.reads (h : Canonical true t x) {rbp : Nat} {ts rest : List Token}
    {stop : Except Fault Token} (hopen : x.Opens rbp) (hts : ts.map Token.spelling = x.tokens)
    (hclose : NextBinds ⟨rest, stop⟩ x.closing) : Reads rbp t ts rest stop := by
  induction h generalizing rbp ts rest stop with
  | @numeral v cs l k hv hcs =>
    obtain ⟨tk, tags, rfl, htk, htags⟩ := List.map_eq_cons_iff.1 hts
    exact reads_tagged (hopen.resolve_left (by show Symbol.tagPower ≠ Symbol.prefixPower; decide))
      htk hcs htags l k
  | @negate a x l k ha hx iha =>
    obtain ⟨tm, tsA, rfl, hm, hA⟩ := List.map_eq_cons_iff.1 hts
    have hnext : NextBinds ⟨rest, stop⟩ Symbol.prefixPower := hclose
    refine reads_negation hm (ha.reads_operand iha (x.power < Symbol.prefixPower) (fun hn => ?_) hA
      hnext) (ne_nil_of_map_spelling hA (opensUnit_enclose _ ha.opensUnit)) hnext l k
    have hp : Symbol.prefixPower ≤ x.power := Nat.le_of_not_lt hn
    refine ⟨(Nat.eq_or_lt_of_le hp).imp Eq.symm id, ?_⟩
    rw [Written.closing_of_lt (Nat.lt_of_lt_of_le (by decide) hp)]
    exact hp
  | @binary s a b x y l k hs ha hb hx hy iha ihb =>
    have hpower := Symbol.bindingPower_of_spaced hs
    have hif : Symbol.ifWord.bindingPower < s.bindingPower := by
      rw [ifWord_bindingPower]
      omega
    have hrbp : rbp < s.bindingPower :=
      hopen.resolve_left fun he => by simp [Symbol.prefixPower] at he; omega
    simp only [Written.closing] at hclose
    rw [if_neg (by omega)] at hclose
    obtain ⟨tsA, op, tsB, rfl, hA, hop, hB⟩ := map_spelling_eq_append_cons hts
    have hsym : op.symbol = s := congrArg Prod.fst hop
    refine reads_infix hop (.inl hs) hrbp
      (ha.reads_operand iha (x.power < s.bindingPower) (fun hn => bare_operand
        (Nat.lt_of_lt_of_le hrbp (Nat.le_of_not_lt hn)) (Nat.le_of_not_lt hn)
        (Nat.lt_of_lt_of_le hif (Nat.le_of_not_lt hn))) hA
        (nextBinds_cons (Nat.le_of_eq (congrArg Symbol.bindingPower hsym))))
      (hb.reads_operand ihb (y.power ≤ s.bindingPower) (fun hn => bare_operand
        (Nat.lt_of_not_le hn) (Nat.le_of_lt (Nat.lt_of_not_le hn))
        (Nat.lt_trans hif (Nat.lt_of_not_le hn))) hB hclose)
      (ne_nil_of_map_spelling hB (opensUnit_enclose _ hb.opensUnit)) hclose l k
  | @throw a b ds x y w tsD g l k ha hb hd hx hy iha ihb =>
    have hrbp : rbp < Symbol.dice.bindingPower :=
      hopen.resolve_left (by show Symbol.dice.bindingPower ≠ Symbol.prefixPower; decide)
    have hnext : NextBinds ⟨rest, stop⟩ Symbol.dice.bindingPower := hclose
    have hif : Symbol.ifWord.bindingPower < Symbol.dice.bindingPower := by decide
    obtain ⟨tsA, dt, more, rfl, hA, hdt, hmore⟩ := map_spelling_eq_append_cons hts
    obtain ⟨tsB, toks, rfl, hB, htoks⟩ := List.map_eq_append_iff.mp hmore
    have hsym : dt.symbol = .dice := congrArg Prod.fst hdt
    -- the sides stop at the first drop, which the throw then takes
    have hdrops := nextBinds_drops hd htoks hnext
    have hpair : Reads rbp (mk Symbol.dice.text Symbol.dice.text l k [a, b]) (tsA ++ dt :: tsB)
        (toks ++ rest) stop :=
      reads_infix hdt (.inr rfl) hrbp
        (ha.reads_operand iha (x.power < Symbol.dice.bindingPower) (fun hn => bare_operand
          (Nat.lt_of_lt_of_le hrbp (Nat.le_of_not_lt hn)) (Nat.le_of_not_lt hn)
          (Nat.lt_of_lt_of_le hif (Nat.le_of_not_lt hn))) hA
          (nextBinds_cons (Nat.le_of_eq (congrArg Symbol.bindingPower hsym))))
        (hb.reads_operand ihb (y.power ≤ Symbol.dice.bindingPower) (fun hn => bare_operand
          (Nat.lt_of_not_le hn) (Nat.le_of_lt (Nat.lt_of_not_le hn))
          (Nat.lt_trans hif (Nat.lt_of_not_le hn))) hB hdrops)
        (ne_nil_of_map_spelling hB (opensUnit_enclose _ hb.opensUnit)) hdrops l k
    simpa [List.append_assoc] using hpair.drops hrbp (by simp) hd htoks hnext
  | @conditional c a b z x y l k hc ha hb hx ihc iha ihb =>
    have hrbp : rbp < Symbol.ifWord.bindingPower :=
      hopen.resolve_left (by show Symbol.ifWord.bindingPower ≠ Symbol.prefixPower; decide)
    have hnext : NextBinds ⟨rest, stop⟩ 0 := hclose
    obtain ⟨tsA, ti, more, rfl, hA, hi, hmore⟩ := map_spelling_eq_append_cons hts
    obtain ⟨tsC, te, tsB, rfl, hC, he, hB⟩ := map_spelling_eq_append_cons hmore
    have hiSym : ti.symbol = .ifWord := congrArg Prod.fst hi
    have heSym : te.symbol = .elseWord := congrArg Prod.fst he
    exact reads_conditional hi heSym hrbp
      (ha.reads_operand iha (x.power ≤ Symbol.ifWord.bindingPower) (fun hn => bare_operand
        (Nat.lt_trans hrbp (Nat.lt_of_not_le hn)) (Nat.le_of_lt (Nat.lt_of_not_le hn))
        (Nat.lt_of_not_le hn)) hA
        (nextBinds_cons (Nat.le_of_eq (congrArg Symbol.bindingPower hiSym))))
      (ihc (.inr hc.power_pos) hC (nextBinds_cons (by rw [heSym]; exact Nat.zero_le _)))
      (ihb (.inr hb.power_pos) hB (hnext.mono (Nat.zero_le _)))
      (ne_nil_of_map_spelling hC hc.opensUnit) (ne_nil_of_map_spelling hB hb.opensUnit) hnext l k
  | «repeat» hr => exact absurd hr (by decide)

theorem Canonical.sym_ne_end {reads : Bool} (h : Canonical reads t x) :
    t.sym ≠ Symbol.eof.text ∧ t.sym ≠ Symbol.newline.text := by
  cases h with
  | @binary s a b x y l k hs =>
    simp only [sym_mk, ne_eq, Symbol.text_inj]
    constructor <;> rintro rfl <;> simp [Symbol.spacedOperators] at hs
  | _ => simp [Symbol.text]

end Canonical

/-! ## Reading statements -/

theorem opensUnit_first {ts : List Token} {toks : List (Symbol × String)}
    (hts : ts.map Token.spelling = toks) (h : OpensUnit toks) :
    ∃ tk tks, ts = tk :: tks ∧
      (tk.symbol = .number ∨ tk.symbol = .minus ∨ tk.symbol = .openParen) := by
  obtain ⟨y, ys, rfl, hy⟩ := h
  obtain ⟨tk, tks, rfl, htk, -⟩ := List.map_eq_cons_iff.mp hts
  rw [← htk] at hy
  exact ⟨tk, tks, rfl, hy⟩

section Statements

variable {reads : Bool} {t : Node} {x : Written}

theorem Block.head_tokens (h : Block reads t x) :
    ∃ more, x.tokens = (.openBrace, Symbol.openBrace.text) :: more := by
  cases h <;> exact ⟨_, rfl⟩

theorem Branch.head_tokens (h : Branch reads t x) :
    ∃ more, x.tokens = (.ifWord, Symbol.ifWord.text) :: more := by
  cases h <;> exact ⟨_, rfl⟩

theorem Statement.sym_ne_end {sep cont : Bool} (h : Statement reads t x sep cont) :
    t.sym ≠ Symbol.eof.text ∧ t.sym ≠ Symbol.newline.text := by
  cases h with
  | expr h => exact h.sym_ne_end
  | roll => simp [Symbol.text]
  | block h => rw [h.sym_eq]; simp [Symbol.text]
  | branch h => rw [h.sym_eq]; simp [Symbol.text]

/-- A statement starts with a token that ends no run of statements; one that
may follow a comma starts with a token binding with nothing. -/
theorem Statement.head {sep cont : Bool} (h : Statement reads t x sep cont) :
    ∃ p more, x.tokens = p :: more ∧ p.1 ≠ .eof ∧ p.1 ≠ .closeBrace ∧
      (cont = true → p.1.bindingPower = 0) := by
  cases h with
  | expr h =>
    obtain ⟨p, more, hp, hu⟩ := h.opensUnit
    refine ⟨p, more, hp, ?_, ?_, fun hc => ?_⟩
    · rcases hu with hu | hu | hu <;> rw [hu] <;> decide
    · rcases hu with hu | hu | hu <;> rw [hu] <;> decide
    · simp only [hp, List.head?_cons, Option.map_some, Option.some.injEq, decide_eq_true_eq] at hc
      rw [hc]
      rfl
  | roll => exact ⟨_, _, rfl, by decide, by decide, fun _ => rfl⟩
  | block h => cases h <;> exact ⟨_, _, rfl, by decide, by decide, fun _ => rfl⟩
  | branch h => cases h <;> exact ⟨_, _, rfl, by decide, by decide, fun h => by cases h⟩

theorem Statements.head {cont : Bool} {ss : List Node} (h : Statements reads ss x cont) :
    ∃ p more, x.tokens = p :: more ∧ p.1 ≠ .eof ∧ p.1 ≠ .closeBrace ∧
      (cont = true → p.1.bindingPower = 0) := by
  cases h with
  | single h => exact h.head
  | cons h =>
    obtain ⟨p, more, hp, h₁, h₂, h₃⟩ := h.head
    exact ⟨p, _, by rw [hp, List.cons_append], h₁, h₂, h₃⟩

end Statements

/-- The read-back statement has the statement's symbol, so it is no break. -/
theorem sym_ne_end_of_erase {t t' : Node} (he : t'.erase = t.erase)
    (h : t.sym ≠ Symbol.eof.text ∧ t.sym ≠ Symbol.newline.text) :
    t'.sym ≠ Symbol.eof.text ∧ t'.sym ≠ Symbol.newline.text := by
  rwa [← sym_erase t', he, sym_erase]

mutual

/-- A statement reads back from its tokens, taking the comma after it if one
follows; at most four steps go to each token. -/
theorem Statement.reads {t : Node} {x : Written} {sep cont : Bool} :
    Statement true t x sep cont → ∀ (after : List Token) {ts rest : List Token}
      {stop : Except Fault Token}, ts.map Token.spelling = x.tokens →
      (after = [] ∧ NextEnds ⟨rest, stop⟩ ∨ sep = true ∧
        after.map Token.spelling = [(.comma, Symbol.comma.text)] ∧ NextBinds ⟨rest, stop⟩ 0) →
      ∀ fuel, 4 * (ts.length + after.length) + 2 ≤ fuel →
        ∃ t', t'.erase = t.erase ∧
          statement fuel ⟨ts ++ (after ++ rest), stop⟩ = .ok (t', ⟨rest, stop⟩)
  | @Statement.expr _ _ x h => by
    intro after ts rest stop hts hafter fuel hfuel
    obtain ⟨tk, tks, rfl, hfirst⟩ := opensUnit_first hts h.opensUnit
    simp only [List.length_cons] at hfuel
    obtain ⟨f, rfl⟩ : ∃ f, fuel = f + 1 + 1 := ⟨fuel - 2, by omega⟩
    -- the expression stops at the comma, or at the end; the comma is then taken at the top
    have hclose : NextBinds ⟨after ++ rest, stop⟩ x.closing := by
      rcases hafter with ⟨rfl, hend⟩ | ⟨hsep, hcomma, -⟩
      · exact hend.nextBinds.mono (Nat.zero_le _)
      · obtain ⟨cm, rfl, hcm⟩ := List.map_eq_singleton_iff.mp hcomma
        simp only [Token.spelling, Prod.mk.injEq] at hcm
        exact nextBinds_cons (by rw [hcm.1]; exact of_decide_eq_true hsep)
    obtain ⟨t', k, he, hk, hread⟩ := h.reads (.inr h.power_pos) hts hclose f
      (by simp only [List.length_cons]; omega)
    refine ⟨t', he, ?_⟩
    simp only [List.length_cons] at hk
    obtain ⟨j, hj⟩ : ∃ j, f - k = j + 1 + 1 := ⟨f - k - 2, by omega⟩
    rw [statement_expression rfl hfirst, hread, hj]
    rcases hafter with ⟨rfl, p, hp, hend⟩ | ⟨-, hcomma, p, hp, hpb⟩
    · exact continueFrom_stop hp (by rcases hend with h | h <;> rw [h] <;> exact Nat.le_refl 0)
    · obtain ⟨cm, rfl, hcm⟩ := List.map_eq_singleton_iff.mp hcomma
      simp only [Token.spelling, Prod.mk.injEq] at hcm
      rw [List.singleton_append, continueFrom_cons (by rw [hcm.1]; decide),
        bind_ok (infixOf_comma hcm.1 _)]
      exact continueFrom_stop hp hpb
  | .roll h => by
    intro after ts rest stop hts hafter fuel hfuel
    obtain ⟨r, ts', rfl, hr, hts'⟩ := List.map_eq_cons_iff.mp hts
    simp only [Token.spelling, Prod.mk.injEq] at hr
    simp only [List.length_cons] at hfuel
    obtain ⟨f, rfl⟩ : ∃ f, fuel = f + 1 := ⟨fuel - 1, by omega⟩
    obtain ⟨s', hs', hread⟩ := h.reads after hts' hafter f (by omega)
    refine ⟨nodeOf r [s'], by simp [nodeOf, erase, hr.1, hr.2, hs'], ?_⟩
    rw [List.cons_append]
    exact statement_roll hr.1 hread
  | .block h => by
    intro after ts rest stop hts hafter fuel hfuel
    obtain ⟨rfl, -⟩ := hafter.resolve_right fun h => Bool.false_ne_true h.1
    obtain ⟨more, hmore⟩ := h.head_tokens
    obtain ⟨o, ts', rfl, ho, -⟩ := List.map_eq_cons_iff.mp (hts.trans hmore)
    simp only [List.length_cons, List.length_nil] at hfuel
    obtain ⟨f, rfl⟩ : ∃ f, fuel = f + 1 := ⟨fuel - 1, by omega⟩
    obtain ⟨t', he, hread⟩ := h.reads o hts f (by omega)
    refine ⟨t', he, ?_⟩
    rw [List.nil_append, List.cons_append, statement_brace (congrArg Prod.fst ho)]
    exact hread
  | .branch h => by
    intro after ts rest stop hts hafter fuel hfuel
    obtain ⟨rfl, hend⟩ := hafter.resolve_right fun h => Bool.false_ne_true h.1
    obtain ⟨more, hmore⟩ := h.head_tokens
    obtain ⟨i, ts', rfl, hi, -⟩ := List.map_eq_cons_iff.mp (hts.trans hmore)
    simp only [List.length_cons, List.length_nil] at hfuel
    obtain ⟨f, rfl⟩ : ∃ f, fuel = f + 1 := ⟨fuel - 1, by omega⟩
    obtain ⟨t', he, hread⟩ := h.reads i hts hend f (by omega)
    refine ⟨t', he, ?_⟩
    rw [List.nil_append, List.cons_append, statement_if (congrArg Prod.fst hi)]
    exact hread

/-- A block reads back after its opening brace, up to and with its closing one. -/
theorem Block.reads {t : Node} {x : Written} :
    Block true t x → ∀ (o : Token) {ts rest : List Token} {stop : Except Fault Token},
      (o :: ts).map Token.spelling = x.tokens → ∀ fuel, 4 * ts.length ≤ fuel →
        ∃ t', t'.erase = t.erase ∧ blockFrom fuel o ⟨ts ++ rest, stop⟩ = .ok (t', ⟨rest, stop⟩)
  | .empty => by
    intro o ts rest stop hts fuel hfuel
    rw [List.map_cons, List.cons.injEq] at hts
    obtain ⟨ho, hts⟩ := hts
    obtain ⟨cl, rfl, hcl⟩ := List.map_eq_singleton_iff.mp hts
    simp only [Token.spelling, Prod.mk.injEq] at ho hcl
    obtain ⟨f, rfl⟩ : ∃ f, fuel = f + 1 + 1 := ⟨fuel - 2, by simp at hfuel; omega⟩
    refine ⟨nodeOf o [], by simp [nodeOf, erase, ho.1, ho.2], ?_⟩
    exact blockFrom_close hcl.1 (statements_stop ⟨cl, rfl, .inr hcl.1⟩)
  | .full h => by
    intro o ts rest stop hts fuel hfuel
    rw [List.map_cons, List.cons.injEq] at hts
    obtain ⟨ho, hts⟩ := hts
    obtain ⟨inner, cls, rfl, hin, hcls⟩ := List.map_eq_append_iff.mp hts
    obtain ⟨cl, rfl, hcl⟩ := List.map_eq_singleton_iff.mp hcls
    simp only [Token.spelling, Prod.mk.injEq] at ho hcl
    simp only [List.length_append, List.length_cons, List.length_nil] at hfuel
    obtain ⟨f, rfl⟩ : ∃ f, fuel = f + 1 := ⟨fuel - 1, by omega⟩
    obtain ⟨ss', hss', hread⟩ := h.reads [] hin
      (show NextEnds ⟨cl :: rest, stop⟩ from ⟨cl, rfl, .inr hcl.1⟩) f (by omega)
    refine ⟨nodeOf o ss', by simp [nodeOf, erase, ho.1, ho.2, hss'], ?_⟩
    rw [List.append_assoc, List.singleton_append]
    exact blockFrom_close hcl.1 (by simpa using hread)

/-- An `if` statement reads back after its `if`. -/
theorem Branch.reads {t : Node} {x : Written} :
    Branch true t x → ∀ (i : Token) {ts rest : List Token} {stop : Except Fault Token},
      (i :: ts).map Token.spelling = x.tokens → NextEnds ⟨rest, stop⟩ →
      ∀ fuel, 4 * ts.length + 2 ≤ fuel →
        ∃ t', t'.erase = t.erase ∧ conditional fuel i ⟨ts ++ rest, stop⟩ = .ok (t', ⟨rest, stop⟩)
  | .bare hc hb => by
    intro i ts rest stop hts hend fuel hfuel
    rw [List.map_cons, List.cons.injEq] at hts
    obtain ⟨hi, hts⟩ := hts
    obtain ⟨tsC, tsB, rfl, hC, hB⟩ := List.map_eq_append_iff.mp hts
    obtain ⟨o, tsB', rfl, ho, -⟩ := List.map_eq_cons_iff.mp (hB.trans hb.head_tokens.choose_spec)
    simp only [Token.spelling, Prod.mk.injEq] at hi ho
    simp only [List.length_append, List.length_cons] at hfuel
    obtain ⟨f, rfl⟩ : ∃ f, fuel = f + 1 + 1 := ⟨fuel - 2, by omega⟩
    have hbrace : NextBinds ⟨o :: (tsB' ++ rest), stop⟩ 0 :=
      nextBinds_cons (Nat.le_of_eq (by rw [ho.1]; rfl))
    obtain ⟨c', hc', hreadC⟩ := (hc.reads (.inr hc.power_pos) hC (hbrace.mono (Nat.zero_le _))).finish
      (ne_nil_of_map_spelling hC hc.opensUnit) hbrace f (by omega)
    obtain ⟨b', hb', hreadB⟩ := hb.reads o hB f (by omega)
    obtain ⟨p, hp, hpe⟩ := hend
    refine ⟨nodeOf i [c', b'], by simp [nodeOf, erase, hi.1, hi.2, hc', hb'], ?_⟩
    rw [List.append_assoc, List.cons_append]
    exact conditional_bare hreadC (by rw [block_brace ho.1]; exact hreadB) hp
      (by rcases hpe with h | h <;> rw [h] <;> decide)
  | .withElse hc hb ho => by
    intro i ts rest stop hts hend fuel hfuel
    rw [List.map_cons, List.cons.injEq] at hts
    obtain ⟨hi, hts⟩ := hts
    obtain ⟨tsC, more, rfl, hC, hmore⟩ := List.map_eq_append_iff.mp hts
    obtain ⟨tsB, e, tsO, rfl, hB, he, hO⟩ := map_spelling_eq_append_cons hmore
    obtain ⟨o, tsB', rfl, ho₁, -⟩ := List.map_eq_cons_iff.mp (hB.trans hb.head_tokens.choose_spec)
    obtain ⟨o', tsO', rfl, ho₂, -⟩ := List.map_eq_cons_iff.mp (hO.trans ho.head_tokens.choose_spec)
    simp only [Token.spelling, Prod.mk.injEq] at hi ho₁ ho₂ he
    simp only [List.length_append, List.length_cons] at hfuel
    obtain ⟨f, rfl⟩ : ∃ f, fuel = f + 1 + 1 := ⟨fuel - 2, by omega⟩
    have hbrace : NextBinds ⟨o :: (tsB' ++ e :: o' :: (tsO' ++ rest)), stop⟩ 0 :=
      nextBinds_cons (Nat.le_of_eq (by rw [ho₁.1]; rfl))
    obtain ⟨c', hc', hreadC⟩ := (hc.reads (.inr hc.power_pos) hC (hbrace.mono (Nat.zero_le _))).finish
      (ne_nil_of_map_spelling hC hc.opensUnit) hbrace f (by omega)
    obtain ⟨b', hb', hreadB⟩ := hb.reads o hB f (by omega)
    obtain ⟨y', hy', hreadO⟩ := ho.reads o' hO f (by omega)
    refine ⟨nodeOf i [c', b', y'], by simp [nodeOf, erase, hi.1, hi.2, hc', hb', hy'], ?_⟩
    simp only [List.append_assoc, List.cons_append]
    refine conditional_else hreadC (by rw [block_brace ho₁.1]; exact hreadB) he.1 rfl ?_
    rw [if_neg (by rw [ho₂.1]; decide), block_brace ho₂.1]
    exact hreadO
  | .elseIf hc hb ho => by
    intro i ts rest stop hts hend fuel hfuel
    rw [List.map_cons, List.cons.injEq] at hts
    obtain ⟨hi, hts⟩ := hts
    obtain ⟨tsC, more, rfl, hC, hmore⟩ := List.map_eq_append_iff.mp hts
    obtain ⟨tsB, e, tsO, rfl, hB, he, hO⟩ := map_spelling_eq_append_cons hmore
    obtain ⟨o, tsB', rfl, ho₁, -⟩ := List.map_eq_cons_iff.mp (hB.trans hb.head_tokens.choose_spec)
    obtain ⟨i', tsO', rfl, hi', -⟩ := List.map_eq_cons_iff.mp (hO.trans ho.head_tokens.choose_spec)
    simp only [Token.spelling, Prod.mk.injEq] at hi ho₁ hi' he
    simp only [List.length_append, List.length_cons] at hfuel
    obtain ⟨f, rfl⟩ : ∃ f, fuel = f + 1 + 1 := ⟨fuel - 2, by omega⟩
    have hbrace : NextBinds ⟨o :: (tsB' ++ e :: i' :: (tsO' ++ rest)), stop⟩ 0 :=
      nextBinds_cons (Nat.le_of_eq (by rw [ho₁.1]; rfl))
    obtain ⟨c', hc', hreadC⟩ := (hc.reads (.inr hc.power_pos) hC (hbrace.mono (Nat.zero_le _))).finish
      (ne_nil_of_map_spelling hC hc.opensUnit) hbrace f (by omega)
    obtain ⟨b', hb', hreadB⟩ := hb.reads o hB f (by omega)
    obtain ⟨y', hy', hreadO⟩ := ho.reads i' hO hend f (by omega)
    refine ⟨nodeOf i [c', b', y'], by simp [nodeOf, erase, hi.1, hi.2, hc', hb', hy'], ?_⟩
    simp only [List.append_assoc, List.cons_append]
    refine conditional_else hreadC (by rw [block_brace ho₁.1]; exact hreadB) he.1 rfl ?_
    rw [if_pos hi'.1, statement_if hi'.1]
    exact hreadO

/-- Statements joined by commas read back up to the end of the input or a
closing brace, each after the ones before. -/
theorem Statements.reads {ss : List Node} {x : Written} {cont : Bool} :
    Statements true ss x cont → ∀ (acc : List Node) {ts rest : List Token}
      {stop : Except Fault Token}, ts.map Token.spelling = x.tokens → NextEnds ⟨rest, stop⟩ →
      ∀ fuel, 4 * ts.length + 3 ≤ fuel → ∃ ss', ss'.map erase = ss.map erase ∧
        statements fuel acc ⟨ts ++ rest, stop⟩ = .ok (acc ++ ss', ⟨rest, stop⟩)
  | .single h => by
    intro acc ts rest stop hts hend fuel hfuel
    obtain ⟨p, more, hp, hpe, hpc, -⟩ := h.head
    obtain ⟨tk, tks, rfl, htk, -⟩ := List.map_eq_cons_iff.mp (hts.trans hp)
    have hsym : tk.symbol = p.1 := congrArg Prod.fst htk
    obtain ⟨f, rfl⟩ : ∃ f, fuel = f + 1 + 1 := ⟨fuel - 2, by simp at hfuel; omega⟩
    obtain ⟨s', hs', hread⟩ := h.reads [] hts (.inl ⟨rfl, hend⟩) (f + 1) (by simp at hfuel ⊢; omega)
    rw [List.nil_append] at hread
    refine ⟨[s'], by simp [hs'], ?_⟩
    rw [statements_more rfl (hsym ▸ ⟨hpe, hpc⟩) hread (sym_ne_end_of_erase hs' h.sym_ne_end),
      statements_stop hend]
  | .cons h hs hsep hcont => by
    intro acc ts rest stop hts hend fuel hfuel
    obtain ⟨ts₁, cm, ts₂, rfl, h₁, hcm, h₂⟩ := map_spelling_eq_append_cons hts
    obtain ⟨p, more, hp, hpe, hpc, -⟩ := h.head
    obtain ⟨tk, tks, rfl, htk, -⟩ := List.map_eq_cons_iff.mp (h₁.trans hp)
    have hnext : NextBinds ⟨ts₂ ++ rest, stop⟩ 0 := by
      obtain ⟨q, more', hq, -, -, hbp⟩ := hs.head
      obtain ⟨tk', tks', rfl, htk', -⟩ := List.map_eq_cons_iff.mp (h₂.trans hq)
      have hsym' : tk'.symbol = q.1 := congrArg Prod.fst htk'
      exact nextBinds_cons (Nat.le_of_eq (by rw [hsym', hbp (hcont rfl)]))
    simp only [List.length_append, List.length_cons] at hfuel
    obtain ⟨f, rfl⟩ : ∃ f, fuel = f + 1 := ⟨fuel - 1, by omega⟩
    obtain ⟨s', hs', hread⟩ := h.reads [cm] h₁ (.inr ⟨hsep rfl, by simp [hcm], hnext⟩) f
      (by simp; omega)
    obtain ⟨ss', hss', hrest⟩ := hs.reads (acc ++ [s']) h₂ hend f (by omega)
    refine ⟨s' :: ss', by simp [hs', hss'], ?_⟩
    have hsym : tk.symbol = p.1 := congrArg Prod.fst htk
    simp only [List.cons_append, List.append_assoc, List.nil_append] at hread ⊢
    rw [statements_more rfl (hsym ▸ ⟨hpe, hpc⟩) hread (sym_ne_end_of_erase hs' h.sym_ne_end), hrest]
    simp

end

/-! ## Reading a whole command -/

end Node

end DiceNotation
