import DiceNotation.Proofs.Canonical.Render
import DiceNotation.Proofs.Formula.Read
/-!
# Scanning the written form

Written with no mark after its throws, a command scans to the tokens its
relation records.  A colour tag is a name: a word that is no keyword, no
number word and no throw letter before a digit.  A drop is the operator `-H`
or `-L` before its numeral.  `Roll`, `if` and `else` are keywords, and the
braces and the commas are single tokens.

What may follow a text depends on its last token (`StopsAfter`): nothing that
extends its last numeral, and after a name nothing that extends the word.  So
a throw's count may stand right before its `d` unless the count ends with a
name.
-/

namespace DiceNotation

namespace Token

open Text Node

/-- What may follow a text whose tokens are `toks`: nothing that extends its
last numeral, nor, after a name, its last word. -/
def StopsAfter (toks : List (Symbol × String)) (rest : List Char) : Prop :=
  StopsNumeral rest ∧ ∀ p ∈ toks.getLast?, p.1 = .ident → ∀ c ∈ rest.head?, isWordChar c = false

/-- What may follow a statement: nothing that extends a numeral or a word. -/
def StopsWord (rest : List Char) : Prop :=
  ∀ c ∈ rest.head?, isDecimal c = false ∧ c ≠ '.' ∧ isWordChar c = false

theorem stopsWord_cons {c : Char} (hc : isDecimal c = false ∧ c ≠ '.' ∧ isWordChar c = false)
    (rest : List Char) : StopsWord (c :: rest) := by
  intro x hx
  cases hx
  exact hc

theorem StopsWord.stopsAfter {rest : List Char} (h : StopsWord rest) (toks : List (Symbol × String)) :
    StopsAfter toks rest :=
  ⟨fun c hc => ⟨(h c hc).1, (h c hc).2.1⟩, fun _ _ _ c hc => (h c hc).2.2⟩

theorem getLast?_append_of_ne_nil {α : Type} (pre : List α) {l : List α} (h : l ≠ []) :
    (pre ++ l).getLast? = l.getLast? := by
  rw [List.getLast?_append, List.getLast?_eq_some_getLast h]
  rfl

theorem stopsAfter_append {pre toks : List (Symbol × String)} (h : toks ≠ []) (rest : List Char) :
    StopsAfter (pre ++ toks) rest ↔ StopsAfter toks rest := by
  rw [StopsAfter, StopsAfter, getLast?_append_of_ne_nil _ h]

theorem stopsAfter_of_not_ident {toks : List (Symbol × String)} {rest : List Char}
    (h : ∀ p ∈ toks.getLast?, p.1 ≠ .ident) (hr : StopsNumeral rest) : StopsAfter toks rest :=
  ⟨hr, fun p hp hid => absurd hid (h p hp)⟩

theorem stopsAfter_cons {p : Symbol × String} {toks : List (Symbol × String)} (h : toks ≠ [])
    (rest : List Char) : StopsAfter (p :: toks) rest ↔ StopsAfter toks rest :=
  @stopsAfter_append [p] toks h rest

/-! ## Characters of words -/

theorem wordStart_toNat {c : Char} (h : isWordStart c = true) :
    (65 ≤ c.toNat ∧ c.toNat ≤ 90) ∨ (97 ≤ c.toNat ∧ c.toNat ≤ 122) ∨ c.toNat = 95 := by
  have hc : ('A'.toNat ≤ c.toNat ∧ c.toNat ≤ 'Z'.toNat) ∨
      ('a'.toNat ≤ c.toNat ∧ c.toNat ≤ 'z'.toNat) ∨ c.toNat = '_'.toNat := by
    simp only [isWordStart, isLetter, decide_eq_true_eq] at h
    rcases h with (h | h) | h
    · exact .inr (.inl h)
    · exact .inl h
    · exact .inr (.inr (congrArg Char.toNat h))
  simpa using hc

theorem decimalZeros_bound : ∀ base ∈ decimalZeros, base = 48 ∨ 1632 ≤ base := by
  simp [decimalZeros]

theorem isDecimal_eq_false {c : Char} (h : c.toNat < 48 ∨ (58 ≤ c.toNat ∧ c.toNat < 1632)) :
    isDecimal c = false := by
  have hnone : decimalValue? c = none := List.findSome?_eq_none_iff.mpr fun base hb => by
    rcases decimalZeros_bound base hb with rfl | hb' <;> simp <;> omega
  simp [isDecimal, hnone]

theorem isDecimal_of_wordStart {c : Char} (h : isWordStart c = true) : isDecimal c = false :=
  isDecimal_eq_false (by rcases wordStart_toNat h with h | h | h <;> omega)

theorem isSkipped_of_wordStart {c : Char} (h : isWordStart c = true) : isSkipped c = false := by
  have hc := wordStart_toNat h
  simp only [isSkipped, decide_eq_false_iff_not]
  rintro (rfl | rfl | rfl | rfl | rfl | rfl | rfl) <;> simp at hc

theorem isWordChar_of_wordStart {c : Char} (h : isWordStart c = true) : isWordChar c = true := by
  simp only [isWordStart, decide_eq_true_eq] at h
  rcases h with h | h <;> simp [isWordChar, h]

/-! ## Names, drops and punctuation -/

/-- A colour tag followed by nothing that extends a word or starts a number is a name. -/
theorem lexeme_tag {τ : String} (h : TagWord τ) {rest : List Char}
    (hrest : ∀ x ∈ rest.head?, isDecimal x = false ∧ isWordChar x = false) (line col : Nat) :
    ∃ c w, τ.toList = c :: w ∧ lexeme c (w ++ rest) line col = (.token .ident τ, w.length) := by
  obtain ⟨c, w, hτ, hc, hw⟩ := h.word
  refine ⟨c, w, hτ, ?_⟩
  have hword : (w ++ rest).takeWhile isWordChar = w := by
    rw [List.takeWhile_append_of_pos hw]
    cases rest with
    | nil => simp
    | cons x r => simp [List.takeWhile_cons_of_neg, (hrest x rfl).2]
  -- a throw letter is a name unless a digit follows it
  have hnotdice : ¬((c = 'd' ∨ c = 'D') ∧
      (((w ++ rest).head?).map isDecimal).getD false = true) := by
    rintro ⟨hd, hx⟩
    cases w with
    | nil =>
      cases rest with
      | nil => simp at hx
      | cons x r => simp [(hrest x rfl).1] at hx
    | cons x w' => simp [h.noThrow c (x :: w') hτ hd x rfl] at hx
  have hhash : c ≠ '#' := by
    rintro rfl
    exact absurd hc (by decide)
  have hτ' : String.ofList (c :: w) = τ := by rw [← hτ, String.ofList_toList]
  rw [lexeme, if_neg (by simp [isSkipped_of_wordStart hc]), if_neg hhash,
    if_neg (by simp [isDecimal_of_wordStart hc]), if_neg hnotdice, if_pos hc, wordLexeme]
  simp only [hword, hτ', h.noKeyword, h.noNumber, Bool.false_eq_true, if_false]

theorem scansTo_tag {τ : String} (h : TagWord τ) :
    ScansTo (fun rest => ∀ x ∈ rest.head?, isDecimal x = false ∧ isWordChar x = false)
      (' ' :: τ.toList) [(.ident, τ)] := by
  have word : ScansTo (fun rest => ∀ x ∈ rest.head?, isDecimal x = false ∧ isWordChar x = false)
      τ.toList [(.ident, τ)] := by
    intro rest hrest line col found
    obtain ⟨c, w, hτ, hlex⟩ := lexeme_tag h hrest line col
    refine ⟨[⟨.ident, τ, line, col⟩], col + 1 + w.length, rfl, ?_⟩
    rw [hτ, List.cons_append, scanFrom_token hlex, List.drop_left]
    rfl
  exact scansTo_blank.append word fun _ _ => trivial

theorem scansTo_tagText {g : List String} (hg : ∀ τ ∈ g, TagWord τ) :
    ScansTo (fun rest => g ≠ [] → ∀ x ∈ rest.head?, isDecimal x = false ∧ isWordChar x = false)
      (Written.tagText g) (Written.tagTokens g) := by
  induction g with
  | nil => exact fun rest _ line col found => ⟨[], col, rfl, rfl⟩
  | cons τ g ih =>
    have tail := @ScansTo.weaken _ _ (fun rest => ∀ x ∈ rest.head?, isDecimal x = false ∧ isWordChar x = false)
      _ _ (ih fun τ' h' => hg τ' (List.mem_cons_of_mem _ h')) fun _ h _ => h
    have whole := (scansTo_tag (hg τ List.mem_cons_self)).append tail fun rest hrest => by
      cases g with
      | nil => exact hrest
      | cons _ _ => intro x hx; cases hx; decide
    rw [Written.tagText_cons, ← List.cons_append]
    exact whole.weaken fun rest hrest => hrest (by simp)

/-- A text and the colour tags written after it. -/
theorem ScansTo.withTags {xs : List Char} {toks : List (Symbol × String)} {g : List String}
    (hx : ScansTo (StopsAfter toks) xs toks) (hg : ∀ τ ∈ g, TagWord τ) :
    ScansTo (StopsAfter (toks ++ Written.tagTokens g)) (xs ++ Written.tagText g)
      (toks ++ Written.tagTokens g) := by
  cases g with
  | nil => simpa using hx
  | cons τ g =>
    refine hx.append ((scansTo_tagText hg).weaken fun rest hrest _ => ?_) fun rest _ => ?_
    · intro x hx'
      obtain ⟨σ, hσ⟩ : ∃ σ, (toks ++ Written.tagTokens (τ :: g)).getLast? = some (.ident, σ) := by
        rw [getLast?_append_of_ne_nil _ (by simp [Written.tagTokens]), Written.tagTokens,
          List.getLast?_map, List.getLast?_cons]
        exact ⟨_, rfl⟩
      exact ⟨(hrest.1 x hx').1, hrest.2 _ (by rw [hσ]; rfl) rfl x hx'⟩
    · exact (stopsWord_cons (by decide) _).stopsAfter toks

theorem scansTo_enclose_after (needed : Prop) [Decidable needed] {xs : List Char}
    {toks : List (Symbol × String)} (h : ScansTo (StopsAfter toks) xs toks) :
    ScansTo (StopsAfter (encloseTokens needed toks)) (enclose needed xs)
      (encloseTokens needed toks) := by
  by_cases hn : needed
  · have opening := scansTo_single (c := '(') (s := .openParen) (by decide)
      (by intro x; unfold pairOperator?; split <;> simp_all)
    have closing := scansTo_single (c := ')') (s := .closeParen) (by decide)
      (by intro x; unfold pairOperator?; split <;> simp_all)
    have inner := h.append closing fun rest _ => (stopsWord_cons (by decide) rest).stopsAfter toks
    have whole := @ScansTo.weaken _ _ (StopsAfter (encloseTokens needed toks)) _ _
      (opening.append inner fun _ _ => trivial) fun _ _ => trivial
    simpa [enclose, encloseTokens, hn] using whole
  · simpa [enclose, encloseTokens, hn] using h

/-- An operator of two characters. -/
theorem scansTo_pair {c x : Char} {s : Symbol} (hs : s.text.toList = [c, x])
    (hc : isSkipped c = false ∧ c ≠ '#' ∧ isDecimal c = false ∧ c ≠ 'd' ∧ c ≠ 'D' ∧
      isWordStart c = false) (hp : pairOperator? c x = some s) :
    ScansTo (fun _ => True) s.text.toList [(s, s.text)] := by
  obtain ⟨h1, h2, h3, h4, h5, h6⟩ := hc
  intro rest _ line col found
  have hlex : lexeme c (x :: rest) line col = (.token s s.text, 1) := by
    simp [lexeme, h1, h2, h3, h4, h5, h6, hp]
  refine ⟨[⟨s, s.text, line, col⟩], col + 1 + 1, rfl, ?_⟩
  rw [hs]
  show scanFrom (c :: x :: rest) line col found = _
  rw [scanFrom_token hlex]
  rfl

theorem scansTo_drop {o : Symbol} (ho : o = .dropHighest ∨ o = .dropLowest) :
    ScansTo (fun _ => True) o.text.toList [(o, o.text)] := by
  rcases ho with rfl | rfl
  · exact scansTo_pair (c := '-') (x := 'H') rfl (by decide) rfl
  · exact scansTo_pair (c := '-') (x := 'L') rfl (by decide) rfl

theorem stopsAfter_number (v : String) {rest : List Char} (h : StopsNumeral rest) :
    StopsAfter [(.number, v)] rest :=
  ⟨h, by simp⟩

theorem drop_text {o : Symbol} (ho : o = .dropHighest ∨ o = .dropLowest) :
    ∃ c, o.text.toList = ['-', c] := by
  rcases ho with rfl | rfl
  · exact ⟨'H', rfl⟩
  · exact ⟨'L', rfl⟩

theorem scansTo_punctuation {c : Char} {s : Symbol}
    (hc : isSkipped c = false ∧ c ≠ '#' ∧ isDecimal c = false ∧ c ≠ 'd' ∧ c ≠ 'D' ∧
      isWordStart c = false ∧ isOperatorChar c = true ∧ singleOperator? c = some s)
    (hpair : c ≠ '<' ∧ c ≠ '>' ∧ c ≠ '=' ∧ c ≠ '!' ∧ c ≠ '-') :
    ScansTo (fun _ => True) [c] [(s, s.text)] :=
  scansTo_single hc fun x => by
    obtain ⟨h1, h2, h3, h4, h5⟩ := hpair
    unfold pairOperator?
    split <;> simp_all

theorem scansTo_openBrace :
    ScansTo (fun _ => True) "\x7b ".toList [(.openBrace, Symbol.openBrace.text)] :=
  (scansTo_punctuation (c := '{') (by decide) (by decide)).append scansTo_blank fun _ _ => trivial

theorem scansTo_closeBrace :
    ScansTo (fun _ => True) " \x7d".toList [(.closeBrace, Symbol.closeBrace.text)] :=
  scansTo_blank.append (scansTo_punctuation (c := '}') (by decide) (by decide)) fun _ _ => trivial

theorem scansTo_comma : ScansTo (fun _ => True) ", ".toList [(.comma, Symbol.comma.text)] :=
  (scansTo_punctuation (c := ',') (by decide) (by decide)).append scansTo_blank fun _ _ => trivial

theorem scansTo_roll : ScansTo (fun _ => True) "Roll ".toList [(.rollWord, Symbol.rollWord.text)] :=
  scansTo_keyword (c := 'R') (w := ['o', 'l', 'l']) (by decide) (by simp [isWordChar, isLetter])
    (by decide) (by decide)

theorem scansTo_if_word : ScansTo (fun _ => True) "if ".toList [(.ifWord, Symbol.ifWord.text)] :=
  scansTo_keyword (c := 'i') (w := ['f']) (by decide) (by simp [isWordChar, isLetter]) (by decide)
    (by decide)

theorem stopsWord_blank (rest : List Char) : StopsWord (' ' :: rest) :=
  stopsWord_cons (by decide) rest

end Token

namespace Node

open Token

theorem Drops.tokens_ne_nil {reads : Bool} {ds : List Node} {w : List Char}
    {ts : List (Symbol × String)} {g : List String} (h : Drops reads ds w ts g) (hne : ds ≠ []) :
    ts ≠ [] := by
  cases h with
  | nil => exact absurd rfl hne
  | cons => simp

theorem Drops.starts_minus {reads : Bool} {ds : List Node} {w : List Char}
    {ts : List (Symbol × String)} {g : List String} (h : Drops reads ds w ts g) (hne : ds ≠ []) :
    ∃ w', w = '-' :: w' := by
  cases h with
  | nil => exact absurd rfl hne
  | cons ho =>
    obtain ⟨c, hc⟩ := drop_text ho
    exact ⟨_, by rw [hc]; rfl⟩

/-- The drops of a throw and the tags after the last count. -/
theorem Drops.scansTo {ds : List Node} {w : List Char} {ts : List (Symbol × String)}
    {g : List String} (h : Drops true ds w ts g) :
    ScansTo (StopsAfter ts) (w ++ Written.tagText g) ts := by
  induction h with
  | nil => exact fun rest _ line col found => ⟨[], col, rfl, rfl⟩
  | @cons o v cs ds w ts g l k l' k' ho hv hcs hlast hd ih =>
    have count := @ScansTo.weaken _ _ (StopsAfter [(.number, String.ofList v.toList)]) _ _
      (scansTo_numeral hv) fun _ h => h.1
    rw [String.ofList_toList] at count
    cases hd with
    | nil =>
      have whole := (scansTo_drop ho).append (count.withTags fun c hc => by
        obtain ⟨c', hc', rfl⟩ := List.mem_map.mp hc
        exact (hcs c' hc').word) fun _ _ => trivial
      simp only [List.append_nil, List.append_assoc, List.singleton_append] at whole ⊢
      exact whole.weaken fun rest h => (stopsAfter_cons (by simp) rest).mp h
    | cons ho' hv' hcs' hlast' hd' =>
      obtain rfl := hlast rfl (List.cons_ne_nil _ _)
      obtain ⟨c, hc⟩ := drop_text ho'
      have whole := (scansTo_drop ho).append (count.append ih fun rest _ => by
        rw [List.append_assoc, List.append_assoc, List.append_assoc, hc]
        exact stopsAfter_number v (stopsNumeral_cons (by decide) _)) fun _ _ => trivial
      simp only [List.map_nil, Written.tagTokens_nil, List.nil_append, List.append_assoc,
        List.cons_append] at whole ⊢
      refine whole.weaken fun rest h => ?_
      rwa [stopsAfter_cons (by simp), stopsAfter_cons (by simp)] at h

theorem Written.enclose_full (x : Written) (needed : Prop) [Decidable needed]
    (h : needed → x.tags = []) (mark : List Char) :
    enclose needed (x.text mark) ++ Written.tagText x.tags = enclose needed (x.full mark) := by
  by_cases hn : needed
  · simp [Written.full, h hn]
  · simp [enclose, hn, Written.full]

section Canonical

variable {reads : Bool} {t : Node} {x : Written}

/-- The tokens of an expression open a unit: a numeral, a minus sign or a parenthesis. -/
theorem Canonical.opensUnit (h : Canonical reads t x) : OpensUnit x.tokens := by
  induction h with
  | numeral => exact ⟨_, _, rfl, .inl rfl⟩
  | negate => exact ⟨_, _, rfl, .inr (.inl rfl)⟩
  | binary _ _ _ _ _ iha => exact opensUnit_append (opensUnit_enclose _ iha)
  | throw _ _ _ _ _ iha => exact opensUnit_append (opensUnit_enclose _ iha)
  | conditional _ _ _ _ _ iha => exact opensUnit_append (opensUnit_enclose _ iha)
  | «repeat» _ _ _ _ hpos _ _ iha =>
    obtain ⟨n, hn⟩ := exists_toNat_succ hpos
    rw [hn]
    cases n with
    | zero => simpa using iha
    | succ n =>
      rw [List.replicate_succ, List.replicate_succ, List.intercalate_cons_cons, List.append_assoc]
      exact opensUnit_append iha

theorem Canonical.tokens_ne_nil (h : Canonical reads t x) : x.tokens ≠ [] := by
  obtain ⟨p, rest, hp, -⟩ := h.opensUnit
  rw [hp]
  exact List.cons_ne_nil _ _

theorem encloseTokens_not_ident (needed : Prop) [Decidable needed]
    {toks : List (Symbol × String)} (h : needed ∨ ∀ p ∈ toks.getLast?, p.1 ≠ .ident) :
    ∀ p ∈ (encloseTokens needed toks).getLast?, p.1 ≠ .ident := by
  by_cases hn : needed
  · intro p hp
    simp only [encloseTokens, if_pos hn] at hp
    rw [List.getLast?_concat] at hp
    cases hp
    decide
  · simpa [encloseTokens, hn] using h

theorem encloseTokens_ne_nil (needed : Prop) [Decidable needed] {toks : List (Symbol × String)}
    (h : toks ≠ []) : encloseTokens needed toks ≠ [] := by
  unfold encloseTokens
  split <;> simp [h]

end Canonical

/-- Written with no mark, an expression that the reader builds scans to its tokens. -/
theorem Canonical.scansTo {t : Node} {x : Written} (h : Canonical true t x) :
    ScansTo (StopsAfter x.tokens) (x.full []) x.tokens := by
  induction h with
  | @numeral v cs l k hv hcs =>
    have count := @ScansTo.weaken _ _ (StopsAfter [(.number, String.ofList v.toList)]) _ _
      (scansTo_numeral hv) fun _ h => h.1
    rw [String.ofList_toList] at count
    simpa [Written.full] using count.withTags fun τ hτ => by
      obtain ⟨c, hc, rfl⟩ := List.mem_map.mp hτ
      exact (hcs c hc).word
  | @negate a x l k ha hx iha =>
    have hne := encloseTokens_ne_nil (x.power < Symbol.prefixPower) ha.tokens_ne_nil
    have whole := scansTo_negation (scansTo_enclose_after (x.power < Symbol.prefixPower) iha)
      (startsUnit_enclose _ (startsUnit_append (ha.startsUnit [])))
    rw [Written.full, List.cons_append, x.enclose_full _ (hx rfl)]
    exact whole.weaken fun rest h => (stopsAfter_cons hne rest).mp h
  | @binary s a b x y l k hs ha hb hx hy iha ihb =>
    have hne := encloseTokens_ne_nil (y.power ≤ s.bindingPower) hb.tokens_ne_nil
    have right := (scansTo_spaced hs).append
      (scansTo_enclose_after (y.power ≤ s.bindingPower) ihb) fun _ _ => trivial
    have whole := (scansTo_enclose_after (x.power < s.bindingPower) iha).append right
      fun rest _ => (stopsWord_cons (by decide) _).stopsAfter _
    simp only [Written.full, Written.tagText_nil, List.append_nil]
    rw [x.enclose_full _ (hx rfl), y.enclose_full _ (hy rfl)]
    simp only [List.cons_append, List.append_assoc] at whole ⊢
    exact whole.weaken fun rest h =>
      (stopsAfter_cons hne rest).mp ((stopsAfter_append (List.cons_ne_nil _ _) rest).mp h)
  | @throw a b ds x y w ts g l k ha hb hd hx hy iha ihb =>
    obtain ⟨hxt, hxl⟩ := hx rfl
    have hxf : x.full [] = x.text [] := by simp [Written.full, hxt]
    have hne := encloseTokens_ne_nil (y.power ≤ Symbol.dice.bindingPower) hb.tokens_ne_nil
    have count := scansTo_enclose_after (x.power < Symbol.dice.bindingPower) iha
    rw [hxf] at count
    -- the count ends in a parenthesis or in no name, so the `d` stands apart from it
    have hfx := fun rest (_ : True) => @stopsAfter_of_not_ident _ ('d' :: rest)
      (encloseTokens_not_ident (x.power < Symbol.dice.bindingPower) hxl) (stopsNumeral_cons (by decide) _)
    by_cases hds : ds = []
    · subst hds
      cases hd
      have whole := count.append (scansTo_throw
        (scansTo_enclose_after (y.power ≤ Symbol.dice.bindingPower) ihb)
        (startsUnit_enclose _ (startsUnit_append (hb.startsUnit [])))) fun rest _ => hfx _ trivial
      simp only [Written.full, hxt, List.nil_append, List.append_nil] at whole ⊢
      rw [List.append_assoc, List.cons_append, y.enclose_full _ fun h => hy rfl (.inl h)]
      exact whole.weaken fun rest h =>
        (stopsAfter_cons hne rest).mp ((stopsAfter_append (List.cons_ne_nil _ _) rest).mp h)
    · have hyt := hy rfl (.inr hds)
      have hyf : y.full [] = y.text [] := by simp [Written.full, hyt]
      have hts := hd.tokens_ne_nil hds
      obtain ⟨w', hw⟩ := hd.starts_minus hds
      have counts := (scansTo_enclose_after (y.power ≤ Symbol.dice.bindingPower) ihb).append
        hd.scansTo fun rest _ => by
          rw [hw]
          exact (stopsWord_cons (by decide) _).stopsAfter _
      rw [hyf] at counts
      have whole := count.append (scansTo_throw counts (startsUnit_append
        (startsUnit_enclose (y.power ≤ Symbol.dice.bindingPower) (hb.startsUnit []))))
        fun rest _ => hfx _ trivial
      simp only [Written.full, hxt, hyt, List.nil_append, List.append_nil, List.append_assoc,
        List.cons_append] at whole ⊢
      refine whole.weaken fun rest h => ?_
      rwa [stopsAfter_append (List.cons_ne_nil _ _), stopsAfter_cons (by simp [hts]),
        stopsAfter_append hts] at h
  | @conditional c a b z x y l k hc ha hb hx ihc iha ihb =>
    have hblank := fun (toks : List (Symbol × String)) rest =>
      (stopsWord_cons (c := ' ') (by decide) rest).stopsAfter toks
    have tail := scansTo_if.append (ihc.append (scansTo_else.append ihb fun _ _ => trivial)
      fun rest _ => hblank _ _) fun _ _ => trivial
    have whole := (scansTo_enclose_after (x.power ≤ Symbol.ifWord.bindingPower) iha).append tail
      fun rest _ => hblank _ _
    rw [← x.enclose_full _ (hx rfl)] at whole
    simp only [Written.full, Written.tagText_nil, List.append_nil, List.append_assoc,
      List.singleton_append] at whole ⊢
    refine whole.weaken fun rest h => ?_
    rwa [stopsAfter_append (List.cons_ne_nil _ _), stopsAfter_cons (by simp),
      stopsAfter_append (List.cons_ne_nil _ _), stopsAfter_cons hb.tokens_ne_nil] at h
  | «repeat» hr => exact absurd hr (by decide)

/-! ## Statements -/

mutual

theorem Statement.scansTo {t : Node} {x : Written} {sep cont : Bool} :
    Statement true t x sep cont → ScansTo StopsWord (x.text []) x.tokens
  | .expr h => h.scansTo.weaken fun _ hr => hr.stopsAfter _
  | .roll h => scansTo_roll.append h.scansTo fun _ _ => trivial
  | .block h => h.scansTo
  | .branch h => h.scansTo

theorem Block.scansTo {t : Node} {x : Written} : Block true t x → ScansTo StopsWord (x.text []) x.tokens
  | .empty => (scansTo_openBrace.append
      (scansTo_punctuation (c := '}') (by decide) (by decide)) fun _ _ => trivial).weaken
      fun _ _ => trivial
  | .full h => (scansTo_openBrace.append h.scansTo fun _ _ => trivial).append
      (scansTo_closeBrace.weaken fun _ _ => trivial) fun _ _ => stopsWord_blank _

theorem Branch.scansTo {t : Node} {x : Written} :
    Branch true t x → ScansTo StopsWord (x.text []) x.tokens
  | .bare hc hb => scansTo_if_word.append (hc.scansTo.append (scansTo_blank.append hb.scansTo
      fun _ _ => trivial) fun _ _ => stopsWord_blank _ |>.stopsAfter _) fun _ _ => trivial
  | .withElse hc hb ho => by
    have other := (hb.scansTo.append scansTo_else fun _ _ => stopsWord_blank _).append ho.scansTo
      fun _ _ => trivial
    have whole := scansTo_if_word.append (hc.scansTo.append (scansTo_blank.append other
      fun _ _ => trivial) fun _ _ => (stopsWord_blank _).stopsAfter _) fun _ _ => trivial
    simp only [List.append_assoc, List.singleton_append, List.nil_append] at whole ⊢
    exact whole
  | .elseIf hc hb ho => by
    have other := (hb.scansTo.append scansTo_else fun _ _ => stopsWord_blank _).append ho.scansTo
      fun _ _ => trivial
    have whole := scansTo_if_word.append (hc.scansTo.append (scansTo_blank.append other
      fun _ _ => trivial) fun _ _ => (stopsWord_blank _).stopsAfter _) fun _ _ => trivial
    simp only [List.append_assoc, List.singleton_append, List.nil_append] at whole ⊢
    exact whole

theorem Statements.scansTo {ss : List Node} {x : Written} {cont : Bool} :
    Statements true ss x cont → ScansTo StopsWord (x.text []) x.tokens
  | .single h => h.scansTo
  | .cons h hs _ _ => h.scansTo.append (scansTo_comma.append hs.scansTo fun _ _ => trivial)
      fun _ _ => stopsWord_cons (by decide) _

end

end Node

end DiceNotation
