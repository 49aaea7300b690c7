import DiceNotation.Proofs.Formula.Spelling
import DiceNotation.Token.Lexer
/-!
# Scanning the spelling of a formula

Scanning the bare spelling of a formula gives one token for each numeral,
operator, keyword and parenthesis in it, in order.  A numeral is read whole; a
minus sign before a unit is never taken for a drop; `d` is the throw whether a
digit, a parenthesis or a minus sign follows it; `mod`, `if` and `else` are
keywords.  Tokens are compared by symbol and text: the columns they are found
at do not matter to the reader.
-/

namespace DiceNotation

/-- What a reader sees of a token: its symbol and its text. -/
def Token.spelling (t : Token) : Symbol × String := (t.symbol, t.value)

namespace Node

/-- Tokens, in parentheses where they are needed. -/
def encloseTokens (needed : Prop) [Decidable needed] (ts : List (Symbol × String)) :
    List (Symbol × String) :=
  if needed then
    (.openParen, Symbol.openParen.text) :: ts ++ [(.closeParen, Symbol.closeParen.text)]
  else ts

/-- The tokens of the canonical spelling of a formula. -/
def tokens : Node → List (Symbol × String)
  | .mk _ v _ _ [] => [(.number, v)]
  | .mk _ _ _ _ [a] =>
    (.minus, Symbol.minus.text) :: encloseTokens (a.printPower < Symbol.prefixPower) (tokens a)
  | .mk s _ _ _ [a, b] =>
    encloseTokens (a.printPower < Symbol.powerOfText s) (tokens a) ++
      ((Symbol.ofText? s).getD .eof, s) ::
        encloseTokens (b.printPower ≤ Symbol.powerOfText s) (tokens b)
  | .mk _ _ _ _ [c, a, b] =>
    encloseTokens (a.printPower ≤ Symbol.ifWord.bindingPower) (tokens a) ++
      (.ifWord, Symbol.ifWord.text) :: (tokens c ++ (.elseWord, Symbol.elseWord.text) :: tokens b)
  | .mk _ _ _ _ _ => []

end Node

namespace Token

open Text

/-! ## Characters -/

theorem isDecimal_of_isDigit {c : Char} (h : c.isDigit = true) : isDecimal c = true := by
  obtain ⟨h48, h57⟩ := Node.toNat_of_isDigit h
  simp [isDecimal, decimalValue?, decimalZeros, h48, show c.toNat < 58 by omega]

theorem isSkipped_of_isDigit {c : Char} (h : c.isDigit = true) : isSkipped c = false := by
  simp only [isSkipped, decide_eq_false_iff_not]
  rintro (rfl | rfl | rfl | rfl | rfl | rfl | rfl) <;> exact absurd h (by decide)

/-- A text that cannot extend a numeral before it: it starts with neither a
digit nor a point. -/
def StopsNumeral (rest : List Char) : Prop :=
  ∀ c ∈ rest.head?, isDecimal c = false ∧ c ≠ '.'

theorem stopsNumeral_cons {c : Char} (hc : isDecimal c = false ∧ c ≠ '.') (rest : List Char) :
    StopsNumeral (c :: rest) := by
  intro x hx
  cases hx
  exact hc

theorem takeWhile_decimal {xs rest : List Char} (hx : ∀ c ∈ xs, c.isDigit)
    (hrest : ∀ c ∈ rest.head?, isDecimal c = false) : (xs ++ rest).takeWhile isDecimal = xs := by
  rw [List.takeWhile_append_of_pos fun c hc => isDecimal_of_isDigit (hx c hc)]
  cases rest with
  | nil => simp
  | cons c more => simp [List.takeWhile_cons_of_neg, hrest c rfl]

theorem pairOperator?_minus {x : Char} (hx : x.isDigit ∨ x = '-' ∨ x = '(') :
    pairOperator? '-' x = none := by
  have hL : x ≠ 'L' := by rintro rfl; revert hx; decide
  have hH : x ≠ 'H' := by rintro rfl; revert hx; decide
  unfold pairOperator?
  split <;> simp_all

/-! ## One lexeme at a time -/

variable [Numerals]

theorem scanFrom_skip {c : Char} (hc : isSkipped c = true) (rest : List Char) (line col : Nat)
    (found : List Token) :
    scanFrom (c :: rest) line col found = scanFrom rest line (col + 1) found := by
  rw [scanFrom.eq_2]
  simp [lexeme, hc]

theorem scanFrom_token {c : Char} {rest : List Char} {line col used : Nat} {sym : Symbol}
    {value : String} (h : lexeme c rest line col = (.token sym value, used)) (found : List Token) :
    scanFrom (c :: rest) line col found =
      scanFrom (rest.drop used) line (col + 1 + used) (⟨sym, value, line, col⟩ :: found) := by
  rw [scanFrom.eq_2, h]

/-- The lexeme of a numeral is the whole numeral. -/
theorem lexeme_numeral {v rest : List Char} (hv : IsNumeral v) (hrest : StopsNumeral rest)
    (line col : Nat) : ∃ c tail, v = c :: tail ∧
      lexeme c (tail ++ rest) line col = (.token .number (String.ofList v), tail.length) := by
  obtain ⟨whole, fraction, rfl, hw, hd, hf⟩ := hv
  obtain ⟨c, digits, rfl⟩ := List.exists_cons_of_ne_nil hw
  have hc : c.isDigit := hd c (by simp)
  have hdigits : ∀ x ∈ digits, x.isDigit := fun x hx => hd x (by simp [hx])
  have hrest' : ∀ c ∈ rest.head?, isDecimal c = false := fun c hc => (hrest c hc).1
  have tail : numberTail (digits ++ fraction ++ rest) = digits ++ fraction := by
    rcases hf with rfl | ⟨more, rfl, hm⟩
    · simp only [numberTail, List.append_nil, takeWhile_decimal hdigits hrest', List.drop_left]
      cases rest with
      | nil => rfl
      | cons x r =>
        have hx : x ≠ '.' := (hrest x rfl).2
        split <;> simp_all
    · have hp : ∀ c ∈ ('.' :: (more ++ rest)).head?, isDecimal c = false := by
        intro c hc
        cases hc
        decide
      simp only [numberTail, List.append_assoc, List.cons_append, takeWhile_decimal hdigits hp,
        List.drop_left, takeWhile_decimal hm hrest']
  refine ⟨c, digits ++ fraction, rfl, ?_⟩
  have hnum : c ≠ '#' := by rintro rfl; exact absurd hc (by decide)
  simp only [lexeme, isSkipped_of_isDigit hc, hnum, isDecimal_of_isDigit hc, tail]
  simp

theorem scanFrom_numeral {v rest : List Char} (hv : IsNumeral v) (hrest : StopsNumeral rest)
    (line col : Nat) (found : List Token) :
    scanFrom (v ++ rest) line col found =
      scanFrom rest line (col + v.length) (⟨.number, String.ofList v, line, col⟩ :: found) := by
  obtain ⟨c, tail, rfl, h⟩ := lexeme_numeral hv hrest line col
  rw [List.cons_append, scanFrom_token h, List.drop_left, List.length_cons, Nat.add_assoc,
    Nat.add_comm 1]

/-- A character that is an operator by itself and starts no pair with what follows. -/
theorem lexeme_single {c : Char} {rest : List Char} {s : Symbol} (line col : Nat)
    (hc : isSkipped c = false ∧ c ≠ '#' ∧ isDecimal c = false ∧ c ≠ 'd' ∧ c ≠ 'D' ∧
      isWordStart c = false ∧ isOperatorChar c = true ∧ singleOperator? c = some s)
    (hpair : ∀ x ∈ rest.head?, pairOperator? c x = none) :
    lexeme c rest line col = (.token s s.text, 0) := by
  obtain ⟨h1, h2, h3, h4, h5, h6, h7, h8⟩ := hc
  have hnone : rest.head?.bind (pairOperator? c) = none := by
    cases rest with
    | nil => rfl
    | cons x more => exact hpair x rfl
  simp [lexeme, h1, h2, h3, h4, h5, h6, h7, h8, hnone]

/-- A word whose small letters spell a keyword, ended by a character that
continues no word, is that keyword. -/
theorem lexeme_keyword {c : Char} {w rest : List Char} {k : Symbol} (line col : Nat)
    (hc : isSkipped c = false ∧ c ≠ '#' ∧ isDecimal c = false ∧ isWordStart c = true)
    (hdice : (c = 'd' ∨ c = 'D') → ∀ x ∈ (w ++ rest).head?, isDecimal x = false)
    (hw : ∀ x ∈ w, isWordChar x = true) (hrest : ∀ x ∈ rest.head?, isWordChar x = false)
    {value : String} (hsmall : lower (String.ofList (c :: w)) = value)
    (hk : keyword? value = some k) :
    lexeme c (w ++ rest) line col = (.token k value, w.length) := by
  obtain ⟨h1, h2, h3, h4⟩ := hc
  have hword : (w ++ rest).takeWhile isWordChar = w := by
    rw [List.takeWhile_append_of_pos hw]
    cases rest with
    | nil => simp
    | cons x r => simp [List.takeWhile_cons_of_neg, hrest x rfl]
  have hnotdice : ¬((c = 'd' ∨ c = 'D') ∧
      (((w ++ rest).head?).map isDecimal).getD false = true) := by
    rintro ⟨hd, hx⟩
    cases hh : (w ++ rest).head? with
    | none => simp [hh] at hx
    | some x => simp [hh, hdice hd x hh] at hx
  rw [lexeme, if_neg (by simp [h1]), if_neg h2, if_neg (by simp [h3]), if_neg hnotdice,
    if_pos h4, wordLexeme]
  simp only [hword, hsmall, hk]

/-! ## Scanning pieces of a spelling -/

/-- Scanning `xs` before any text `rest` that `follows` allows gives tokens
spelled `toks`, and goes on with `rest` on the same line. -/
def ScansTo (follows : List Char → Prop) (xs : List Char) (toks : List (Symbol × String)) : Prop :=
  ∀ rest, follows rest → ∀ line col found, ∃ (ts : List Token) (col' : Nat),
    ts.map Token.spelling = toks ∧
    scanFrom (xs ++ rest) line col found = scanFrom rest line col' (ts.reverse ++ found)

theorem ScansTo.append {follows follows' : List Char → Prop} {xs ys : List Char}
    {toks toks' : List (Symbol × String)} (hx : ScansTo follows xs toks)
    (hy : ScansTo follows' ys toks') (hfollow : ∀ rest, follows' rest → follows (ys ++ rest)) :
    ScansTo follows' (xs ++ ys) (toks ++ toks') := by
  intro rest hrest line col found
  obtain ⟨ts, col₁, hts, hscan⟩ := hx (ys ++ rest) (hfollow rest hrest) line col found
  obtain ⟨ts', col₂, hts', hscan'⟩ := hy rest hrest line col₁ (ts.reverse ++ found)
  refine ⟨ts ++ ts', col₂, by simp [hts, hts'], ?_⟩
  rw [List.append_assoc, hscan, hscan']
  simp

theorem ScansTo.weaken {follows follows' : List Char → Prop} {xs : List Char}
    {toks : List (Symbol × String)} (h : ScansTo follows xs toks)
    (hf : ∀ rest, follows' rest → follows rest) : ScansTo follows' xs toks :=
  fun rest hrest => h rest (hf rest hrest)

theorem scansTo_numeral {v : List Char} (hv : IsNumeral v) :
    ScansTo StopsNumeral v [(.number, String.ofList v)] := by
  intro rest hrest line col found
  exact ⟨[⟨.number, String.ofList v, line, col⟩], _, rfl, scanFrom_numeral hv hrest line col found⟩

theorem scansTo_blank : ScansTo (fun _ => True) [' '] [] := by
  intro rest _ line col found
  exact ⟨[], col + 1, rfl, scanFrom_skip (by decide) rest line col found⟩

/-- One token of one character, whatever follows it. -/
theorem scansTo_single {c : Char} {s : Symbol}
    (hc : isSkipped c = false ∧ c ≠ '#' ∧ isDecimal c = false ∧ c ≠ 'd' ∧ c ≠ 'D' ∧
      isWordStart c = false ∧ isOperatorChar c = true ∧ singleOperator? c = some s)
    (hpair : ∀ x, pairOperator? c x = none) : ScansTo (fun _ => True) [c] [(s, s.text)] := by
  intro rest _ line col found
  refine ⟨[⟨s, s.text, line, col⟩], col + 1 + 0, rfl, ?_⟩
  rw [List.singleton_append, scanFrom_token (lexeme_single line col hc fun x _ => hpair x)]
  rfl

theorem scansTo_enclose (needed : Prop) [Decidable needed] {xs : List Char}
    {toks : List (Symbol × String)} (h : ScansTo StopsNumeral xs toks) :
    ScansTo StopsNumeral (Node.enclose needed xs) (Node.encloseTokens needed toks) := by
  by_cases hn : needed
  · have opening := scansTo_single (c := '(') (s := .openParen) (by decide)
      (by intro x; unfold pairOperator?; split <;> simp_all)
    have closing := scansTo_single (c := ')') (s := .closeParen) (by decide)
      (by intro x; unfold pairOperator?; split <;> simp_all)
    have inner := h.append closing fun rest _ => stopsNumeral_cons (by decide) _
    have whole : ScansTo StopsNumeral _ _ :=
      (opening.append inner fun _ _ => trivial).weaken fun _ _ => trivial
    simpa [Node.enclose, Node.encloseTokens, hn] using whole
  · simpa [Node.enclose, Node.encloseTokens, hn] using h

/-- A lexeme that makes one token and is ended by a blank, read with the blank. -/
theorem scansTo_word {c : Char} {w : List Char} {s : Symbol} {value : String}
    (h : ∀ rest line col, lexeme c (w ++ ' ' :: rest) line col = (.token s value, w.length)) :
    ScansTo (fun _ => True) (c :: (w ++ [' '])) [(s, value)] := by
  intro rest _ line col found
  refine ⟨[⟨s, value, line, col⟩], col + 1 + w.length + 1, rfl, ?_⟩
  rw [show c :: (w ++ [' ']) ++ rest = c :: (w ++ ' ' :: rest) by simp,
    scanFrom_token (h rest line col), List.drop_left, scanFrom_skip (by decide)]
  rfl

/-- A keyword of small letters, ended by a blank. -/
theorem scansTo_keyword {c : Char} {w : List Char} {k : Symbol}
    (hc : isSkipped c = false ∧ c ≠ '#' ∧ isDecimal c = false ∧ isWordStart c = true ∧
      c ≠ 'd' ∧ c ≠ 'D')
    (hw : ∀ x ∈ w, isWordChar x = true)
    (hsmall : lower (String.ofList (c :: w)) = k.text) (hk : keyword? k.text = some k) :
    ScansTo (fun _ => True) (c :: (w ++ [' '])) [(k, k.text)] := by
  obtain ⟨h1, h2, h3, h4, h5, h6⟩ := hc
  refine scansTo_word fun rest line col =>
    lexeme_keyword line col ⟨h1, h2, h3, h4⟩ ?_ hw ?_ hsmall hk
  · rintro (h | h) <;> contradiction
  · intro x hx
    cases hx
    decide

/-- A binary operator between blanks is its own token. -/
theorem scansTo_spaced {s : Symbol} (hs : s ∈ Symbol.spacedOperators) :
    ScansTo (fun _ => True) (' ' :: (s.text.toList ++ [' '])) [(s, s.text)] := by
  have word : ScansTo (fun _ => True) (s.text.toList ++ [' ']) [(s, s.text)] := by
    simp only [Symbol.spacedOperators, List.mem_cons, List.not_mem_nil, or_false] at hs
    rcases hs with rfl | rfl | rfl | rfl | rfl | rfl | rfl | rfl | rfl | rfl | rfl | rfl
    · exact scansTo_word (c := '+') (w := []) fun _ _ _ => rfl
    · exact scansTo_word (c := '-') (w := []) fun _ _ _ => rfl
    · exact scansTo_word (c := '*') (w := []) fun _ _ _ => rfl
    · exact scansTo_word (c := '/') (w := []) fun _ _ _ => rfl
    · exact scansTo_word (c := '^') (w := []) fun _ _ _ => rfl
    · exact scansTo_keyword (c := 'm') (w := ['o', 'd']) (by decide)
        (by simp [isWordChar, isLetter]) (by decide) (by decide)
    · exact scansTo_word (c := '<') (w := []) fun _ _ _ => rfl
    · exact scansTo_word (c := '>') (w := []) fun _ _ _ => rfl
    · exact scansTo_word (c := '<') (w := ['=']) fun _ _ _ => rfl
    · exact scansTo_word (c := '>') (w := ['=']) fun _ _ _ => rfl
    · exact scansTo_word (c := '=') (w := ['=']) fun _ _ _ => rfl
    · exact scansTo_word (c := '!') (w := ['=']) fun _ _ _ => rfl
  exact scansTo_blank.append word fun _ _ => trivial

theorem scansTo_if :
    ScansTo (fun _ => True) " if ".toList [(.ifWord, Symbol.ifWord.text)] :=
  scansTo_blank.append (scansTo_keyword (c := 'i') (w := ['f']) (by decide)
    (by simp [isWordChar, isLetter]) (by decide) (by decide)) fun _ _ => trivial

theorem scansTo_else :
    ScansTo (fun _ => True) " else ".toList [(.elseWord, Symbol.elseWord.text)] :=
  scansTo_blank.append (scansTo_keyword (c := 'e') (w := ['l', 's', 'e']) (by decide)
    (by simp [isWordChar, isLetter]) (by decide) (by decide)) fun _ _ => trivial

/-- A character followed by a unit that makes one token of it, and the unit's tokens. -/
theorem scansTo_before_unit {follows : List Char → Prop} {c : Char} {xs : List Char}
    {toks : List (Symbol × String)} {s : Symbol} {value : String} (h : ScansTo follows xs toks)
    (hx : Node.StartsUnit xs)
    (hlex : ∀ x rest line col, (x.isDigit ∨ x = '-' ∨ x = '(') →
      lexeme c (x :: rest) line col = (.token s value, 0)) :
    ScansTo follows (c :: xs) ((s, value) :: toks) := by
  intro rest hrest line col found
  obtain ⟨x, more, rfl, hxu⟩ := hx
  obtain ⟨ts, col', hts, hscan⟩ := h rest hrest line (col + 1 + 0) (⟨s, value, line, col⟩ :: found)
  refine ⟨⟨s, value, line, col⟩ :: ts, col', by simp [hts, Token.spelling], ?_⟩
  rw [List.cons_append, List.cons_append, scanFrom_token (hlex x _ line col hxu), List.drop_zero,
    ← List.cons_append, hscan]
  simp

/-- A minus sign before a unit is the sign, never the start of a drop. -/
theorem scansTo_negation {follows : List Char → Prop} {xs : List Char}
    {toks : List (Symbol × String)} (h : ScansTo follows xs toks) (hx : Node.StartsUnit xs) :
    ScansTo follows ('-' :: xs) ((.minus, Symbol.minus.text) :: toks) :=
  scansTo_before_unit h hx fun x _ line col hxu =>
    lexeme_single line col (by decide) fun y hy => by
      cases hy
      exact pairOperator?_minus hxu

/-- The letter `d` before a unit is the throw: before a digit by the rule for
throws, before a parenthesis or a minus sign as a keyword. -/
theorem scansTo_throw {follows : List Char → Prop} {xs : List Char}
    {toks : List (Symbol × String)} (h : ScansTo follows xs toks) (hx : Node.StartsUnit xs) :
    ScansTo follows ('d' :: xs) ((.dice, Symbol.dice.text) :: toks) := by
  refine scansTo_before_unit h hx fun x rest line col hxu => ?_
  rcases hxu with hd | rfl | rfl
  · have skipped : isSkipped 'd' = false := by decide
    have letter : isDecimal 'd' = false := by decide
    simp [lexeme, isDecimal_of_isDigit hd, skipped, letter, Symbol.text]
  · exact lexeme_keyword (w := []) line col (by decide) (fun _ y hy => by cases hy; decide)
      (by simp) (fun y hy => by cases hy; decide) (by decide) (by decide)
  · exact lexeme_keyword (w := []) line col (by decide) (fun _ y hy => by cases hy; decide)
      (by simp) (fun y hy => by cases hy; decide) (by decide) (by decide)

end Token

open Token in
/-- Scanning the bare spelling of a formula, before any text that cannot
extend its last numeral, gives the formula's tokens. -/
theorem Node.Formula.scansTo [Numerals] {t : Node} (ht : t.Formula) :
    ScansTo StopsNumeral (t.spell []) t.tokens := by
  induction ht with
  | @numeral v line col hv =>
    simpa [Node.spell, Node.tokens] using scansTo_numeral hv
  | @negate a line col ha iha =>
    exact scansTo_negation (scansTo_enclose (a.printPower < Symbol.prefixPower) iha)
      (Node.startsUnit_enclose _ (ha.startsUnit []))
  | @binary s a b line col hs ha hb iha ihb =>
    have right := (scansTo_spaced hs).append
      (scansTo_enclose (b.printPower ≤ s.bindingPower) ihb) fun _ _ => trivial
    have whole := (scansTo_enclose (a.printPower < s.bindingPower) iha).append right
      fun _ _ => stopsNumeral_cons (by decide) _
    simpa [Node.spell, Node.tokens, Symbol.text_inj, Symbol.ne_dice_of_spaced hs,
      Symbol.ofText?_text, Symbol.powerOfText_text] using whole
  | @throw a b line col ha hb iha ihb =>
    have right := scansTo_throw (scansTo_enclose (b.printPower ≤ Symbol.dice.bindingPower) ihb)
      (Node.startsUnit_enclose _ (hb.startsUnit []))
    have whole := (scansTo_enclose (a.printPower < Symbol.dice.bindingPower) iha).append right
      fun _ _ => stopsNumeral_cons (by decide) _
    simpa [Node.spell, Node.tokens, Symbol.ofText?_text, Symbol.powerOfText_text] using whole
  | @conditional c a b line col hc ha hb ihc iha ihb =>
    have otherwise := scansTo_else.append ihb fun _ _ => trivial
    have condition := ihc.append otherwise fun _ _ => stopsNumeral_cons (by decide) _
    have branch := scansTo_if.append condition fun _ _ => trivial
    have whole := (scansTo_enclose (a.printPower ≤ Symbol.ifWord.bindingPower) iha).append branch
      fun _ _ => stopsNumeral_cons (by decide) _
    simpa [Node.spell, Node.tokens] using whole

end DiceNotation
