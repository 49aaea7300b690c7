import Mathlib.Tactic.SplitIfs
import DiceNotation.Token.Lexer
/-!
# Lines and columns of tokens

The scanner keeps a line counter, grown only at a line break, and a column
counter, grown by the characters each lexeme takes and reset to 1 after a line
break.  Both agree with the text itself: every token carries the line and column
of the index it starts at, where the line of index `i` is one more than the line
breaks before `i` (`lineAt`) and its column is its distance from the last of
them (`colAt`).  The end of the text and every lexical fault carry the position
of their own index in the same way.

The two counters can only drift apart if a lexeme other than a line break
steps over a line break.  So the argument is one fact about lexemes
(`spans_lexeme`: skips, comments, numbers, words and runs of number words all
keep to one line), and one invariant of the scan (`scanFrom_exact`), by
induction on what is left of the text.
-/

namespace DiceNotation

/-- A fault a lexeme raises where it starts: a lexical fault at that line and
column, or a run of number words with a part missing, which has no position. -/
def Fault.RaisedAt (f : Fault) (line col : Nat) : Prop :=
  (∃ cause, f = .lex cause line col) ∨ f = .missingItem

theorem raisedAt_lex (cause : LexFault) (line col : Nat) :
    (Fault.lex cause line col).RaisedAt line col :=
  .inl ⟨cause, rfl⟩

theorem raisedAt_missingItem (line col : Nat) : Fault.missingItem.RaisedAt line col :=
  .inr rfl

namespace Token

/-- The line of index `i` of a text: one more than the line breaks before it. -/
def lineAt (cs : List Char) (i : Nat) : Nat := 1 + (cs.take i).count '\n'

/-- The index of the last line break before index `i`, or `-1` when there is none. -/
def lastBreak (cs : List Char) : Nat → Int
  | 0 => -1
  | i + 1 => if cs[i]? = some '\n' then i else lastBreak cs i

/-- The column of index `i` of a text: how far it is from the last line break
before it, counting from 1. -/
def colAt (cs : List Char) (i : Nat) : Nat := (i - lastBreak cs i).toNat

theorem lastBreak_lt (cs : List Char) : ∀ i, lastBreak cs i < i
  | 0 => by simp [lastBreak]
  | i + 1 => by
    have := lastBreak_lt cs i
    simp only [lastBreak]
    split <;> omega

variable {cs : List Char}

theorem colAt_eq (cs : List Char) (i : Nat) : (colAt cs i : Int) = i - lastBreak cs i := by
  have := lastBreak_lt cs i
  simp only [colAt]
  omega

/-- `lastBreak cs i` is `-1` or the index of a line break before `i`, and no
line break stands between it and `i`. -/
theorem lastBreak_spec (i : Nat) :
    (lastBreak cs i = -1 ∨ ∃ j < i, lastBreak cs i = j ∧ cs[j]? = some '\n') ∧
      ∀ m < i, lastBreak cs i < m → cs[m]? ≠ some '\n' := by
  induction i with
  | zero => exact ⟨.inl rfl, fun m hm => absurd hm (Nat.not_lt_zero m)⟩
  | succ i ih =>
    obtain ⟨hval, hnone⟩ := ih
    by_cases h : cs[i]? = some '\n'
    · rw [lastBreak, if_pos h]
      exact ⟨.inr ⟨i, by omega, rfl, h⟩, fun m hm hlt => by omega⟩
    · rw [lastBreak, if_neg h]
      refine ⟨hval.imp_right fun ⟨j, hj, hjv, hjc⟩ => ⟨j, by omega, hjv, hjc⟩, fun m hm hlt => ?_⟩
      rcases Nat.lt_succ_iff_lt_or_eq.mp hm with hm | rfl
      · exact hnone m hm hlt
      · exact h

@[simp] theorem lineAt_length : lineAt cs cs.length = 1 + cs.count '\n' := by
  rw [lineAt, List.take_length]

theorem lineAt_succ {i : Nat} {c : Char} (h : cs[i]? = some c) :
    lineAt cs (i + 1) = lineAt cs i + if c = '\n' then 1 else 0 := by
  rw [lineAt, lineAt, List.take_add_one, h]
  simp [List.count_append, List.count_singleton]
  omega

theorem lastBreak_succ {i : Nat} {c : Char} (h : cs[i]? = some c) :
    lastBreak cs (i + 1) = if c = '\n' then (i : Int) else lastBreak cs i := by
  simp [lastBreak, h]

/-- Across characters that hold no line break the line stays and the column grows by one each. -/
theorem lineAt_colAt_span {k : Nat} :
    ∀ m, k + m ≤ cs.length → '\n' ∉ (cs.drop k).take m →
      lineAt cs (k + m) = lineAt cs k ∧ colAt cs (k + m) = colAt cs k + m
  | 0, _, _ => ⟨rfl, rfl⟩
  | m + 1, hm, hn => by
    have hget : (cs.drop k)[m]? = cs[k + m]? := List.getElem?_drop
    obtain ⟨c, hc⟩ : ∃ c, cs[k + m]? = some c := ⟨cs[k + m], List.getElem?_eq_getElem (by omega)⟩
    rw [List.take_add_one, hget, hc] at hn
    have hn' : '\n' ∉ (cs.drop k).take m := fun h => hn (List.mem_append_left _ h)
    have hcn : c ≠ '\n' := fun h => hn (List.mem_append_right _ (by simp [h]))
    obtain ⟨hline, hcol⟩ := lineAt_colAt_span m (by omega) hn'
    have hcol' := colAt_eq cs (k + m)
    have hcol'' := colAt_eq cs (k + m + 1)
    rw [← Nat.add_assoc, lineAt_succ hc, if_neg hcn, hline]
    refine ⟨rfl, ?_⟩
    rw [lastBreak_succ hc, if_neg hcn] at hcol''
    omega

/-- After a line break the line is one more and the column is 1. -/
theorem lineAt_colAt_break {k : Nat} (h : cs[k]? = some '\n') :
    lineAt cs (k + 1) = lineAt cs k + 1 ∧ colAt cs (k + 1) = 1 := by
  have hcol := colAt_eq cs (k + 1)
  rw [lastBreak_succ h, if_pos rfl] at hcol
  refine ⟨by rw [lineAt_succ h, if_pos rfl], ?_⟩
  omega

/-! ## What a lexeme spans -/

/-- A run of characters that holds no line break, taken from the front of a text. -/
def OneLine (rest : List Char) (used : Nat) : Prop :=
  used ≤ rest.length ∧ '\n' ∉ rest.take used

theorem oneLine_takeWhile {p : Char → Bool} (hp : p '\n' = false) (rest : List Char) :
    OneLine rest (rest.takeWhile p).length := by
  refine ⟨(List.takeWhile_prefix p).length_le, ?_⟩
  rw [← List.prefix_iff_eq_take.mp (List.takeWhile_prefix p)]
  intro h
  have := List.all_eq_true.mp List.all_takeWhile '\n' h
  rw [hp] at this
  cases this

theorem OneLine.append {rest : List Char} {used extra : Nat} (h : OneLine rest used)
    (h' : OneLine (rest.drop used) extra) : OneLine rest (used + extra) := by
  refine ⟨by have := h.1; have := h'.1; simp only [List.length_drop] at this; omega, ?_⟩
  rw [List.take_add]
  intro hm
  rcases List.mem_append.mp hm with hm | hm
  · exact h.2 hm
  · exact h'.2 hm

theorem oneLine_cons {c : Char} {rest : List Char} {used : Nat} (hc : c ≠ '\n')
    (h : OneLine rest used) : OneLine (c :: rest) (used + 1) := by
  refine ⟨by have := h.1; simp only [List.length_cons]; omega, ?_⟩
  rw [List.take_succ_cons]
  rintro (_ | ⟨_, hm⟩)
  · exact hc rfl
  · exact h.2 hm

theorem oneLine_numberTail (rest : List Char) : OneLine rest (numberTail rest).length := by
  have hdigits := oneLine_takeWhile (p := Text.isDecimal) (by decide) rest
  unfold numberTail
  dsimp only
  split
  · rename_i more h
    have hmore : OneLine ('.' :: more) ((more.takeWhile Text.isDecimal).length + 1) :=
      oneLine_cons (by decide) (oneLine_takeWhile (by decide) more)
    rw [← h] at hmore
    have := hdigits.append hmore
    simpa [Nat.add_comm, Nat.add_left_comm, Nat.add_assoc] using this
  · exact hdigits

theorem oneLine_wordsAfter [Numerals] : ∀ (n : Nat) (cs : List Char), cs.length = n → OneLine cs (wordsAfter cs).2 := by
  intro n
  induction n using Nat.strongRecOn with
  | _ n ih =>
  intro cs hn
  rw [wordsAfter]
  split
  · rename_i c rest h
    dsimp only
    split_ifs with hw
    · -- the spaces before the word, the word, and the words after it
      have hgap : OneLine cs (cs.takeWhile fun c => decide (c = ' ' ∨ c = '\t')).length :=
        oneLine_takeWhile (by decide) cs
      have hc : c ≠ '\n' := by
        rintro rfl
        exact absurd hw.2.1 (by decide)
      have hlen : rest.length < n := by
        have := congrArg List.length h
        simp only [List.length_drop, List.length_cons] at this
        omega
      have hmore := ih _ (Nat.lt_of_le_of_lt (by simp) hlen) (rest.drop (rest.takeWhile isWordChar).length) rfl
      have hword := (oneLine_takeWhile (p := isWordChar) (by decide) rest).append hmore
      have hall := hgap.append (h ▸ oneLine_cons hc hword)
      simp only
      rwa [show ∀ a b d : Nat, a + 1 + b + d = a + (b + d + 1) by intros; omega]
    · exact ⟨Nat.zero_le _, by simp⟩
  · exact ⟨Nat.zero_le _, by simp⟩

/-- How a lexeme read at `c`, at the given line and column, takes `used`
characters after it: a line break alone; a skip or a token within one line; a
fault raised where `c` stands. -/
inductive Spans (c : Char) (rest : List Char) (line col : Nat) : Lexeme × Nat → Prop
  | newline : c = '\n' → Spans c rest line col (.newline, 0)
  | fault {f : Fault} (used : Nat) : f.RaisedAt line col → Spans c rest line col (.fault f, used)
  | skip {used : Nat} : c ≠ '\n' → OneLine rest used → Spans c rest line col (.skip, used)
  | token (sym : Symbol) (value : String) {used : Nat} : c ≠ '\n' → OneLine rest used →
      Spans c rest line col (.token sym value, used)

theorem spans_wordLexeme [Numerals] {c : Char} (hc : isWordStart c = true) (rest : List Char) (line col : Nat) :
    Spans c rest line col (wordLexeme c rest line col) := by
  have hnl : c ≠ '\n' := by
    rintro rfl
    exact absurd hc (by decide)
  have hword := oneLine_takeWhile (p := isWordChar) (by decide) rest
  unfold wordLexeme
  dsimp only
  split
  · exact .token _ _ hnl hword
  · split_ifs
    · split
      · exact .token _ _ hnl (hword.append (oneLine_wordsAfter _ _ rfl))
      · exact .fault _ (raisedAt_lex _ line col)
      · exact .fault _ (raisedAt_missingItem line col)
    · exact .token _ _ hnl hword

/-- A pair operator's second character is `=`, `L` or `H`, never a line break. -/
theorem oneLine_pair {c : Char} {rest : List Char} {op : Symbol}
    (h : rest.head?.bind (pairOperator? c) = some op) : c ≠ '\n' ∧ OneLine rest 1 := by
  cases rest with
  | nil => cases h
  | cons d more =>
    simp only [List.head?_cons, Option.bind_some] at h
    have hcd : c ≠ '\n' ∧ d ≠ '\n' := by
      unfold pairOperator? at h
      split at h <;> cases h <;> exact ⟨by decide, by decide⟩
    refine ⟨hcd.1, by simp, ?_⟩
    simpa [eq_comm] using hcd.2

/-- Every lexeme keeps to the line of its first character, save a line break,
and every fault is raised where the lexeme starts. -/
theorem spans_lexeme [Numerals] (c : Char) (rest : List Char) (line col : Nat) :
    Spans c rest line col (lexeme c rest line col) := by
  unfold lexeme
  by_cases hskip : isSkipped c = true
  · rw [if_pos hskip]
    exact .skip (by rintro rfl; exact absurd hskip (by decide)) ⟨Nat.zero_le _, by simp⟩
  rw [if_neg hskip]
  by_cases hhash : c = '#'
  · rw [if_pos hhash]
    exact .skip (by rintro rfl; exact absurd hhash (by decide)) (oneLine_takeWhile (by decide) rest)
  rw [if_neg hhash]
  by_cases hdec : Text.isDecimal c = true
  · rw [if_pos hdec]
    exact .token _ _ (by rintro rfl; exact absurd hdec (by decide)) (oneLine_numberTail rest)
  rw [if_neg hdec]
  by_cases hdice : (c = 'd' ∨ c = 'D') ∧ (rest.head?.map Text.isDecimal).getD false = true
  · rw [if_pos hdice]
    exact .token _ _ (by rintro rfl; exact absurd hdice.1 (by decide)) ⟨Nat.zero_le _, by simp⟩
  rw [if_neg hdice]
  by_cases hword : isWordStart c = true
  · rw [if_pos hword]
    exact spans_wordLexeme hword rest line col
  rw [if_neg hword]
  split
  · rename_i op hop
    obtain ⟨hc, hone⟩ := oneLine_pair hop
    exact .token _ _ hc hone
  by_cases hop : isOperatorChar c = true
  · rw [if_pos hop]
    split
    · exact .token _ _ (by rintro rfl; exact absurd hop (by decide)) ⟨Nat.zero_le _, by simp⟩
    · exact .fault _ (raisedAt_lex _ line col)
  rw [if_neg hop]
  split_ifs with hnl
  · subst hnl
    exact .newline rfl
  · exact .fault _ (raisedAt_lex _ line col)

/-! ## Tokens in order -/

/-- The tokens start at strictly increasing indices of `cs`, from `lower` on and
below `upper`, and each carries the line and column of its index. -/
inductive Placed (cs : List Char) : Nat → Nat → List Token → Prop
  | nil {lower upper : Nat} : lower ≤ upper → Placed cs lower upper []
  | cons {lower upper i : Nat} {t : Token} {ts : List Token} : lower ≤ i → i < cs.length →
      t.line = lineAt cs i → t.col = colAt cs i → Placed cs (i + 1) upper ts →
      Placed cs lower upper (t :: ts)

theorem Placed.mono {lower upper upper' : Nat} {ts : List Token} (h : Placed cs lower upper ts)
    (hu : upper ≤ upper') : Placed cs lower upper' ts := by
  induction h with
  | nil h => exact .nil (by omega)
  | cons hi hlen hl hc _ ih => exact .cons hi hlen hl hc (ih hu)

/-- A token at the upper end of placed tokens is placed after them. -/
theorem Placed.snoc {lower k : Nat} {ts : List Token} (h : Placed cs lower k ts) {t : Token}
    (hk : k < cs.length) (hl : t.line = lineAt cs k) (hc : t.col = colAt cs k) :
    Placed cs lower (k + 1) (ts ++ [t]) := by
  induction h with
  | nil h => exact .cons h hk hl hc (.nil (Nat.le_refl _))
  | cons hi hlen hl' hc' _ ih => exact .cons hi hlen hl' hc' (ih hk hl hc)

/-- What a scan of the text `cs` gives: its tokens placed in order, then either
the end of the text at the end's position, or a fault raised at an index after
every token, a lexical one at the position of that index. -/
structure PositionsExact (cs : List Char) (r : Lexed) : Prop where
  tokens : Placed cs 0 cs.length r.tokens
  eof : ∀ t, r.stop = .ok t →
    t.symbol = .eof ∧ t.line = lineAt cs cs.length ∧ t.col = colAt cs cs.length
  fault : ∀ f, r.stop = .error f →
    ∃ i < cs.length, Placed cs 0 i r.tokens ∧ f.RaisedAt (lineAt cs i) (colAt cs i)

/-- A lexeme that keeps to one line moves the scan along that line. -/
theorem lineAt_colAt_lexeme {k used : Nat} {c : Char} {rest : List Char}
    (hdrop : cs.drop k = c :: rest) (hc : c ≠ '\n') (h : OneLine rest used) :
    k + 1 + used ≤ cs.length ∧ lineAt cs (k + 1 + used) = lineAt cs k ∧
      colAt cs (k + 1 + used) = colAt cs k + 1 + used := by
  have hlen : k + 1 + used ≤ cs.length := by
    have := congrArg List.length hdrop
    have := h.1
    simp only [List.length_drop, List.length_cons] at *
    omega
  have hline : '\n' ∉ (cs.drop k).take (1 + used) := by
    rw [hdrop, Nat.add_comm, List.take_succ_cons]
    rintro (_ | ⟨_, hm⟩)
    · exact hc rfl
    · exact h.2 hm
  obtain ⟨hl, hcol⟩ := lineAt_colAt_span (1 + used) (by omega) hline
  rw [← Nat.add_assoc] at hl hcol
  exact ⟨hlen, hl, by rw [hcol, Nat.add_assoc]⟩

/-- The scan from index `k`, at the line and column of `k`, after tokens placed
below `k`, is exact. -/
theorem scanFrom_exact [Numerals] (cs : List Char) : ∀ (n k : Nat), cs.length - k = n → k ≤ cs.length →
    ∀ found : List Token, Placed cs 0 k found.reverse →
      PositionsExact cs (scanFrom (cs.drop k) (lineAt cs k) (colAt cs k) found) := by
  intro n
  induction n using Nat.strongRecOn with
  | _ n ih =>
  intro k hn hk found hfound
  cases hdrop : cs.drop k with
  | nil =>
    -- the end of the text
    have hend : k = cs.length := by
      have := congrArg List.length hdrop
      simp only [List.length_drop, List.length_nil] at this
      omega
    subst hend
    rw [scanFrom.eq_1]
    refine ⟨hfound, ?_, ?_⟩
    · rintro t ⟨⟩
      exact ⟨rfl, rfl, rfl⟩
    · rintro _ ⟨⟩
  | cons c rest =>
    have hlt : k < cs.length := by
      have := congrArg List.length hdrop
      simp only [List.length_drop, List.length_cons] at this
      omega
    have hrest : rest = cs.drop (k + 1) := by
      rw [← List.drop_drop, hdrop, List.drop_one, List.tail_cons]
    rw [scanFrom.eq_2]
    have hsp := spans_lexeme c rest (lineAt cs k) (colAt cs k)
    generalize lexeme c rest (lineAt cs k) (colAt cs k) = r at hsp ⊢
    cases hsp with
    | newline hnl =>
      subst hnl
      have hget : cs[k]? = some '\n' := by
        have : (cs.drop k)[0]? = cs[k + 0]? := List.getElem?_drop
        rw [hdrop, Nat.add_zero] at this
        exact this.symm
      -- a line break starts the next line at column 1
      obtain ⟨hl, hcol⟩ := lineAt_colAt_break hget
      have hnext := ih _ (by omega) (k + 1) rfl hlt (⟨.newline, "\n", lineAt cs k, colAt cs k⟩ :: found)
        (by rw [List.reverse_cons]; exact hfound.snoc hlt rfl rfl)
      rw [hl, hcol, ← hrest] at hnext
      exact hnext
    | @fault f used hf =>
      refine ⟨hfound.mono (by omega), ?_, ?_⟩
      · rintro t ⟨⟩
      · rintro f' ⟨⟩
        exact ⟨k, hlt, hfound, hf⟩
    | @skip used hnl hone =>
      obtain ⟨hlen, hl, hcol⟩ := lineAt_colAt_lexeme hdrop hnl hone
      have hnext := ih _ (by omega) (k + 1 + used) rfl hlen found (hfound.mono (by omega))
      rw [hl, hcol, ← List.drop_drop, ← hrest] at hnext
      exact hnext
    | @token sym value used hnl hone =>
      obtain ⟨hlen, hl, hcol⟩ := lineAt_colAt_lexeme hdrop hnl hone
      have hnext := ih _ (by omega) (k + 1 + used) rfl hlen
        (⟨sym, value, lineAt cs k, colAt cs k⟩ :: found)
        (by rw [List.reverse_cons]; exact (hfound.snoc hlt rfl rfl).mono (by omega))
      rw [hl, hcol, ← List.drop_drop, ← hrest] at hnext
      exact hnext

/-- The scan of a whole text, from line 1 and column 1, is exact. -/
theorem scanFrom_start_exact [Numerals] (cs : List Char) : PositionsExact cs (scanFrom cs 1 1 []) := by
  have h := scanFrom_exact cs _ 0 rfl (Nat.zero_le _) [] (.nil (Nat.le_refl _))
  -- index 0 is line 1, column 1
  have hl : lineAt cs 0 = 1 := rfl
  have hc : colAt cs 0 = 1 := rfl
  rw [List.drop_zero, hl, hc] at h
  exact h

/-- Token positions are exact: every token of a command carries the line and
column of the index it starts at, the indices increase strictly, the end of
the text comes at the end's position, and a fault comes at an index after every
token, a lexical one with the line and column of that index. -/
theorem scan_positions_exact [Numerals] (source : String) : PositionsExact source.toList (Token.scan source) :=
  scanFrom_start_exact source.toList

end Token

end DiceNotation
