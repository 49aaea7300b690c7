import DiceNotation.Proofs.Canonical.Render
import DiceNotation.Proofs.Formula.Faces
/-!
# The marks after the throws

Every text the relations of `Canonical` give is a function of the mark
written after each throw.  Written with the bare mark `%`, it holds one `%`
for each throw and no other, in the order of `throws`; written with any other
mark, it is that text with each `%` replaced by the mark (`Marked`).  So the
placeholders `(%s)` of the canonical text are exactly the marks, and taking
them out gives the text written with no mark at all.
-/

namespace DiceNotation

namespace Node

open Faces

theorem not_mark_of_all {cs : List Char} (h : (cs.all fun c => c != '%') = true) :
    ∀ c ∈ cs, c ≠ '%' := by
  intro c hc
  simpa using List.all_eq_true.mp h c hc

/-- A text written with a mark after each throw, in which the marks are the only `%`. -/
def Marked (text : List Char → List Char) : Prop :=
  ∀ mark k, text mark = fillMarks (fun _ => mark) k (text ['%'])

namespace Marked

variable {f g : List Char → List Char}

theorem const {cs : List Char} (h : ∀ c ∈ cs, c ≠ '%') : Marked fun _ => cs :=
  fun _ k => (fillMarks_of_forall _ k h).symm

/-- A fixed text, checked for marks by evaluation. -/
theorem literal {cs : List Char} (h : (cs.all fun c => c != '%') = true) : Marked fun _ => cs :=
  const (not_mark_of_all h)

theorem mark : Marked fun m => m :=
  fun mark k => by rw [fillMarks_mark, fillMarks_nil, List.append_nil]

theorem append (hf : Marked f) (hg : Marked g) : Marked fun m => f m ++ g m :=
  fun mark k => by rw [fillMarks_const_append, ← hf mark k, ← hg mark k]

theorem cons {c : Char} (hc : c ≠ '%') (hf : Marked f) : Marked fun m => c :: f m :=
  fun mark k => by rw [fillMarks_other _ _ hc, ← hf mark k]

theorem enclose (needed : Prop) [Decidable needed] (hf : Marked f) :
    Marked fun m => Node.enclose needed (f m) :=
  fun mark k => by rw [fillMarks_enclose, ← hf mark k]

theorem copies (hf : Marked f) (n : Nat) :
    Marked fun m => ", ".toList.intercalate (List.replicate n (f m)) :=
  fun mark k => by
    rw [fillMarks_const_intercalate _ _ (by simp), List.map_replicate, ← hf mark k]

end Marked

theorem TagWord.not_mark {τ : String} (h : TagWord τ) : ∀ c ∈ τ.toList, c ≠ '%' := by
  obtain ⟨c, w, hτ, hc, hw⟩ := h.word
  rw [hτ]
  rintro x (_ | ⟨_, hx⟩) rfl
  · simp [Token.isWordStart, Token.isLetter] at hc
  · simpa [Token.isWordChar, Token.isLetter] using hw _ hx

theorem tagText_not_mark {g : List String} (hg : ∀ τ ∈ g, TagWord τ) :
    ∀ c ∈ Written.tagText g, c ≠ '%' := by
  induction g with
  | nil => simp
  | cons τ g ih =>
    intro c hc
    rw [Written.tagText_cons] at hc
    rcases List.mem_cons.mp hc with rfl | hc
    · decide
    rcases List.mem_append.mp hc with hc | hc
    · exact (hg τ List.mem_cons_self).not_mark c hc
    · exact ih (fun τ' h' => hg τ' (List.mem_cons_of_mem _ h')) c hc

theorem Drops.not_mark {reads : Bool} {ds : List Node} {w : List Char}
    {ts : List (Symbol × String)} {g : List String} (h : Drops reads ds w ts g) :
    ∀ c ∈ w, c ≠ '%' := by
  induction h with
  | nil => simp
  | @cons o v cs ds w ts g l k l' k' ho hv _ _ _ ih =>
    have hop : ∀ c ∈ o.text.toList, c ≠ '%' := by
      rcases ho with rfl | rfl <;> exact not_mark_of_all (by decide)
    intro c hc
    rcases List.mem_append.mp hc with hc | hc
    · rcases List.mem_append.mp hc with hc | hc
      · exact hop c hc
      · exact IsNumeral.not_mark hv c hc
    · exact ih c hc

section Canonical

variable {reads : Bool} {t : Node} {x : Written}

theorem Canonical.marked_full (h : Canonical reads t x) (hx : Marked x.text) : Marked x.full :=
  hx.append (.const (tagText_not_mark h.tagWords))

theorem Canonical.marked (h : Canonical reads t x) : Marked x.text := by
  induction h with
  | numeral hv => exact .const (IsNumeral.not_mark hv)
  | negate _ _ iha => exact (iha.enclose _).cons (by decide)
  | @binary s a b x y l k hs ha hb _ _ iha ihb =>
    exact ((iha.enclose _).append (.const (tagText_not_mark ha.tagWords))).append
      (((Marked.const (spaced_not_mark hs)).append
        (((ihb.enclose _).append (.const (tagText_not_mark hb.tagWords))).cons (by decide))).cons
        (by decide))
  | throw _ _ hd _ _ iha ihb =>
    exact (iha.enclose _).append ((((ihb.enclose _).append (.const hd.not_mark)).append .mark).cons
      (by decide))
  | conditional hc ha hb _ ihc iha ihb =>
    exact ((iha.enclose _).append (.const (tagText_not_mark ha.tagWords))).append
      ((Marked.literal (by decide)).append ((hc.marked_full ihc).append
        ((Marked.literal (by decide)).append (hb.marked_full ihb))))
  | «repeat» _ ha _ _ _ _ _ iha => exact (ha.marked_full iha).copies _

theorem count_of_not_mark {cs : List Char} (h : ∀ c ∈ cs, c ≠ '%') : cs.count '%' = 0 :=
  List.count_eq_zero.mpr fun hc => h _ hc rfl

theorem Canonical.count_full (h : Canonical reads t x) :
    (x.full ['%']).count '%' = (x.text ['%']).count '%' := by
  rw [Written.full, List.count_append, count_of_not_mark (tagText_not_mark h.tagWords),
    Nat.add_zero]

/-- Written with the bare mark, an expression holds one mark for each of its throws. -/
theorem Canonical.count_marks (h : Canonical reads t x) :
    (x.text ['%']).count '%' = x.throws.length := by
  induction h with
  | numeral hv => exact count_of_not_mark (IsNumeral.not_mark hv)
  | negate _ _ iha => simp [count_enclose, iha]
  | @binary s a b x y l k hs ha hb _ _ iha ihb =>
    simp [List.count_append, count_enclose, iha, ihb, count_of_not_mark (spaced_not_mark hs),
      count_of_not_mark (tagText_not_mark ha.tagWords),
      count_of_not_mark (tagText_not_mark hb.tagWords)]
  | throw _ _ hd _ _ iha ihb =>
    simp [List.count_append, count_enclose, iha, ihb, count_of_not_mark hd.not_mark]
  | conditional hc ha hb _ ihc iha ihb =>
    simp [List.count_append, count_enclose, iha, hc.count_full, hb.count_full, ihc, ihb,
      count_of_not_mark (tagText_not_mark ha.tagWords)]
  | «repeat» _ ha _ _ _ _ _ iha =>
    rw [count_intercalate (by simp), List.count_flatten, List.map_replicate, ha.count_full, iha]
    simp [List.length_flatten]

end Canonical

/-! ## Statements -/

mutual

theorem Statement.marked {reads : Bool} {t : Node} {x : Written} {sep cont : Bool} :
    Statement reads t x sep cont → Marked x.text
  | .expr h => h.marked_full h.marked
  | .roll h => (Marked.literal (by decide)).append h.marked
  | .block h => h.marked
  | .branch h => h.marked

theorem Block.marked {reads : Bool} {t : Node} {x : Written} : Block reads t x → Marked x.text
  | .empty => .literal (by decide)
  | .full h => ((Marked.literal (by decide)).append h.marked).append (.literal (by decide))

theorem Branch.marked {reads : Bool} {t : Node} {x : Written} : Branch reads t x → Marked x.text
  | .bare hc hb => (Marked.literal (by decide)).append
      ((hc.marked_full hc.marked).append (hb.marked.cons (by decide)))
  | .withElse hc hb ho => (Marked.literal (by decide)).append ((hc.marked_full hc.marked).append
      (((hb.marked.append (.literal (by decide))).append ho.marked).cons (by decide)))
  | .elseIf hc hb ho => (Marked.literal (by decide)).append ((hc.marked_full hc.marked).append
      (((hb.marked.append (.literal (by decide))).append ho.marked).cons (by decide)))

theorem Statements.marked {reads : Bool} {ss : List Node} {x : Written} {cont : Bool} :
    Statements reads ss x cont → Marked x.text
  | .single h => h.marked
  | .cons h hs _ _ => h.marked.append ((Marked.literal (by decide)).append hs.marked)

end

mutual

theorem Statement.count_marks {reads : Bool} {t : Node} {x : Written} {sep cont : Bool} :
    Statement reads t x sep cont → (x.text ['%']).count '%' = x.throws.length
  | .expr h => h.count_full.trans h.count_marks
  | .roll h => by simp [h.count_marks]
  | .block h => h.count_marks
  | .branch h => h.count_marks

theorem Block.count_marks {reads : Bool} {t : Node} {x : Written} :
    Block reads t x → (x.text ['%']).count '%' = x.throws.length
  | .empty => by decide
  | .full h => by simp [List.count_append, h.count_marks]

theorem Branch.count_marks {reads : Bool} {t : Node} {x : Written} :
    Branch reads t x → (x.text ['%']).count '%' = x.throws.length
  | .bare hc hb => by simp [List.count_append, hc.count_full, hc.count_marks, hb.count_marks]
  | .withElse hc hb ho => by
    simp [List.count_append, hc.count_full, hc.count_marks, hb.count_marks, ho.count_marks]
  | .elseIf hc hb ho => by
    simp [List.count_append, hc.count_full, hc.count_marks, hb.count_marks, ho.count_marks]

theorem Statements.count_marks {reads : Bool} {ss : List Node} {x : Written} {cont : Bool} :
    Statements reads ss x cont → (x.text ['%']).count '%' = x.throws.length
  | .single h => h.count_marks
  | .cons h hs _ _ => by simp [List.count_append, h.count_marks, hs.count_marks]

end

/-! ## Taking the placeholders out -/

/-- A placeholder in place of each mark is taken out whole: the only `%` of
the text are those of the placeholders, each right after its own `(`. -/
theorem unplace_fillMarks : ∀ (cs : List Char) (k : Nat),
    unplace (fillMarks (fun _ => placeholder.toList) k cs) = fillMarks (fun _ => []) k cs
  | [], _ => rfl
  | c :: cs, k => by
    by_cases hc : c = '%'
    · subst hc
      rw [fillMarks_mark, fillMarks_mark, unplace_placeholder, unplace_fillMarks cs (k + 1)]
      rfl
    rw [fillMarks_other _ _ hc, fillMarks_other _ _ hc]
    by_cases hopen : c = '('
    · subst hopen
      -- what follows the `(` starts with a placeholder's own `(` or with a character of the text
      cases cs with
      | nil => rfl
      | cons d ds =>
      by_cases hd : d = '%'
      · subst hd
        rw [fillMarks_mark, placeholder_toList, List.cons_append, unplace_open (by decide),
          ← List.cons_append, ← placeholder_toList, unplace_placeholder, fillMarks_mark,
          unplace_fillMarks]
        rfl
      · rw [fillMarks_other _ _ hd, unplace_open hd, ← fillMarks_other _ _ hd,
          unplace_fillMarks]
    · rw [unplace_cons hopen, unplace_fillMarks cs k]

/-- Taking the placeholders out of the written text leaves the text written with no mark. -/
theorem Marked.unplace {text : List Char → List Char} (h : Marked text) :
    Node.unplace (text placeholder.toList) = text [] := by
  rw [h placeholder.toList 0, unplace_fillMarks, ← h [] 0]

end Node

end DiceNotation
