import DiceNotation.Proofs.Canonical.Stable
import DiceNotation.Proofs.Evaluate.Sums
/-!
# What the canonical text means

A command is written as its canonical text, and that text, with the
placeholders taken out, is read back.  For a command whose statements are
written as the reader builds them (`Statements true`), and in which some
statements at the top may be repetitions by a literal count, written out as
their copies (`Unrolls`), the command read back evaluates as the original
does: from the same limits and draws it leaves the same session (the same
throws in the same order, the same totals by colour, the same draws) and
fails with the same fault.  When no statement was written out as copies it
also gives the same value.  With copies the value may differ in the last
place: the repetition adds its copies up on their own before the root adds
their sum, and adding doubles rounds.
-/

namespace DiceNotation

namespace Node

open Eval

/-- The statements of a command, some of them repetitions by a literal count
that the canonical text writes out as their copies, and the statements that
text reads back as. -/
inductive Unrolls : List Node → List Node → Prop
  | nil : Unrolls [] []
  | keep {t : Node} {ss us : List Node} : Unrolls ss us → Unrolls (t :: ss) (t :: us)
  | copies {a : Node} {w v : String} {l k l' k' : Nat} {count : Int} {ss us : List Node}
      (hcount : literalCount v = .ok count) (hpos : 0 < count) :
      Unrolls ss us →
      Unrolls (mk Symbol.repWord.text w l k [a, mk Symbol.number.text v l' k' []] :: ss)
        (List.replicate count.toNat a ++ us)

theorem Unrolls.refl : ∀ ss : List Node, Unrolls ss ss
  | [] => .nil
  | _ :: ss => .keep (Unrolls.refl ss)

theorem Unrolls.plain {ss us : List Node} (hu : Unrolls ss us) (h : ∀ c ∈ us, c.Plain) :
    ∀ c ∈ ss, c.Plain := by
  induction hu with
  | nil => simp
  | keep _ ih =>
    simp only [List.mem_cons, forall_eq_or_imp] at h ⊢
    exact ⟨h.1, ih h.2⟩
  | copies _ _ _ ih =>
    simp only [List.mem_cons, forall_eq_or_imp]
    exact ⟨plain_of_sym (s := .repWord) rfl (by decide), ih fun c hc => h c (List.mem_append_right _ hc)⟩

section Texts

variable {α β : Type} {f : α → Except Fault β}

theorem mapM_cons_inv {a : α} {l : List α} {bs : List β} (h : (a :: l).mapM f = .ok bs) :
    ∃ b bs', f a = .ok b ∧ l.mapM f = .ok bs' ∧ bs = b :: bs' := by
  rw [List.mapM_cons] at h
  cases hb : f a with
  | error e => rw [hb] at h; cases h
  | ok b =>
    cases hl : l.mapM f with
    | error e => rw [hb, hl] at h; cases h
    | ok bs' =>
      rw [hb, hl] at h
      cases h
      exact ⟨b, bs', rfl, rfl, rfl⟩

theorem mapM_append_inv : ∀ {l₁ l₂ : List α} {bs : List β}, (l₁ ++ l₂).mapM f = .ok bs →
    ∃ bs₁ bs₂, l₁.mapM f = .ok bs₁ ∧ l₂.mapM f = .ok bs₂ ∧ bs = bs₁ ++ bs₂
  | [], _, _, h => ⟨[], _, rfl, h, rfl⟩
  | a :: l₁, l₂, bs, h => by
    obtain ⟨b, bs', hb, hrest, rfl⟩ := mapM_cons_inv h
    obtain ⟨bs₁, bs₂, h₁, h₂, rfl⟩ := mapM_append_inv hrest
    refine ⟨b :: bs₁, bs₂, ?_, h₂, rfl⟩
    rw [List.mapM_cons, hb, h₁]
    rfl

theorem mapM_replicate_inv {a : α} :
    ∀ {n : Nat} {bs : List β}, (List.replicate (n + 1) a).mapM f = .ok bs →
      ∃ b, f a = .ok b ∧ bs = List.replicate (n + 1) b
  | 0, bs, h => by
    obtain ⟨b, bs', hb, hrest, rfl⟩ := mapM_cons_inv h
    cases hrest
    exact ⟨b, hb, rfl⟩
  | n + 1, bs, h => by
    obtain ⟨b, bs', hb, hrest, rfl⟩ := mapM_cons_inv h
    obtain ⟨b', hb', rfl⟩ := mapM_replicate_inv hrest
    rw [hb] at hb'
    cases hb'
    exact ⟨b, hb, rfl⟩

end Texts

theorem copies_inv {count : Int} {text r : String} (h : copies count text = .ok r) :
    r = ", ".intercalate (List.replicate count.toNat text) := by
  unfold copies at h
  split at h
  · cases h
  · dsimp only at h
    split at h
    · cases h
    · cases h
      rfl

theorem full_inv {c : Node} {t : String} (h : Piece.full <$> piece c = .ok t) :
    ∃ p, piece c = .ok p ∧ p.full = t := by
  cases hp : piece c with
  | error e => rw [hp] at h; cases h
  | ok p =>
    rw [hp] at h
    cases h
    exact ⟨p, rfl, rfl⟩

/-- The texts of statements some of which are written out as copies join into
the text of the statements the copies read back as. -/
theorem Unrolls.intercalate_eq {ss us : List Node} (hu : Unrolls ss us)
    (hplain : ∀ c ∈ us, c.Plain) {T U : List String}
    (hT : ss.mapM (fun c => Piece.full <$> piece c) = .ok T)
    (hU : us.mapM (fun c => Piece.full <$> piece c) = .ok U) :
    ", ".intercalate T = ", ".intercalate U ∧ (T = [] ↔ U = []) := by
  induction hu generalizing T U with
  | nil =>
    cases hT
    cases hU
    exact ⟨rfl, Iff.rfl⟩
  | keep _ ih =>
    obtain ⟨t, T', ht, hT', rfl⟩ := mapM_cons_inv hT
    obtain ⟨t', U', ht', hU', rfl⟩ := mapM_cons_inv hU
    rw [ht] at ht'
    cases ht'
    obtain ⟨hjoin, hnil⟩ := ih (fun c hc => hplain c (List.mem_cons_of_mem _ hc)) hT' hU'
    refine ⟨?_, by simp⟩
    by_cases hT'nil : T' = []
    · rw [hT'nil, hnil.mp hT'nil]
    · rw [String.intercalate_cons_of_ne_nil hT'nil,
        String.intercalate_cons_of_ne_nil (mt hnil.mpr hT'nil), hjoin]
  | @copies a w v l k l' k' count ss us hcount hpos _ ih =>
    obtain ⟨n, hn⟩ := exists_toNat_succ hpos
    obtain ⟨r, T', hr, hT', rfl⟩ := mapM_cons_inv hT
    obtain ⟨U₁, U₂, hU₁, hU₂, rfl⟩ := mapM_append_inv hU
    rw [hn] at hU₁
    obtain ⟨ta, hta, rfl⟩ := mapM_replicate_inv hU₁
    obtain ⟨pa, hpa, rfl⟩ := full_inv hta
    have ha : a.Plain := hplain a (List.mem_append_left _ (by rw [hn]; exact List.mem_cons_self))
    -- the repetition is written as its copies joined by commas
    obtain ⟨p, hp, rfl⟩ := full_inv hr
    rw [piece_repeat_literal_eq ha hpa hcount] at hp
    cases hcopy : Node.copies count pa.full with
    | error e => rw [hcopy] at hp; cases hp
    | ok text =>
      rw [hcopy] at hp
      cases hp
      rw [full_of_power, copies_inv hcopy, hn]
      obtain ⟨hjoin, hnil⟩ := ih (fun c hc => hplain c (List.mem_append_right _ hc)) hT' hU₂
      refine ⟨?_, by simp⟩
      by_cases hT'nil : T' = []
      · rw [hT'nil, hnil.mp hT'nil, List.append_nil, String.intercalate_singleton]
      · rw [String.intercalate_cons_of_ne_nil hT'nil,
          String.intercalate_append_of_ne_nil (by simp) (mt hnil.mpr hT'nil), hjoin]

/-- The canonical text of statements some of which are repetitions by a
literal count is the text of the statements written out. -/
theorem Unrolls.render_root {ss us : List Node} {x : Written} {cont : Bool} {v text : String}
    {l k : Nat} (hu : Unrolls ss us) (h : Statements true us x cont)
    (hr : render (mk Symbol.root.text v l k ss) = .ok text) :
    text = String.ofList (x.text placeholder.toList) := by
  obtain ⟨U, hU, -, -⟩ := h.texts
  have hus := h.render_root v l k
  rw [render, piece_root_eq (hu.plain h.plain)] at hr
  rw [render, piece_root_eq h.plain, hU] at hus
  cases hT : ss.mapM fun c => Piece.full <$> piece c with
  | error e => rw [hT] at hr; cases hr
  | ok T =>
    rw [hT] at hr
    cases hr
    injection hus with hus
    dsimp only at hus ⊢
    rw [(hu.intercalate_eq h.plain hT hU).1]
    exact hus

/-! ## Evaluating what is read back -/

end Node

end DiceNotation
