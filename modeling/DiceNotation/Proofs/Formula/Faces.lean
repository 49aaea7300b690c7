import DiceNotation.Node.Faces
import DiceNotation.Proofs.Formula.Spelling
/-!
# Filling the placeholders of a written text

`Faces.fill` cuts a text at its placeholders `%s` and puts the faces of the
throws, in order, between the pieces.  A text written with a bare mark `%`
after each throw, and then with the placeholder `(%s)` in place of each mark,
fills as the text written with the k-th throw's faces, in parentheses, in
place of the k-th mark, and `?` in place of the marks beyond the last throw
(`Faces.fill_fillMarks`).
-/

namespace DiceNotation

namespace Faces

/-- A text with its `%` marks replaced in order by `marks k`, `marks (k + 1)`, .... -/
def fillMarks (marks : Nat → List Char) : Nat → List Char → List Char
  | _, [] => []
  | k, '%' :: rest => marks k ++ fillMarks marks (k + 1) rest
  | k, c :: rest => c :: fillMarks marks k rest

/-- The pieces after the first, each after what the `k`-th placeholder shows. -/
def weaveFrom (shown : Nat → List Char) : Nat → List (List Char) → List Char
  | _, [] => []
  | k, p :: ps => shown k ++ p ++ weaveFrom shown (k + 1) ps

/-- What the `k`-th placeholder shows: the faces of the `k`-th throw, or `?`. -/
def shown (throws : List (List Int)) (k : Nat) : List Char :=
  match throws[k]? with
  | some faces => (text faces).toList
  | none => ['?']

theorem pieces_cons {c : Char} (hc : c ≠ '%') {cs first : List Char} {others : List (List Char)}
    (h : pieces cs = first :: others) : pieces (c :: cs) = (c :: first) :: others := by
  unfold pieces
  split
  · rename_i heq
    cases heq
  · rename_i heq
    cases heq
    exact absurd rfl hc
  · rename_i heq
    cases heq
    rw [h]

@[simp] theorem fillMarks_nil (marks : Nat → List Char) (k : Nat) : fillMarks marks k [] = [] := rfl

theorem fillMarks_mark (marks : Nat → List Char) (k : Nat) (rest : List Char) :
    fillMarks marks k ('%' :: rest) = marks k ++ fillMarks marks (k + 1) rest := by
  rw [fillMarks]

theorem fillMarks_other (marks : Nat → List Char) (k : Nat) {c : Char} (hc : c ≠ '%')
    (rest : List Char) : fillMarks marks k (c :: rest) = c :: fillMarks marks k rest := by
  rw [fillMarks]
  exact fun h => hc h

theorem placeholder_toList : Node.placeholder.toList = ['(', '%', 's', ')'] := by
  decide

/-- Marks written as placeholders cut the text into the pieces that, woven with
what each placeholder shows, give the marks written as those, in parentheses. -/
theorem weave_pieces_fillMarks (g : Nat → List Char) :
    ∀ (x : List Char) (k : Nat), ∃ first others,
      pieces (fillMarks (fun _ => ['(', '%', 's', ')']) k x) = first :: others ∧
        first ++ weaveFrom g k others = fillMarks (fun j => '(' :: g j ++ [')']) k x
  | [], k => ⟨[], [], by simp [fillMarks, pieces], by simp [fillMarks, weaveFrom]⟩
  | c :: x, k => by
    by_cases hc : c = '%'
    · subst hc
      obtain ⟨first, others, hp, hw⟩ := weave_pieces_fillMarks g x (k + 1)
      -- the placeholder ends the first piece with `(` and starts the next with `)`
      have hclose := pieces_cons (c := ')') (by decide) hp
      have hopen : pieces ('%' :: 's' :: ')' :: fillMarks (fun _ => ['(', '%', 's', ')']) (k + 1) x) =
          [] :: (')' :: first) :: others := by
        rw [← hclose]
        rfl
      refine ⟨['('], (')' :: first) :: others, ?_, ?_⟩
      · rw [fillMarks_mark]
        exact pieces_cons (by decide) hopen
      · rw [fillMarks_mark, ← hw]
        simp [weaveFrom]
    · obtain ⟨first, others, hp, hw⟩ := weave_pieces_fillMarks g x k
      refine ⟨c :: first, others, ?_, ?_⟩
      · rw [fillMarks_other _ _ hc]
        exact pieces_cons hc hp
      · rw [fillMarks_other _ _ hc, ← hw]
        rfl

theorem weaveFrom_succ (g : Nat → List Char) :
    ∀ (k : Nat) (ps : List (List Char)), weaveFrom g (k + 1) ps = weaveFrom (fun i => g (i + 1)) k ps
  | _, [] => rfl
  | k, p :: ps => by
    rw [weaveFrom, weaveFrom, weaveFrom_succ g (k + 1) ps]

theorem join_zipWith_shown :
    ∀ (ps : List (List Char)) (throws : List (List Int)),
      String.join (List.zipWith (fun f p => f ++ String.ofList p)
          (throws.map text ++ List.replicate (ps.length - throws.length) "?") ps) =
        String.ofList (weaveFrom (shown throws) 0 ps)
  | [], throws => by simp [weaveFrom]
  | p :: ps, [] => by
    have ih := join_zipWith_shown ps []
    have hshift : (fun i => shown [] (i + 1)) = shown [] := rfl
    simp only [List.map_nil, List.nil_append, List.length_cons, List.length_nil, Nat.sub_zero,
      List.replicate_succ, List.zipWith_cons_cons, String.join_cons] at ih ⊢
    rw [ih, weaveFrom, weaveFrom_succ, hshift]
    simp [shown, String.ofList_append, String.append_assoc]
  | p :: ps, faces :: throws => by
    have ih := join_zipWith_shown ps throws
    have hshift : (fun i => shown (faces :: throws) (i + 1)) = shown throws := rfl
    simp only [List.map_cons, List.cons_append, List.length_cons, Nat.add_sub_add_right,
      List.zipWith_cons_cons, String.join_cons] at ih ⊢
    rw [ih, weaveFrom, weaveFrom_succ, hshift]
    simp [shown, String.ofList_append, String.append_assoc]

/-- Filling a text whose placeholders stand where its marks were writes, in
place of the `k`-th mark, what the `k`-th placeholder shows, in parentheses. -/
theorem fill_fillMarks (x : List Char) (throws : List (List Int)) :
    fill (String.ofList (fillMarks (fun _ => Node.placeholder.toList) 0 x)) throws =
      String.ofList (fillMarks (fun k => '(' :: shown throws k ++ [')']) 0 x) := by
  obtain ⟨first, others, hp, hw⟩ := weave_pieces_fillMarks (shown throws) x 0
  rw [placeholder_toList, fill, String.toList_ofList, hp, ← hw]
  simp only [join_zipWith_shown, String.ofList_append]

/-! ## Marks written as one text -/

theorem fillMarks_of_forall (marks : Nat → List Char) (k : Nat) :
    ∀ {xs : List Char}, (∀ c ∈ xs, c ≠ '%') → fillMarks marks k xs = xs
  | [], _ => rfl
  | c :: xs, h => by
    rw [fillMarks_other _ _ (h c (by simp)), fillMarks_of_forall marks k fun x hx => h x (by simp [hx])]

/-- With the same mark for every throw, where the counting starts plays no part. -/
theorem fillMarks_const (mark : List Char) :
    ∀ (k k' : Nat) (xs : List Char), fillMarks (fun _ => mark) k xs = fillMarks (fun _ => mark) k' xs
  | _, _, [] => rfl
  | k, k', c :: xs => by
    by_cases hc : c = '%'
    · subst hc
      rw [fillMarks_mark, fillMarks_mark, fillMarks_const mark (k + 1) (k' + 1) xs]
    · rw [fillMarks_other _ _ hc, fillMarks_other _ _ hc, fillMarks_const mark k k' xs]

theorem fillMarks_const_append (mark : List Char) (k : Nat) :
    ∀ xs ys : List Char, fillMarks (fun _ => mark) k (xs ++ ys) =
      fillMarks (fun _ => mark) k xs ++ fillMarks (fun _ => mark) k ys
  | [], ys => rfl
  | c :: xs, ys => by
    by_cases hc : c = '%'
    · subst hc
      rw [List.cons_append, fillMarks_mark, fillMarks_mark, fillMarks_const_append mark (k + 1),
        fillMarks_const mark (k + 1) k ys, List.append_assoc]
    · rw [List.cons_append, fillMarks_other _ _ hc, fillMarks_other _ _ hc,
        fillMarks_const_append mark k, List.cons_append]

theorem fillMarks_const_intercalate (mark : List Char) (k : Nat) {sep : List Char}
    (hsep : ∀ c ∈ sep, c ≠ '%') :
    ∀ xs : List (List Char), fillMarks (fun _ => mark) k (sep.intercalate xs) =
      sep.intercalate (xs.map (fillMarks (fun _ => mark) k))
  | [] => rfl
  | [x] => by simp
  | x :: y :: xs => by
    rw [List.intercalate_cons_cons, fillMarks_const_append, fillMarks_const_append,
      fillMarks_of_forall _ _ hsep, fillMarks_const_intercalate mark k hsep (y :: xs)]
    simp

theorem count_intercalate {sep : List Char} (hsep : ∀ c ∈ sep, c ≠ '%') :
    ∀ xs : List (List Char), (sep.intercalate xs).count '%' = xs.flatten.count '%'
  | [] => rfl
  | [x] => by simp
  | x :: y :: xs => by
    rw [List.intercalate_cons_cons, List.count_append, List.count_append,
      List.count_eq_zero.mpr fun h => hsep _ h rfl, count_intercalate hsep (y :: xs)]
    simp [List.count_append]

end Faces

namespace Node

open Faces

theorem fillMarks_enclose (mark : List Char) (k : Nat) (needed : Prop) [Decidable needed]
    (xs : List Char) :
    fillMarks (fun _ => mark) k (enclose needed xs) = enclose needed (fillMarks (fun _ => mark) k xs) := by
  unfold enclose
  split
  · rw [List.cons_append, fillMarks_other _ _ (by decide), fillMarks_const_append,
      show fillMarks (fun _ => mark) k [')'] = [')'] from rfl, List.cons_append]
  · rfl

theorem IsNumeral.not_mark {v : List Char} (hv : IsNumeral v) : ∀ c ∈ v, c ≠ '%' := by
  obtain ⟨whole, fraction, rfl, -, hd, hf⟩ := hv
  intro c hc
  rintro rfl
  rcases List.mem_append.mp hc with hc | hc
  · exact absurd (hd _ hc) (by decide)
  · rcases hf with rfl | ⟨more, rfl, hm⟩
    · simp at hc
    · rcases List.mem_cons.mp hc with hc | hc
      · exact absurd hc (by decide)
      · exact absurd (hm _ hc) (by decide)

theorem spaced_not_mark {s : Symbol} (hs : s ∈ Symbol.spacedOperators) : ∀ c ∈ s.text.toList, c ≠ '%' := by
  revert s
  simp [Symbol.spacedOperators, Symbol.text]

theorem count_enclose (needed : Prop) [Decidable needed] (xs : List Char) :
    (enclose needed xs).count '%' = xs.count '%' := by
  unfold enclose
  split <;> simp

end Node

end DiceNotation
