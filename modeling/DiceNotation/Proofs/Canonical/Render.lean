import DiceNotation.Proofs.Canonical.Grammar
/-!
# The canonical text of a command

`Node.render` writes each node from the pieces of its children.  For a tree
that `Canonical` or `Statements` describes it writes exactly the text the
relation gives, with the placeholder `(%s)` after every throw: the piece of an
expression is its text, its binding power and its tags
(`Canonical.piece_eq`), and the text of a command is its statements joined by
commas (`Statements.render_root`).
-/

namespace DiceNotation

namespace Node

/-! ## Sorting children into operands, tags and drops -/

section Parts

variable {α : Type} (get : α → Node)

theorem parts_of_cons_plain {a : α} (ha : (get a).Plain) (l : List α) :
    Parts.of get (a :: l) = { Parts.of get l with operands := a :: (Parts.of get l).operands } := by
  obtain ⟨h1, h2, h3⟩ := ha
  simp [Parts.of, h1, h2, h3]

theorem parts_of_tags : ∀ {l : List α}, (∀ a ∈ l, (get a).sym = Symbol.ident.text) →
    Parts.of get l = ⟨[], l.map fun a => Text.capitalize (get a).value, []⟩
  | [], _ => rfl
  | a :: l, h => by
    rw [Parts.of, parts_of_tags fun x hx => h x (List.mem_cons_of_mem _ hx)]
    simp [h a List.mem_cons_self]

theorem parts_of_drops : ∀ {l : List α},
    (∀ a ∈ l, (get a).sym = Symbol.dropHighest.text ∨ (get a).sym = Symbol.dropLowest.text) →
    Parts.of get l = ⟨[], [], l⟩
  | [], _ => rfl
  | a :: l, h => by
    have hd := h a List.mem_cons_self
    have hi : (get a).sym ≠ Symbol.ident.text := by
      rcases hd with hd | hd <;> rw [hd] <;> decide
    rw [Parts.of, parts_of_drops fun x hx => h x (List.mem_cons_of_mem _ hx)]
    simp [hi, hd]

end Parts

theorem TagLeaf.plain_ne {c : Node} (h : TagLeaf c) : c.sym = Symbol.ident.text := h.sym

theorem Drops.syms {reads : Bool} {ds : List Node} {w : List Char} {ts : List (Symbol × String)}
    {g : List String} (h : Drops reads ds w ts g) :
    ∀ d ∈ ds, d.sym = Symbol.dropHighest.text ∨ d.sym = Symbol.dropLowest.text := by
  induction h with
  | nil => simp
  | cons ho _ _ _ _ ih =>
    intro d hd
    rcases List.mem_cons.mp hd with rfl | hd
    · rcases ho with rfl | rfl <;> simp
    · exact ih d hd

/-! ## Pieces of numerals, drops and throws -/

theorem intercalate_tags (x : List Char) (tags : List String) :
    [' '].intercalate (x :: tags.map String.toList) = x ++ Written.tagText tags := by
  induction tags generalizing x with
  | nil => simp
  | cons τ tags ih =>
    rw [List.map_cons, List.intercalate_cons_cons, ih, Written.tagText_cons]
    simp

theorem withTags_toList (text : String) (tags : List String) :
    (Piece.withTags text tags).toList = text.toList ++ Written.tagText tags := by
  rw [Piece.withTags, String.toList_intercalate, List.map_cons]
  exact intercalate_tags _ _

theorem piece_numeral {v : String} {cs : List Node} {l k : Nat} (hcs : ∀ c ∈ cs, TagLeaf c) :
    piece (mk Symbol.number.text v l k cs) = .ok ⟨v, Symbol.tagPower, cs.map value⟩ := by
  have htags : cs.attach.map (fun c => Text.capitalize c.1.value) = cs.map value := by
    simpa using fun c hc => (hcs c hc).capitalized
  rw [piece_eq]
  unfold pieceWith
  rw [parts_of_tags _ fun c _ => (hcs c.1 c.2).sym]
  simp only [sym_mk, children_mk, value_mk, if_true, List.foldlM_nil, htags]
  show (Except.ok (⟨v ++ "", Symbol.tagPower, [] ++ cs.map value⟩ : Piece) : Except Fault Piece) = _
  rw [String.append_empty, List.nil_append]

theorem asOperand_of_lt {text : String} {strength power : Nat} {tags : List String}
    (h : power < strength) (right : Bool) :
    (⟨text, strength, tags⟩ : Piece).asOperand power right = (text, tags) := by
  unfold Piece.asOperand
  rw [if_neg (by simp only; omega)]

/-- The text of the drops of a throw and the tags after the last count, as the
steps of the fold that writes them give it. -/
theorem foldlM_drops {reads : Bool} {α : Type} {get : α → Node}
    {f : String × List String → α → Except Fault (String × List String)}
    (hf : ∀ acc d c, (get d).children = [c] → f acc d =
      (fun p => (acc.1 ++ (get d).sym ++ (p.asOperand Symbol.dropHighest.bindingPower true).1,
        acc.2 ++ (p.asOperand Symbol.dropHighest.bindingPower true).2)) <$> piece c)
    {ds : List Node} {w : List Char} {ts : List (Symbol × String)} {g : List String}
    (hd : Drops reads ds w ts g) :
    ∀ {L : List α}, L.map get = ds → ∀ acc : String × List String,
      L.foldlM f acc = .ok (acc.1 ++ String.ofList w, acc.2 ++ g) := by
  induction hd with
  | nil =>
    intro L hL acc
    rw [List.map_eq_nil_iff.mp hL]
    simp [List.foldlM_nil, pure, Except.pure]
  | @cons o v cs ds w ts g l k l' k' ho hv hcs _ _ ih =>
    intro L hL acc
    obtain ⟨d, L', rfl, hd, hL'⟩ := List.map_eq_cons_iff.mp hL
    have hstep : f acc d = .ok (acc.1 ++ o.text ++ v, acc.2 ++ cs.map value) := by
      rw [hf acc d _ (by rw [hd]; rfl), piece_numeral hcs]
      simp only [Functor.map, Except.map, hd, sym_mk,
        asOperand_of_lt (show Symbol.dropHighest.bindingPower < Symbol.tagPower by decide)]
    rw [List.foldlM_cons, hstep]
    show L'.foldlM f (acc.1 ++ o.text ++ v, acc.2 ++ cs.map value) = _
    rw [ih hL']
    simp [String.append_assoc]

/-- The children of a node as the writer walks them: the first two as operands
and the rest as drops. -/
theorem parts_of_throw {a b : Node} {ds : List Node} (ha : a.Plain) (hb : b.Plain)
    (hds : ∀ d ∈ ds, d.sym = Symbol.dropHighest.text ∨ d.sym = Symbol.dropLowest.text) :
    ∃ x y L, (a :: b :: ds).attach = x :: y :: L ∧ x.1 = a ∧ y.1 = b ∧ L.map Subtype.val = ds ∧
      Parts.of Subtype.val (a :: b :: ds).attach = ⟨[x, y], [], L⟩ := by
  have hmap := List.attach_map_subtype_val (a :: b :: ds)
  obtain ⟨x, rest, hA, hx, hrest⟩ := List.map_eq_cons_iff.mp hmap
  obtain ⟨y, L, rfl, hy, hL⟩ := List.map_eq_cons_iff.mp hrest
  refine ⟨x, y, L, hA, hx, hy, hL, ?_⟩
  rw [hA, parts_of_cons_plain _ (by rw [hx]; exact ha), parts_of_cons_plain _ (by rw [hy]; exact hb),
    parts_of_drops _ fun d hd => hds d.1 (by
      have hm := List.mem_map_of_mem (f := Subtype.val) hd
      rwa [hL] at hm)]

theorem piece_throw_drops {reads : Bool} {a b : Node} {ds : List Node} {w : List Char}
    {ts : List (Symbol × String)} {g : List String} {pa pb : Piece} {v : String} {l k : Nat}
    (ha : a.Plain) (hb : b.Plain) (hd : Drops reads ds w ts g) (hpa : piece a = .ok pa)
    (hpb : piece b = .ok pb) :
    piece (mk Symbol.dice.text v l k (a :: b :: ds)) =
      .ok ⟨(pa.asOperand Symbol.dice.bindingPower false).1 ++ "d" ++
        (pb.asOperand Symbol.dice.bindingPower true).1 ++ String.ofList w ++ placeholder,
        Symbol.dice.bindingPower, pa.tags ++ pb.tags ++ g⟩ := by
  obtain ⟨x, y, L, hA, hx, hy, hL, hparts⟩ := parts_of_throw ha hb hd.syms
  rw [piece_eq]
  unfold pieceWith
  simp only [children_mk, sym_mk, hparts, Symbol.text_inj, reduceCtorEq, if_false, if_true, hx, hy,
    hpa, hpb, bindingPower, Symbol.powerOfText_text]
  rw [foldlM_drops (fun acc d c hc => ?_) hd hL]
  · simp [Functor.map, Except.map, bind, Except.bind, pure, Except.pure, asOperand_snd]
  · obtain ⟨⟨s, v, l, k, cs⟩, hmem⟩ := d
    simp only [children] at hc
    subst hc
    rfl

theorem piece_repeat_literal_eq {a : Node} {pa : Piece} {v w : String} {count : Int}
    {l k l' k' : Nat} (ha : a.Plain) (hpa : piece a = .ok pa) (hcount : literalCount v = .ok count) :
    piece (mk Symbol.repWord.text w l k [a, mk Symbol.number.text v l' k' []]) =
      (fun text => ⟨text, Symbol.repWord.bindingPower, []⟩) <$> copies count pa.full := by
  have hkind : (Symbol.repWord.isArithmetic || Symbol.repWord.isComparison) = false := rfl
  rw [piece_eq]
  unfold pieceWith
  have hcount' : Plain (mk Symbol.number.text v l' k' []) := by simp [Plain, Symbol.text]
  rw [parts_of_children (by simpa using And.intro ha hcount')]
  simp only [sym_mk, children_mk, value_mk, bindingPower, Symbol.text_inj, reduceCtorEq, if_false,
    if_true, false_and, Symbol.ofText?_text, Option.map_some, Option.getD_some, hkind,
    Bool.false_eq_true, List.attach_cons, List.attach_nil, List.map_cons, List.map_nil, hpa,
    Symbol.powerOfText_text, List.isEmpty_nil, and_self, hcount]
  simp only [Functor.map, Except.map, bind, Except.bind]
  cases copies count pa.full <;> rfl

theorem piece_repeat_literal {a : Node} {pa : Piece} {v w : String} {count : Int}
    {l k l' k' : Nat} (ha : a.Plain) (hpa : piece a = .ok pa) (hcount : literalCount v = .ok count)
    (hfit : Value.fitsWord count = true)
    (hmem : ¬(memoryLimit < 8 * count.toNat ∨ memoryLimit < count.toNat * (pa.full.utf8ByteSize + 2))) :
    piece (mk Symbol.repWord.text w l k [a, mk Symbol.number.text v l' k' []]) =
      .ok ⟨", ".intercalate (List.replicate count.toNat pa.full), Symbol.repWord.bindingPower, []⟩ := by
  rw [piece_repeat_literal_eq ha hpa hcount, copies, if_neg (by simp [hfit]), if_neg hmem]
  rfl

/-! ## The piece of an expression -/

theorem Written.full_piece (x : Written) (mark : List Char) (power : Nat) :
    Piece.full ⟨String.ofList (x.text mark), power, x.tags⟩ = String.ofList (x.full mark) :=
  String.ext (by simp [Piece.full, Written.full, withTags_toList])

theorem Canonical.sym_ne {reads : Bool} {t : Node} {x : Written} (h : Canonical reads t x) :
    t.sym ≠ Symbol.ident.text ∧ t.sym ≠ Symbol.dropHighest.text ∧
      t.sym ≠ Symbol.dropLowest.text ∧ t.sym ≠ Symbol.openBrace.text := by
  cases h with
  | @binary s a b x y l k hs =>
    simp only [sym_mk, ne_eq, Symbol.text_inj]
    refine ⟨?_, ?_, ?_, ?_⟩ <;> rintro rfl <;> simp [Symbol.spacedOperators] at hs
  | _ => simp [Symbol.text]

theorem Canonical.plain {reads : Bool} {t : Node} {x : Written} (h : Canonical reads t x) :
    t.Plain :=
  ⟨h.sym_ne.1, h.sym_ne.2.1, h.sym_ne.2.2.1⟩

/-- The piece of an expression is its text, with a placeholder after every
throw, its binding power and its tags. -/
theorem Canonical.piece_eq {reads : Bool} {t : Node} {x : Written} (h : Canonical reads t x) :
    piece t = .ok ⟨String.ofList (x.text placeholder.toList), x.power, x.tags⟩ := by
  induction h with
  | numeral hv hcs =>
    rw [piece_numeral hcs, String.ofList_toList]
  | negate ha _ iha =>
    rw [piece_negate ha.plain iha, asOperand_left]
    congr 2
    exact String.ext (by simp)
  | @binary s a b x y l k hs ha hb _ _ iha ihb =>
    rw [piece_spaced hs ha.plain hb.plain iha ihb, asOperand_left, asOperand_right]
    congr 2
    apply String.ext
    simp [withTags_toList]
  | throw ha hb hd _ _ iha ihb =>
    rw [piece_throw_drops ha.plain hb.plain hd iha ihb, asOperand_left, asOperand_right]
    congr 2
    apply String.ext
    simp [placeholder]
  | @conditional c a b z x y l k hc ha hb _ ihc iha ihb =>
    rw [piece_conditional hc.plain ha.plain hb.plain ha.sym_ne.2.2.2 ihc iha ihb, asOperand_right]
    congr 2
    apply String.ext
    simp [withTags_toList, Piece.full, Written.full]
  | @«repeat» a x v count l k l' k' _ ha hv hcount hpos hfit hmem iha =>
    rw [piece_repeat_literal ha.plain iha hcount hfit (by rwa [Written.full_piece]),
      Written.full_piece]
    congr 2
    apply String.ext
    simp

/-! ## Pieces of statements -/

section Statements

variable {v : String} {l k : Nat}

theorem mapM_full_attach (ss : List Node) :
    ss.attach.mapM (fun c : { c // c ∈ ss } => Piece.full <$> piece c.1) =
      ss.mapM fun s => Piece.full <$> piece s := by
  rw [List.mapM_subtype (g := fun s => Piece.full <$> piece s) fun _ _ => rfl, List.unattach_attach]

theorem piece_roll {a : Node} {text : String} (ha : a.Plain)
    (h : Piece.full <$> piece a = .ok text) :
    piece (mk Symbol.rollWord.text v l k [a]) = .ok ⟨"Roll " ++ text, 0, []⟩ := by
  have hkind : (Symbol.rollWord.isArithmetic || Symbol.rollWord.isComparison) = false := rfl
  rw [piece_eq]
  unfold pieceWith
  rw [parts_of_children (by simp [children, ha])]
  simp only [sym_mk, children_mk, Symbol.text_inj, reduceCtorEq, if_false, if_true, false_and,
    Symbol.ofText?_text, Option.map_some, Option.getD_some, hkind, Bool.false_eq_true,
    List.attach_cons, List.attach_nil, List.map_nil]
  rw [show (Piece.full <$> piece a) = .ok text from h]
  rfl

theorem piece_block_nil :
    piece (mk Symbol.openBrace.text v l k []) = .ok ⟨"\x7b \x7d", 0, []⟩ := by
  have hkind : (Symbol.openBrace.isArithmetic || Symbol.openBrace.isComparison) = false := rfl
  rw [piece_eq]
  unfold pieceWith
  simp only [Parts.of, sym_mk, children_mk, Symbol.text_inj, reduceCtorEq, if_false, if_true,
    false_and, Symbol.ofText?_text, Option.map_some, Option.getD_some, hkind, Bool.false_eq_true,
    List.attach_nil]
  rfl

theorem piece_block {s : Node} {ss : List Node} {texts : List String}
    (hss : ∀ c ∈ s :: ss, c.Plain) (h : (s :: ss).mapM (fun c => Piece.full <$> piece c) = .ok texts) :
    piece (mk Symbol.openBrace.text v l k (s :: ss)) =
      .ok ⟨"\x7b " ++ ", ".intercalate texts ++ " \x7d", 0, []⟩ := by
  have hkind : (Symbol.openBrace.isArithmetic || Symbol.openBrace.isComparison) = false := rfl
  rw [piece_eq]
  unfold pieceWith
  rw [parts_of_children (by simpa using hss)]
  obtain ⟨x, L, hA⟩ : ∃ x L, (s :: ss).attach = x :: L := ⟨_, _, List.attach_cons⟩
  simp only [sym_mk, children_mk, Symbol.text_inj, reduceCtorEq, if_false, if_true,
    false_and, Symbol.ofText?_text, Option.map_some, Option.getD_some, hkind, Bool.false_eq_true]
  rw [hA]
  simp only
  rw [← hA, mapM_full_attach, h]
  rfl

theorem piece_branch {c body : Node} {cond text : String} (hc : c.Plain) (hb : body.Plain)
    (hbrace : body.sym = Symbol.openBrace.text) (hpc : Piece.full <$> piece c = .ok cond)
    (hpb : Piece.full <$> piece body = .ok text) :
    piece (mk Symbol.ifWord.text v l k [c, body]) = .ok ⟨"if " ++ cond ++ " " ++ text, 0, []⟩ := by
  have hkind : (Symbol.ifWord.isArithmetic || Symbol.ifWord.isComparison) = false := rfl
  rw [piece_eq]
  unfold pieceWith
  rw [parts_of_children (by simp [children, hc, hb])]
  simp only [sym_mk, children_mk, Symbol.text_inj, reduceCtorEq, if_false, if_true,
    List.attach_cons, List.attach_nil, List.map_cons, List.map_nil, Symbol.ofText?_text,
    Option.map_some, Option.getD_some, false_and, hkind, Bool.false_eq_true, hbrace]
  rw [show (Piece.full <$> piece c) = .ok cond from hpc,
    show (Piece.full <$> piece body) = .ok text from hpb]
  rfl

theorem piece_branch_else {c body other : Node} {cond text rest : String} (hc : c.Plain)
    (hb : body.Plain) (ho : other.Plain) (hbrace : body.sym = Symbol.openBrace.text)
    (hpc : Piece.full <$> piece c = .ok cond) (hpb : Piece.full <$> piece body = .ok text)
    (hpo : Piece.full <$> piece other = .ok rest) :
    piece (mk Symbol.ifWord.text v l k [c, body, other]) =
      .ok ⟨"if " ++ cond ++ " " ++ text ++ " else " ++ rest, 0, []⟩ := by
  have hkind : (Symbol.ifWord.isArithmetic || Symbol.ifWord.isComparison) = false := rfl
  rw [piece_eq]
  unfold pieceWith
  rw [parts_of_children (by simp [children, hc, hb, ho])]
  simp only [sym_mk, children_mk, Symbol.text_inj, reduceCtorEq, if_false, if_true,
    List.attach_cons, List.attach_nil, List.map_cons, List.map_nil, Symbol.ofText?_text,
    Option.map_some, Option.getD_some, false_and, hkind, Bool.false_eq_true, hbrace]
  rw [show (Piece.full <$> piece c) = .ok cond from hpc,
    show (Piece.full <$> piece body) = .ok text from hpb,
    show (Piece.full <$> piece other) = .ok rest from hpo]
  rfl

theorem piece_root_eq {ss : List Node} (hss : ∀ c ∈ ss, c.Plain) :
    piece (mk Symbol.root.text v l k ss) =
      (fun texts => ⟨", ".intercalate texts, 0, []⟩) <$> ss.mapM fun c => Piece.full <$> piece c := by
  have hkind : (Symbol.root.isArithmetic || Symbol.root.isComparison) = false := rfl
  rw [piece_eq]
  unfold pieceWith
  rw [parts_of_children (by simpa using hss)]
  simp only [sym_mk, children_mk, Symbol.text_inj, reduceCtorEq, if_false, if_true,
    false_and, Symbol.ofText?_text, Option.map_some, Option.getD_some, hkind, Bool.false_eq_true]
  rw [mapM_full_attach]
  cases ss.mapM fun c => Piece.full <$> piece c <;> rfl

theorem piece_root {ss : List Node} {texts : List String} (hss : ∀ c ∈ ss, c.Plain)
    (h : ss.mapM (fun c => Piece.full <$> piece c) = .ok texts) :
    piece (mk Symbol.root.text v l k ss) = .ok ⟨", ".intercalate texts, 0, []⟩ := by
  rw [piece_root_eq hss, h]
  rfl

end Statements

theorem full_of_power (text : String) (power : Nat) : Piece.full ⟨text, power, []⟩ = text := by
  simp [Piece.full, Piece.withTags]

theorem Block.sym_eq {reads : Bool} {t : Node} {x : Written} (h : Block reads t x) :
    t.sym = Symbol.openBrace.text := by
  cases h <;> rfl

theorem Branch.sym_eq {reads : Bool} {t : Node} {x : Written} (h : Branch reads t x) :
    t.sym = Symbol.ifWord.text := by
  cases h <;> rfl

theorem plain_of_sym {t : Node} {s : Symbol} (h : t.sym = s.text)
    (hs : s ≠ .ident ∧ s ≠ .dropHighest ∧ s ≠ .dropLowest) : t.Plain := by
  simp only [Plain, h, ne_eq, Symbol.text_inj]
  exact hs

theorem Statement.plain {reads : Bool} {t : Node} {x : Written} {sep cont : Bool}
    (h : Statement reads t x sep cont) : t.Plain := by
  cases h with
  | expr h => exact h.plain
  | roll => exact plain_of_sym (s := .rollWord) rfl (by decide)
  | block h => exact plain_of_sym h.sym_eq (by decide)
  | branch h => exact plain_of_sym h.sym_eq (by decide)

theorem Statements.plain {reads : Bool} {ss : List Node} {x : Written} {cont : Bool} :
    Statements reads ss x cont → ∀ s ∈ ss, s.Plain
  | .single h => by simpa using h.plain
  | .cons h hs _ _ => by simpa [h.plain] using hs.plain

mutual

/-- The full text of a statement is its text, with a placeholder after every throw. -/
theorem Statement.full_eq {reads : Bool} {t : Node} {x : Written} {sep cont : Bool} :
    Statement reads t x sep cont →
      Piece.full <$> piece t = .ok (String.ofList (x.text placeholder.toList))
  | .expr h => by rw [h.piece_eq]; exact congrArg Except.ok (Written.full_piece ..)
  | .roll h => by
    rw [piece_roll h.plain h.full_eq]
    exact congrArg Except.ok ((full_of_power _ _).trans (String.ext (by simp)))
  | .block h => by rw [h.piece_eq]; exact congrArg Except.ok (full_of_power _ _)
  | .branch h => by rw [h.piece_eq]; exact congrArg Except.ok (full_of_power _ _)

theorem Block.piece_eq {reads : Bool} {t : Node} {x : Written} :
    Block reads t x → piece t = .ok ⟨String.ofList (x.text placeholder.toList), 0, []⟩
  | .empty => piece_block_nil
  | .full h => by
    obtain ⟨texts, hm, -, htext⟩ := h.texts
    cases h with
    | single hs =>
      rw [piece_block (by simpa using hs.plain) hm, htext]
      exact congrArg _ (congrArg (Piece.mk · 0 []) (String.ext (by simp)))
    | cons hs hss _ _ =>
      rw [piece_block (by simpa [hs.plain] using hss.plain) hm, htext]
      exact congrArg _ (congrArg (Piece.mk · 0 []) (String.ext (by simp)))

theorem Branch.piece_eq {reads : Bool} {t : Node} {x : Written} :
    Branch reads t x → piece t = .ok ⟨String.ofList (x.text placeholder.toList), 0, []⟩
  | .bare hc hb => by
    rw [piece_branch hc.plain (plain_of_sym hb.sym_eq (by decide)) hb.sym_eq
      (by rw [hc.piece_eq]; exact congrArg Except.ok (Written.full_piece ..)) (by rw [hb.piece_eq]; exact congrArg Except.ok (full_of_power _ _))]
    exact congrArg _ (congrArg (Piece.mk · 0 []) (String.ext (by simp)))
  | .withElse hc hb ho => by
    rw [piece_branch_else hc.plain (plain_of_sym hb.sym_eq (by decide))
      (plain_of_sym ho.sym_eq (by decide)) hb.sym_eq
      (by rw [hc.piece_eq]; exact congrArg Except.ok (Written.full_piece ..)) (by rw [hb.piece_eq]; exact congrArg Except.ok (full_of_power _ _))
      (by rw [ho.piece_eq]; exact congrArg Except.ok (full_of_power _ _))]
    exact congrArg _ (congrArg (Piece.mk · 0 []) (String.ext (by simp)))
  | .elseIf hc hb ho => by
    rw [piece_branch_else hc.plain (plain_of_sym hb.sym_eq (by decide))
      (plain_of_sym ho.sym_eq (by decide)) hb.sym_eq
      (by rw [hc.piece_eq]; exact congrArg Except.ok (Written.full_piece ..)) (by rw [hb.piece_eq]; exact congrArg Except.ok (full_of_power _ _))
      (by rw [ho.piece_eq]; exact congrArg Except.ok (full_of_power _ _))]
    exact congrArg _ (congrArg (Piece.mk · 0 []) (String.ext (by simp)))

/-- The statements of a list are written one by one and joined by commas. -/
theorem Statements.texts {reads : Bool} {ss : List Node} {x : Written} {cont : Bool} :
    Statements reads ss x cont → ∃ texts, ss.mapM (fun s => Piece.full <$> piece s) = .ok texts ∧
      texts ≠ [] ∧ ", ".intercalate texts = String.ofList (x.text placeholder.toList)
  | .single h => ⟨_, by rw [List.mapM_cons, h.full_eq]; rfl, by simp, by simp⟩
  | .cons h hs _ _ => by
    obtain ⟨texts, hm, hne, htext⟩ := hs.texts
    refine ⟨_, by rw [List.mapM_cons, h.full_eq, hm]; rfl, List.cons_ne_nil _ _, ?_⟩
    rw [String.intercalate_cons_of_ne_nil hne, htext]
    exact String.ext (by simp)

end

/-! ## The ends of a text -/

/-- A text that starts with a character that is no blank. -/
def StartsSolid (cs : List Char) : Prop :=
  ∃ c rest, cs = c :: rest ∧ Text.isBlank c = false

/-- A text that ends with a character that is no blank. -/
def EndsSolid (cs : List Char) : Prop :=
  ∃ rest c, cs = rest ++ [c] ∧ Text.isBlank c = false

theorem StartsSolid.append {cs : List Char} (h : StartsSolid cs) (ds : List Char) :
    StartsSolid (cs ++ ds) := by
  obtain ⟨c, rest, rfl, hc⟩ := h
  exact ⟨c, rest ++ ds, rfl, hc⟩

theorem EndsSolid.append_left (cs : List Char) {ds : List Char} (h : EndsSolid ds) :
    EndsSolid (cs ++ ds) := by
  obtain ⟨rest, c, rfl, hc⟩ := h
  exact ⟨cs ++ rest, c, by simp, hc⟩

theorem startsSolid_cons {c : Char} (hc : Text.isBlank c = false) (rest : List Char) :
    StartsSolid (c :: rest) :=
  ⟨c, rest, rfl, hc⟩

theorem endsSolid_concat {c : Char} (hc : Text.isBlank c = false) (rest : List Char) :
    EndsSolid (rest ++ [c]) :=
  ⟨rest, c, rfl, hc⟩

theorem endsSolid_enclose (needed : Prop) [Decidable needed] {cs : List Char}
    (h : EndsSolid cs) : EndsSolid (enclose needed cs) := by
  unfold enclose
  split
  · exact endsSolid_concat (by decide) _
  · exact h

theorem isBlank_of_wordChar {c : Char} (h : Token.isWordChar c = true) : Text.isBlank c = false := by
  have hc : ('a'.toNat ≤ c.toNat ∧ c.toNat ≤ 'z'.toNat) ∨ ('A'.toNat ≤ c.toNat ∧ c.toNat ≤ 'Z'.toNat) ∨
      ('0'.toNat ≤ c.toNat ∧ c.toNat ≤ '9'.toNat) ∨ c.toNat = '_'.toNat := by
    simp only [Token.isWordChar, Token.isLetter, decide_eq_true_eq] at h
    rcases h with (h | h) | h | h
    · exact .inl h
    · exact .inr (.inl h)
    · exact .inr (.inr (.inl h))
    · exact .inr (.inr (.inr (congrArg Char.toNat h)))
  simp only [Text.isBlank, Text.blankCodes, List.contains_cons, List.contains_nil, Bool.or_false,
    Bool.or_eq_false_iff, beq_eq_false_iff_ne, ne_eq]
  simp at hc
  omega

theorem TagWord.endsSolid {τ : String} (h : TagWord τ) : EndsSolid τ.toList := by
  obtain ⟨c, w, hτ, hc, hw⟩ := h.word
  have hchar : ∀ x ∈ τ.toList, Token.isWordChar x = true := by
    rw [hτ]
    rintro x (_ | ⟨_, hx⟩)
    · simp only [Token.isWordStart, decide_eq_true_eq] at hc
      rcases hc with hc | hc <;> simp [Token.isWordChar, hc]
    · exact hw x hx
  obtain ⟨rest, d, hd⟩ := (List.eq_nil_or_concat τ.toList).resolve_left (by simp [hτ])
  rw [List.concat_eq_append] at hd
  exact ⟨rest, d, hd, isBlank_of_wordChar (hchar d (by simp [hd]))⟩

theorem endsSolid_tags {g : List String} (hg : ∀ τ ∈ g, TagWord τ) :
    ∀ {cs : List Char}, EndsSolid cs → EndsSolid (cs ++ Written.tagText g) := by
  induction g with
  | nil => simp
  | cons τ g ih =>
    intro cs _
    rw [Written.tagText_cons, ← List.singleton_append, ← List.append_assoc, ← List.append_assoc]
    exact ih (fun τ' h' => hg τ' (List.mem_cons_of_mem _ h'))
      (EndsSolid.append_left (cs ++ [' ']) (hg τ List.mem_cons_self).endsSolid)

theorem EndsSolid.cons (c : Char) {ds : List Char} (h : EndsSolid ds) : EndsSolid (c :: ds) :=
  h.append_left [c]

theorem startsSolid_of_unit {cs : List Char} (h : StartsUnit cs) : StartsSolid cs := by
  obtain ⟨c, rest, hc, hcu⟩ := h
  exact ⟨c, rest, hc, isBlank_of_unit (by rcases hcu with h | h | h <;> simp [h])⟩

theorem endsSolid_of_unit {cs : List Char} (h : EndsUnit cs) : EndsSolid cs := by
  obtain ⟨rest, c, hc, hcu⟩ := h
  exact ⟨rest, c, hc, isBlank_of_unit (by rcases hcu with h | h | h <;> simp [h])⟩

theorem endsSolid_copies (sep : List Char) {a : List Char} (h : EndsSolid a) :
    ∀ n, EndsSolid (sep.intercalate (List.replicate (n + 1) a))
  | 0 => by simpa using h
  | n + 1 => by
    rw [List.replicate_succ, List.replicate_succ, List.intercalate_cons_cons, ← List.replicate_succ]
    exact (endsSolid_copies sep h n).append_left _

theorem trimChars_solid {cs : List Char} (h1 : StartsSolid cs) (h2 : EndsSolid cs) :
    Text.trimChars cs = cs := by
  obtain ⟨c, rest, hc, hcb⟩ := h1
  obtain ⟨front, d, hd, hdb⟩ := h2
  have first : cs.dropWhile Text.isBlank = cs := by
    rw [hc, List.dropWhile_cons_of_neg (by simp [hcb])]
  have last : cs.reverse.dropWhile Text.isBlank = cs.reverse := by
    rw [hd, List.reverse_append, List.reverse_singleton, List.singleton_append,
      List.dropWhile_cons_of_neg (by simp [hdb])]
  rw [Text.trimChars, first, last, List.reverse_reverse]

theorem Drops.tagWords {reads : Bool} {ds : List Node} {w : List Char}
    {ts : List (Symbol × String)} {g : List String} (h : Drops reads ds w ts g) :
    ∀ τ ∈ g, TagWord τ := by
  induction h with
  | nil => simp
  | cons _ _ hcs _ _ ih =>
    intro τ hτ
    rcases List.mem_append.mp hτ with hτ | hτ
    · obtain ⟨c, hc, rfl⟩ := List.mem_map.mp hτ
      exact (hcs c hc).word
    · exact ih τ hτ

section Ends

variable {reads : Bool} {t : Node} {x : Written}

theorem Canonical.tagWords (h : Canonical reads t x) : ∀ τ ∈ x.tags, TagWord τ := by
  induction h with
  | numeral _ hcs =>
    intro τ hτ
    obtain ⟨c, hc, rfl⟩ := List.mem_map.mp hτ
    exact (hcs c hc).word
  | negate _ _ iha => exact iha
  | throw _ _ hd _ _ iha ihb =>
    intro τ hτ
    rcases List.mem_append.mp hτ with hτ | hτ
    · rcases List.mem_append.mp hτ with hτ | hτ
      · exact iha τ hτ
      · exact ihb τ hτ
    · exact hd.tagWords τ hτ
  | _ => simp

theorem exists_toNat_succ {count : Int} (h : 0 < count) : ∃ n, count.toNat = n + 1 :=
  ⟨count.toNat - 1, by omega⟩

theorem startsUnit_copies (sep : List Char) {a : List Char} (h : StartsUnit a) :
    ∀ n, StartsUnit (sep.intercalate (List.replicate (n + 1) a))
  | 0 => by simpa using h
  | n + 1 => by
    rw [List.replicate_succ, List.replicate_succ, List.intercalate_cons_cons, List.append_assoc]
    exact startsUnit_append h

/-- An expression starts with a digit, a minus sign or a parenthesis. -/
theorem Canonical.startsUnit (h : Canonical reads t x) (mark : List Char) :
    StartsUnit (x.text mark) := by
  induction h with
  | numeral hv => exact isNumeral_startsUnit hv
  | negate => exact ⟨'-', _, rfl, by simp⟩
  | binary _ _ _ _ _ iha => exact startsUnit_append (startsUnit_append (startsUnit_enclose _ iha))
  | throw _ _ _ _ _ iha => exact startsUnit_append (startsUnit_enclose _ iha)
  | conditional _ _ _ _ _ iha =>
    exact startsUnit_append (startsUnit_append (startsUnit_enclose _ iha))
  | «repeat» _ _ _ _ hpos _ _ iha =>
    obtain ⟨n, hn⟩ := exists_toNat_succ hpos
    rw [hn]
    exact startsUnit_copies _ (startsUnit_append iha) n

theorem Canonical.startsSolid (h : Canonical reads t x) (mark : List Char) :
    StartsSolid (x.text mark) :=
  startsSolid_of_unit (h.startsUnit mark)

theorem Canonical.endsSolid (h : Canonical reads t x) {mark : List Char} (hm : EndsSolid mark) :
    EndsSolid (x.text mark) := by
  induction h with
  | numeral hv => exact endsSolid_of_unit (isNumeral_endsUnit hv)
  | negate _ _ iha => exact (endsSolid_enclose _ iha).cons _
  | binary _ _ hb _ _ _ ihb =>
    exact ((((endsSolid_tags hb.tagWords (endsSolid_enclose _ ihb)).cons _).append_left _).cons
      _).append_left _
  | throw => exact ((hm.append_left _).cons _).append_left _
  | conditional _ _ hb _ _ _ ihb =>
    exact (endsSolid_tags hb.tagWords ihb).append_left _ |>.append_left _ |>.append_left _
      |>.append_left _
  | «repeat» _ ha _ _ hpos _ _ iha =>
    obtain ⟨n, hn⟩ := exists_toNat_succ hpos
    rw [hn]
    exact endsSolid_copies _ (endsSolid_tags ha.tagWords iha) n

end Ends

mutual

theorem Statement.startsSolid {reads : Bool} {t : Node} {x : Written} {sep cont : Bool}
    (mark : List Char) : Statement reads t x sep cont → StartsSolid (x.text mark)
  | .expr h => (h.startsSolid mark).append _
  | .roll _ => ⟨'R', _, rfl, by decide⟩
  | .block h => h.startsSolid mark
  | .branch h => h.startsSolid mark

theorem Block.startsSolid {reads : Bool} {t : Node} {x : Written} (mark : List Char) :
    Block reads t x → StartsSolid (x.text mark)
  | .empty => ⟨'\x7b', _, rfl, by decide⟩
  | .full _ => ⟨'\x7b', _, rfl, by decide⟩

theorem Branch.startsSolid {reads : Bool} {t : Node} {x : Written} (mark : List Char) :
    Branch reads t x → StartsSolid (x.text mark)
  | .bare _ _ => ⟨'i', _, rfl, by decide⟩
  | .withElse _ _ _ => ⟨'i', _, rfl, by decide⟩
  | .elseIf _ _ _ => ⟨'i', _, rfl, by decide⟩

theorem Statements.startsSolid {reads : Bool} {ss : List Node} {x : Written} {cont : Bool}
    (mark : List Char) : Statements reads ss x cont → StartsSolid (x.text mark)
  | .single h => h.startsSolid mark
  | .cons h _ _ _ => (h.startsSolid mark).append _

end

section Ends

variable {mark : List Char}

theorem endsSolid_closeBrace (cs : List Char) : EndsSolid (cs ++ " \x7d".toList) :=
  EndsSolid.append_left _ ⟨[' '], '\x7d', rfl, by decide⟩

mutual

theorem Statement.endsSolid {reads : Bool} {t : Node} {x : Written} {sep cont : Bool}
    (hm : EndsSolid mark) : Statement reads t x sep cont → EndsSolid (x.text mark)
  | .expr h => endsSolid_tags h.tagWords (h.endsSolid hm)
  | .roll h => (h.endsSolid hm).append_left _
  | .block h => h.endsSolid
  | .branch h => h.endsSolid hm

theorem Block.endsSolid {reads : Bool} {t : Node} {x : Written} :
    Block reads t x → EndsSolid (x.text mark)
  | .empty => ⟨['\x7b', ' '], '\x7d', rfl, by decide⟩
  | .full _ => endsSolid_closeBrace _

theorem Branch.endsSolid {reads : Bool} {t : Node} {x : Written} (hm : EndsSolid mark) :
    Branch reads t x → EndsSolid (x.text mark)
  | .bare _ hb => (hb.endsSolid.cons _).append_left _ |>.append_left _
  | .withElse _ _ ho => ho.endsSolid.append_left _ |>.cons _ |>.append_left _ |>.append_left _
  | .elseIf _ _ ho => (ho.endsSolid hm).append_left _ |>.cons _ |>.append_left _ |>.append_left _

theorem Statements.endsSolid {reads : Bool} {ss : List Node} {x : Written} {cont : Bool}
    (hm : EndsSolid mark) : Statements reads ss x cont → EndsSolid (x.text mark)
  | .single h => h.endsSolid hm
  | .cons _ hs _ _ => ((hs.endsSolid hm).append_left _).append_left _

end

end Ends

theorem endsSolid_placeholder : EndsSolid placeholder.toList := ⟨['(', '%', 's'], ')', rfl, by decide⟩

/-- The canonical text of a command is its statements' text, with a
placeholder after every throw. -/
theorem Statements.render_root {reads : Bool} {ss : List Node} {x : Written} {cont : Bool}
    (h : Statements reads ss x cont) (v : String) (l k : Nat) :
    render (mk Symbol.root.text v l k ss) = .ok (String.ofList (x.text placeholder.toList)) := by
  obtain ⟨texts, hm, -, htext⟩ := h.texts
  rw [render, piece_root h.plain hm, htext]
  show Except.ok (Text.trim (Piece.full ⟨_, 0, []⟩)) = _
  rw [full_of_power, Text.trim, String.toList_ofList,
    trimChars_solid (h.startsSolid _) (h.endsSolid endsSolid_placeholder)]

end Node

end DiceNotation
