import DiceNotation.Node.Render
/-!
# Formulas and their canonical spelling

A formula is a tree of the operator part of the language: numerals, negation,
the binary operators `+ - * / ^ mod < > <= >= == != d` and the conditional
`a if c else b`, each operator node valued by its own symbol.  Its canonical
spelling puts an operand in parentheses exactly when it binds more loosely
than its operator, or as loosely on the right, and writes a mark after every
throw.  The written form of a formula is its spelling with the placeholder
`(%s)` as the mark, and taking the placeholders out of it leaves the spelling
with no mark at all.
-/

namespace DiceNotation

namespace Symbol

theorem text_inj {s s' : Symbol} : s.text = s'.text ↔ s = s' := by
  constructor
  · intro h
    simpa [ofText?_text] using congrArg ofText? h
  · rintro rfl
    rfl

theorem powerOfText_text (s : Symbol) : powerOfText s.text = s.bindingPower := by
  simp [powerOfText, ofText?_text]

/-- The binary operators written with a blank on each side. -/
def spacedOperators : List Symbol :=
  [plus, minus, times, divide, power, modulo, less, greater, lessEq, greaterEq, equal, notEqual]

theorem folds_of_spaced {s : Symbol} (hs : s ∈ spacedOperators) :
    (s.isArithmetic || s.isComparison) = true := by
  revert s
  decide

theorem bindingPower_of_spaced {s : Symbol} (hs : s ∈ spacedOperators) :
    30 ≤ s.bindingPower ∧ s.bindingPower ≤ 95 := by
  revert s
  decide

theorem ne_dice_of_spaced {s : Symbol} (hs : s ∈ spacedOperators) : s ≠ dice := by
  rintro rfl
  simp [spacedOperators] at hs

end Symbol

/-- A numeral: ASCII digits, then optionally a point and more digits. -/
def IsNumeral (v : List Char) : Prop :=
  ∃ whole fraction, v = whole ++ fraction ∧ whole ≠ [] ∧ (∀ c ∈ whole, c.isDigit) ∧
    (fraction = [] ∨ ∃ more, fraction = '.' :: more ∧ ∀ c ∈ more, c.isDigit)

theorem isNumeral_digit {d : Char} (h : d.isDigit) : IsNumeral [d] :=
  ⟨[d], [], rfl, List.cons_ne_nil d [], by simpa using h, .inl rfl⟩

namespace Node

/-- Formulas: numerals, negation, the binary operators and the infix
conditional, each operator node valued by its own symbol, at any position. -/
inductive Formula : Node → Prop
  | numeral {v : String} {line col : Nat} :
      IsNumeral v.toList → Formula (.mk Symbol.number.text v line col [])
  | negate {a : Node} {line col : Nat} :
      Formula a → Formula (.mk Symbol.minus.text Symbol.minus.text line col [a])
  | binary {s : Symbol} {a b : Node} {line col : Nat} : s ∈ Symbol.spacedOperators →
      Formula a → Formula b → Formula (.mk s.text s.text line col [a, b])
  | throw {a b : Node} {line col : Nat} :
      Formula a → Formula b → Formula (.mk Symbol.dice.text Symbol.dice.text line col [a, b])
  | conditional {cond a b : Node} {line col : Nat} :
      Formula cond → Formula a → Formula b →
        Formula (.mk Symbol.ifWord.text Symbol.ifWord.text line col [cond, a, b])

/-- How tightly the written form of a node binds. -/
def printPower : Node → Nat
  | .mk s _ _ _ cs =>
    if s = Symbol.number.text then Symbol.tagPower
    else if s = Symbol.minus.text ∧ cs.length = 1 then Symbol.prefixPower
    else Symbol.powerOfText s

/-- A text, in parentheses where they are needed. -/
def enclose (needed : Prop) [Decidable needed] (cs : List Char) : List Char :=
  if needed then '(' :: cs ++ [')'] else cs

/-- The canonical spelling of a formula, with `mark` after every throw. -/
def spell (mark : List Char) : Node → List Char
  | .mk _ v _ _ [] => v.toList
  | .mk _ _ _ _ [a] => '-' :: enclose (a.printPower < Symbol.prefixPower) (spell mark a)
  | .mk s _ _ _ [a, b] =>
    if s = Symbol.dice.text then
      enclose (a.printPower < Symbol.dice.bindingPower) (spell mark a) ++ 'd' ::
        (enclose (b.printPower ≤ Symbol.dice.bindingPower) (spell mark b) ++ mark)
    else
      enclose (a.printPower < Symbol.powerOfText s) (spell mark a) ++ ' ' ::
        (s.toList ++ ' ' :: enclose (b.printPower ≤ Symbol.powerOfText s) (spell mark b))
  | .mk _ _ _ _ [c, a, b] =>
    enclose (a.printPower ≤ Symbol.ifWord.bindingPower) (spell mark a) ++
      (" if ".toList ++ (spell mark c ++ (" else ".toList ++ spell mark b)))
  | .mk _ _ _ _ _ => []

/-- The same tree with every position taken away. -/
def erase : Node → Node
  | .mk s v _ _ cs => .mk s v 0 0 (cs.map erase)

/-- A text with each placeholder `(%s)` taken out, from the left. -/
def unplace : List Char → List Char
  | '(' :: '%' :: 's' :: ')' :: rest => unplace rest
  | c :: rest => c :: unplace rest
  | [] => []

/-! ## Facts about formulas -/

section Formulas

variable {t : Node}

theorem Formula.sym_ne (ht : t.Formula) :
    t.sym ≠ Symbol.ident.text ∧ t.sym ≠ Symbol.dropHighest.text ∧
      t.sym ≠ Symbol.dropLowest.text ∧ t.sym ≠ Symbol.openBrace.text := by
  cases ht with
  | @binary s a b line col hs =>
    simp only [sym, ne_eq, Symbol.text_inj]
    refine ⟨?_, ?_, ?_, ?_⟩ <;> rintro rfl <;> simp [Symbol.spacedOperators] at hs
  | _ => simp [sym, Symbol.text]

@[simp] theorem printPower_number (v : String) (line col : Nat) :
    (mk Symbol.number.text v line col []).printPower = Symbol.tagPower := rfl

@[simp] theorem printPower_negate (a : Node) (line col : Nat) :
    (mk Symbol.minus.text Symbol.minus.text line col [a]).printPower = Symbol.prefixPower := rfl

@[simp] theorem printPower_throw (a b : Node) (line col : Nat) :
    (mk Symbol.dice.text Symbol.dice.text line col [a, b]).printPower =
      Symbol.dice.bindingPower := rfl

@[simp] theorem printPower_conditional (c a b : Node) (line col : Nat) :
    (mk Symbol.ifWord.text Symbol.ifWord.text line col [c, a, b]).printPower =
      Symbol.ifWord.bindingPower := rfl

theorem printPower_spaced {s : Symbol} (hs : s ∈ Symbol.spacedOperators) (v : String)
    (line col : Nat) (a b : Node) : (mk s.text v line col [a, b]).printPower = s.bindingPower := by
  have hn : s ≠ Symbol.number := by rintro rfl; simp [Symbol.spacedOperators] at hs
  simp [printPower, Symbol.text_inj, hn, Symbol.powerOfText_text]

/-- Every formula binds at least as tightly as a conditional. -/
theorem Formula.printPower_ge (ht : t.Formula) : Symbol.ifWord.bindingPower ≤ t.printPower := by
  cases ht with
  | @binary s a b line col hs =>
    rw [printPower_spaced hs]
    exact Nat.le_trans (by decide) (Symbol.bindingPower_of_spaced hs).1
  | _ => simp only [printPower_number, printPower_negate, printPower_throw,
      printPower_conditional]; decide

/-- A formula binding at least as tightly as a prefix is a numeral or a negation. -/
theorem Formula.children_of_prefixPower_le (ht : t.Formula)
    (h : Symbol.prefixPower ≤ t.printPower) : t.children.length ≤ 1 := by
  cases ht with
  | @binary s a b line col hs =>
    rw [printPower_spaced hs] at h
    exact absurd (Nat.le_trans h (Symbol.bindingPower_of_spaced hs).2) (by decide)
  | throw | conditional =>
    simp only [printPower_throw, printPower_conditional] at h
    exact absurd h (by decide)
  | _ => simp [children]

theorem sym_erase (n : Node) : n.erase.sym = n.sym := by
  cases n
  simp [erase, sym]

end Formulas

/-! ## The first and the last character of a spelling -/

/-- A spelling starts a unit: with a digit, a minus sign or a parenthesis. -/
def StartsUnit (cs : List Char) : Prop :=
  ∃ c rest, cs = c :: rest ∧ (c.isDigit ∨ c = '-' ∨ c = '(')

theorem startsUnit_enclose (needed : Prop) [Decidable needed] {cs : List Char}
    (h : StartsUnit cs) : StartsUnit (enclose needed cs) := by
  unfold enclose
  split
  · exact ⟨'(', _, rfl, by simp⟩
  · exact h

theorem startsUnit_append {cs ds : List Char} (h : StartsUnit cs) : StartsUnit (cs ++ ds) := by
  obtain ⟨c, rest, rfl, hc⟩ := h
  exact ⟨c, rest ++ ds, rfl, hc⟩

theorem isNumeral_startsUnit {v : List Char} (hv : IsNumeral v) : StartsUnit v := by
  obtain ⟨whole, fraction, rfl, hw, hd, -⟩ := hv
  obtain ⟨c, rest, rfl⟩ := List.exists_cons_of_ne_nil hw
  exact ⟨c, rest ++ fraction, rfl, .inl (hd c (by simp))⟩

theorem Formula.startsUnit (mark : List Char) {t : Node} (ht : t.Formula) :
    StartsUnit (t.spell mark) := by
  cases ht with
  | numeral hv => exact isNumeral_startsUnit hv
  | negate => exact ⟨'-', _, rfl, by simp⟩
  | @binary s a b line col hs ha hb =>
    simp only [spell, Symbol.text_inj, Symbol.ne_dice_of_spaced hs, if_false]
    exact startsUnit_append (startsUnit_enclose _ (ha.startsUnit mark))
  | throw ha hb =>
    simp only [spell, if_true]
    exact startsUnit_append (startsUnit_enclose _ (ha.startsUnit mark))
  | conditional hc ha hb =>
    simp only [spell]
    exact startsUnit_append (startsUnit_enclose _ (ha.startsUnit mark))

/-- A spelling ends a unit: with a digit, a point or a parenthesis. -/
def EndsUnit (cs : List Char) : Prop :=
  ∃ rest c, cs = rest ++ [c] ∧ (c.isDigit ∨ c = '.' ∨ c = ')')

theorem endsUnit_enclose (needed : Prop) [Decidable needed] {cs : List Char}
    (h : EndsUnit cs) : EndsUnit (enclose needed cs) := by
  unfold enclose
  split
  · exact ⟨'(' :: cs, ')', by simp, by simp⟩
  · exact h

theorem endsUnit_append (cs : List Char) {ds : List Char} (h : EndsUnit ds) :
    EndsUnit (cs ++ ds) := by
  obtain ⟨rest, c, rfl, hc⟩ := h
  exact ⟨cs ++ rest, c, by simp, hc⟩

theorem isNumeral_endsUnit {v : List Char} (hv : IsNumeral v) : EndsUnit v := by
  obtain ⟨whole, fraction, rfl, hw, hd, hf⟩ := hv
  rcases hf with rfl | ⟨more, rfl, hm⟩
  · obtain ⟨rest, c, rfl⟩ := (List.eq_nil_or_concat whole).resolve_left hw
    exact ⟨rest, c, by simp, .inl (hd c (by simp))⟩
  · rcases List.eq_nil_or_concat more with rfl | ⟨rest, c, rfl⟩
    · exact ⟨whole, '.', by simp, by simp⟩
    · exact ⟨whole ++ '.' :: rest, c, by simp, .inl (hm c (by simp))⟩

theorem Formula.endsUnit {mark : List Char} (hm : mark = [] ∨ EndsUnit mark) {t : Node}
    (ht : t.Formula) : EndsUnit (t.spell mark) := by
  induction ht with
  | numeral hv => exact isNumeral_endsUnit hv
  | negate _ iha => exact endsUnit_append ['-'] (endsUnit_enclose _ iha)
  | @binary s a b line col hs _ _ _ ihb =>
    simp only [spell, Symbol.text_inj, Symbol.ne_dice_of_spaced hs, if_false]
    exact endsUnit_append _ (endsUnit_append [' '] (endsUnit_append _
      (endsUnit_append [' '] (endsUnit_enclose _ ihb))))
  | throw _ _ _ ihb =>
    simp only [spell, if_true]
    refine endsUnit_append _ (endsUnit_append ['d'] ?_)
    rcases hm with rfl | hm
    · simpa using endsUnit_enclose _ ihb
    · exact endsUnit_append _ hm
  | conditional _ _ _ _ _ ihb =>
    simp only [spell]
    exact endsUnit_append _ (endsUnit_append _ (endsUnit_append _ (endsUnit_append _ ihb)))

/-! ## Taking the placeholders out -/

theorem unplace_cons {c : Char} (hc : c ≠ '(') (rest : List Char) :
    unplace (c :: rest) = c :: unplace rest := by
  rw [unplace.eq_def]
  split
  · rename_i heq
    exact absurd (List.cons.inj heq).1 hc
  · rename_i heq
    rw [(List.cons.inj heq).1, (List.cons.inj heq).2]
  · simp at *

theorem unplace_open {x : Char} (hx : x ≠ '%') (rest : List Char) :
    unplace ('(' :: x :: rest) = '(' :: unplace (x :: rest) := by
  rw [unplace.eq_def]
  split
  · rename_i heq
    exact absurd (List.cons.inj (List.cons.inj heq).2).1 hx
  · rename_i heq
    rw [(List.cons.inj heq).1, (List.cons.inj heq).2]
  · simp at *

theorem unplace_placeholder (rest : List Char) :
    unplace (placeholder.toList ++ rest) = unplace rest := by
  simp [placeholder, unplace]

theorem unplace_append_of_forall {xs : List Char} (h : ∀ c ∈ xs, c ≠ '(') (ys : List Char) :
    unplace (xs ++ ys) = xs ++ unplace ys := by
  induction xs with
  | nil => rfl
  | cons c rest ih =>
    rw [List.cons_append, unplace_cons (h c (by simp)), ih fun x hx => h x (by simp [hx])]
    rfl

theorem unplace_enclose (needed : Prop) [Decidable needed] {xs ys : List Char}
    (hx : StartsUnit xs) (h : ∀ rest, unplace (xs ++ rest) = ys ++ unplace rest)
    (rest : List Char) :
    unplace (enclose needed xs ++ rest) = enclose needed ys ++ unplace rest := by
  unfold enclose
  split
  · obtain ⟨x, more, rfl, hx⟩ := hx
    have hx' : x ≠ '%' := by rintro rfl; simp at hx
    simp only [List.cons_append, List.append_assoc]
    rw [unplace_open hx', ← List.cons_append, h, unplace_cons (by decide)]
    simp
  · exact h rest

/-- Taking the placeholders out of the written spelling leaves the bare one. -/
theorem Formula.unplace_spell {t : Node} (ht : t.Formula) (rest : List Char) :
    unplace (t.spell placeholder.toList ++ rest) = t.spell [] ++ unplace rest := by
  -- what follows a piece is generalised: a placeholder may only start inside the piece's own text
  induction ht generalizing rest with
  | numeral hv =>
    -- a numeral has no `(`, so no placeholder starts in it
    obtain ⟨whole, fraction, hv, -, hd, hf⟩ := hv
    refine unplace_append_of_forall (fun c hc => ?_) rest
    rw [spell, hv, List.mem_append] at hc
    rcases hc with hc | hc
    · rintro rfl
      exact absurd (hd _ hc) (by decide)
    · rcases hf with rfl | ⟨more, rfl, hm⟩
      · simp at hc
      · rintro rfl; simp at hc; exact absurd (hm _ hc) (by decide)
  | negate ha iha =>
    simp only [spell, List.cons_append]
    rw [unplace_cons (by decide), unplace_enclose _ (ha.startsUnit _) iha]
  | @binary s a b line col hs ha hb iha ihb =>
    -- nor does the spelling of an operator
    have hop : ∀ c ∈ s.text.toList, c ≠ '(' := by
      revert s
      simp [Symbol.spacedOperators, Symbol.text]
    simp only [spell, Symbol.text_inj, Symbol.ne_dice_of_spaced hs, if_false, List.append_assoc,
      List.cons_append]
    rw [unplace_enclose _ (ha.startsUnit _) iha, unplace_cons (by decide),
      unplace_append_of_forall hop, unplace_cons (by decide),
      unplace_enclose _ (hb.startsUnit _) ihb]
  | throw ha hb iha ihb =>
    simp only [spell, if_true, List.append_assoc, List.cons_append, List.append_nil]
    rw [unplace_enclose _ (ha.startsUnit _) iha, unplace_cons (by decide),
      unplace_enclose _ (hb.startsUnit _) ihb, unplace_placeholder]
  | conditional hc ha hb ihc iha ihb =>
    simp only [spell, List.append_assoc]
    rw [unplace_enclose _ (ha.startsUnit _) iha, unplace_append_of_forall (by simp), ihc,
      unplace_append_of_forall (by simp), ihb]

/-! ## The written form of a formula -/

/-- A node the written form takes as an operand: neither a colour tag nor a drop. -/
def Plain (n : Node) : Prop :=
  n.sym ≠ Symbol.ident.text ∧ n.sym ≠ Symbol.dropHighest.text ∧ n.sym ≠ Symbol.dropLowest.text

theorem Formula.plain {t : Node} (ht : t.Formula) : t.Plain :=
  ⟨ht.sym_ne.1, ht.sym_ne.2.1, ht.sym_ne.2.2.1⟩

theorem parts_of_plain {α : Type} (get : α → Node) (l : List α) (h : ∀ a ∈ l, Plain (get a)) :
    Parts.of get l = ⟨l, [], []⟩ := by
  induction l with
  | nil => rfl
  | cons a rest ih =>
    obtain ⟨h1, h2, h3⟩ := h a (List.mem_cons_self ..)
    rw [Parts.of, ih fun x hx => h x (List.mem_cons_of_mem _ hx)]
    simp [h1, h2, h3]

/-- Children that are all operands sort into operands alone. -/
theorem parts_of_children {n : Node} (h : ∀ c ∈ n.children, Plain c) :
    Parts.of Subtype.val n.children.attach = ⟨n.children.attach, [], []⟩ :=
  parts_of_plain _ _ fun x _ => h x.1 x.2

@[simp] theorem sym_mk (s v : String) (line col : Nat) (cs : List Node) :
    (mk s v line col cs).sym = s := rfl

@[simp] theorem value_mk (s v : String) (line col : Nat) (cs : List Node) :
    (mk s v line col cs).value = v := rfl

@[simp] theorem children_mk (s v : String) (line col : Nat) (cs : List Node) :
    (mk s v line col cs).children = cs := rfl

theorem piece_eq (n : Node) : piece n = pieceWith n fun c _ => piece c := by
  rw [piece]

@[simp] theorem asOperand_snd (p : Piece) (power : Nat) (right : Bool) :
    (p.asOperand power right).2 = p.tags := by
  unfold Piece.asOperand
  split <;> rfl

section Pieces

variable {v : String} {line col : Nat} {a b c : Node} {pa pb pc : Piece}

theorem piece_number :
    piece (mk Symbol.number.text v line col []) = .ok ⟨v, Symbol.tagPower, []⟩ := by
  rw [piece_eq]
  unfold pieceWith
  simp only [Parts.of, children_mk, List.attach_nil, sym_mk, if_true, value_mk, List.foldlM_nil]
  show (Except.ok (⟨v ++ "", Symbol.tagPower, [] ++ []⟩ : Piece) : Except Fault Piece) = _
  rw [String.append_empty, List.append_nil]

theorem piece_negate (ha : a.Plain) (hpa : piece a = .ok pa) :
    piece (mk Symbol.minus.text v line col [a]) =
      .ok ⟨"-" ++ (pa.asOperand Symbol.prefixPower false).1, Symbol.prefixPower, pa.tags⟩ := by
  rw [piece_eq]
  unfold pieceWith
  rw [parts_of_children (by simp [children, ha])]
  simp only [sym_mk, children_mk, bindingPower, Symbol.text_inj, reduceCtorEq, if_false,
    List.attach_cons, List.attach_nil, List.map_nil, List.length_singleton, and_self, if_true, hpa]
  show (Except.ok (⟨"-" ++ (pa.asOperand Symbol.prefixPower false).1 ++ "", Symbol.prefixPower,
    (pa.asOperand Symbol.prefixPower false).2 ++ [] ++ []⟩ : Piece) : Except Fault Piece) = _
  rw [String.append_empty, List.append_nil, List.append_nil, asOperand_snd]

theorem piece_spaced {s : Symbol} (hs : s ∈ Symbol.spacedOperators) (ha : a.Plain) (hb : b.Plain)
    (hpa : piece a = .ok pa) (hpb : piece b = .ok pb) :
    piece (mk s.text v line col [a, b]) =
      .ok ⟨Piece.withTags (pa.asOperand s.bindingPower false).1 pa.tags ++ " " ++ s.text ++ " " ++
        Piece.withTags (pb.asOperand s.bindingPower true).1 pb.tags, s.bindingPower, []⟩ := by
  have hnum : s ≠ .number := by rintro rfl; simp [Symbol.spacedOperators] at hs
  rw [piece_eq]
  unfold pieceWith
  rw [parts_of_children (by simp [children, ha, hb])]
  simp only [sym_mk, children_mk, bindingPower, Symbol.text_inj, hnum, Symbol.ne_dice_of_spaced hs,
    if_false, Symbol.ofText?_text, Option.map_some, Option.getD_some, Symbol.folds_of_spaced hs,
    if_true, List.attach_cons, List.attach_nil, List.map_cons, List.map_nil, List.isEmpty_nil, hpa,
    hpb]
  rw [if_neg (by simp), Symbol.powerOfText_text]
  show (Except.ok (⟨Piece.withTags (pa.asOperand s.bindingPower false).1
    (pa.asOperand s.bindingPower false).2 ++ " " ++ s.text ++ " " ++
    Piece.withTags (pb.asOperand s.bindingPower true).1 (pb.asOperand s.bindingPower true).2,
    s.bindingPower, []⟩ : Piece) : Except Fault Piece) = _
  rw [asOperand_snd, asOperand_snd]

theorem piece_throw (ha : a.Plain) (hb : b.Plain) (hpa : piece a = .ok pa)
    (hpb : piece b = .ok pb) :
    piece (mk Symbol.dice.text v line col [a, b]) =
      .ok ⟨(pa.asOperand Symbol.dice.bindingPower false).1 ++ "d" ++
        (pb.asOperand Symbol.dice.bindingPower true).1 ++ placeholder, Symbol.dice.bindingPower,
        pa.tags ++ pb.tags⟩ := by
  rw [piece_eq]
  unfold pieceWith
  rw [parts_of_children (by simp [children, ha, hb])]
  simp only [sym_mk, children_mk, bindingPower, Symbol.text_inj, reduceCtorEq, if_false,
    if_true, List.attach_cons, List.attach_nil, List.map_cons, List.map_nil,
    Symbol.powerOfText_text, hpa, hpb]
  show (Except.ok (⟨(pa.asOperand Symbol.dice.bindingPower false).1 ++ "d" ++
    (pb.asOperand Symbol.dice.bindingPower true).1 ++ "" ++ placeholder, Symbol.dice.bindingPower,
    (pa.asOperand Symbol.dice.bindingPower false).2 ++
      (pb.asOperand Symbol.dice.bindingPower true).2 ++ [] ++ []⟩ : Piece) :
    Except Fault Piece) = _
  rw [String.append_empty, List.append_nil, List.append_nil, asOperand_snd, asOperand_snd]

theorem piece_conditional (hc : c.Plain) (ha : a.Plain) (hb : b.Plain)
    (hbrace : a.sym ≠ Symbol.openBrace.text) (hpc : piece c = .ok pc) (hpa : piece a = .ok pa)
    (hpb : piece b = .ok pb) :
    piece (mk Symbol.ifWord.text v line col [c, a, b]) =
      .ok ⟨Piece.withTags (pa.asOperand Symbol.ifWord.bindingPower true).1 pa.tags ++ " if " ++
        pc.full ++ " else " ++ pb.full, Symbol.ifWord.bindingPower, []⟩ := by
  have hkind : (Symbol.ifWord.isArithmetic || Symbol.ifWord.isComparison) = false := rfl
  rw [piece_eq]
  unfold pieceWith
  rw [parts_of_children (by simp [children, hc, ha, hb])]
  simp only [sym_mk, children_mk, bindingPower, Symbol.text_inj, reduceCtorEq, if_false,
    if_true, List.attach_cons, List.attach_nil, List.map_cons, List.map_nil,
    Symbol.powerOfText_text, Symbol.ofText?_text, Option.map_some, Option.getD_some, hpa, hpb, hpc,
    false_and, hkind, Bool.false_eq_true, hbrace]
  show (Except.ok (⟨Piece.withTags (pa.asOperand Symbol.ifWord.bindingPower true).1
    (pa.asOperand Symbol.ifWord.bindingPower true).2 ++ " if " ++ pc.full ++ " else " ++ pb.full,
    Symbol.ifWord.bindingPower, []⟩ : Piece) : Except Fault Piece) = _
  rw [asOperand_snd]

end Pieces

theorem asOperand_left (cs : List Char) (power strength : Nat) (tags : List String) :
    ((⟨String.ofList cs, strength, tags⟩ : Piece).asOperand power false).1 =
      String.ofList (enclose (strength < power) cs) := by
  unfold Piece.asOperand enclose
  by_cases h : strength < power
  · rw [if_pos (.inl h), if_pos h]
    exact String.ext (by simp)
  · rw [if_neg (by simpa using h), if_neg h]

theorem asOperand_right (cs : List Char) (power strength : Nat) (tags : List String) :
    ((⟨String.ofList cs, strength, tags⟩ : Piece).asOperand power true).1 =
      String.ofList (enclose (strength ≤ power) cs) := by
  unfold Piece.asOperand enclose
  by_cases h : strength ≤ power
  · rw [if_pos (by simp; omega), if_pos h]
    exact String.ext (by simp)
  · rw [if_neg (by simp; omega), if_neg h]

/-- The written form of a formula is its spelling with a placeholder after
every throw; it binds as its top symbol says and carries no tags. -/
theorem Formula.piece_eq {t : Node} (ht : t.Formula) :
    piece t = .ok ⟨String.ofList (t.spell placeholder.toList), t.printPower, []⟩ := by
  induction ht with
  | @numeral v line col hv =>
    rw [piece_number]
    simp [spell]
  | negate ha iha =>
    rw [piece_negate ha.plain iha, asOperand_left]
    congr 2
    exact String.ext (by simp [spell])
  | @binary s a b line col hs ha hb iha ihb =>
    rw [piece_spaced hs ha.plain hb.plain iha ihb, asOperand_left, asOperand_right,
      printPower_spaced hs]
    congr 2
    apply String.ext
    simp [spell, Symbol.text_inj, Symbol.ne_dice_of_spaced hs, Piece.withTags,
      Symbol.powerOfText_text]
  | throw ha hb iha ihb =>
    rw [piece_throw ha.plain hb.plain iha ihb, asOperand_left, asOperand_right]
    congr 2
    exact String.ext (by simp [spell])
  | conditional hc ha hb ihc iha ihb =>
    rw [piece_conditional hc.plain ha.plain hb.plain ha.sym_ne.2.2.2 ihc iha ihb, asOperand_right]
    congr 2
    exact String.ext (by simp [spell, Piece.withTags, Piece.full])

theorem toNat_of_isDigit {c : Char} (h : c.isDigit = true) : 48 ≤ c.toNat ∧ c.toNat ≤ 57 := by
  simpa [Char.isDigit, UInt32.le_iff_toNat_le] using h

/-- No character that starts or ends a unit is a blank. -/
theorem isBlank_of_unit {c : Char} (h : c.isDigit ∨ c = '-' ∨ c = '(' ∨ c = '.' ∨ c = ')') :
    Text.isBlank c = false := by
  rcases h with h | rfl | rfl | rfl | rfl
  · obtain ⟨h48, h57⟩ := toNat_of_isDigit h
    have digits : ∀ n < 10, Text.blankCodes.contains (48 + n) = false := by decide
    have := digits (c.toNat - 48) (by omega)
    rwa [show 48 + (c.toNat - 48) = c.toNat by omega] at this
  all_goals decide

theorem trimChars_unit {cs : List Char} (h1 : StartsUnit cs) (h2 : EndsUnit cs) :
    Text.trimChars cs = cs := by
  obtain ⟨c, rest, hc, hcu⟩ := h1
  obtain ⟨front, d, hd, hdu⟩ := h2
  have hcb : Text.isBlank c = false := isBlank_of_unit (by rcases hcu with h | h | h <;> simp [h])
  have hdb : Text.isBlank d = false := isBlank_of_unit (by rcases hdu with h | h | h <;> simp [h])
  have first : cs.dropWhile Text.isBlank = cs := by
    rw [hc, List.dropWhile_cons_of_neg (by simp [hcb])]
  have last : cs.reverse.dropWhile Text.isBlank = cs.reverse := by
    rw [hd, List.reverse_append, List.reverse_singleton, List.singleton_append,
      List.dropWhile_cons_of_neg (by simp [hdb])]
  rw [Text.trimChars, first, last, List.reverse_reverse]

/-- The canonical text of a formula is its spelling with a placeholder after every throw. -/
theorem Formula.render_eq {t : Node} (ht : t.Formula) :
    render t = .ok (String.ofList (t.spell placeholder.toList)) := by
  have marked : EndsUnit placeholder.toList := ⟨['(', '%', 's'], ')', rfl, by simp⟩
  rw [render, ht.piece_eq]
  simp only [Functor.map, Except.map, Piece.full, Piece.withTags, String.intercalate_singleton,
    Text.trim, String.toList_ofList, trimChars_unit (ht.startsUnit _) (ht.endsUnit (.inr marked))]

end Node

end DiceNotation
