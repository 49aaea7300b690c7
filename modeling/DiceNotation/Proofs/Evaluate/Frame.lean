import DiceNotation.Proofs.Evaluate.Steps
import DiceNotation.Proofs.Throw.Roll
/-!
# The frame of an evaluation

A successful evaluation only adds throws: those rolled before keep their
place, their faces and their colour.  It leaves the depth and the limits as
they were, and every throw it adds is sound.  Inside an operator chain (at a
depth above 0) it takes no tag off the stack, credits no total and colours no
throw: the chain that encloses it does, once it is back at depth 0.

`Keeps` gathers this frame, and `eval_keeps` proves it by induction on the
size of the tree from what `Eval.eval_ran` says each kind of node did.
-/

namespace DiceNotation

namespace Tally

theorem lookup_cons_of_ne {k c : String} {b : Value} {es : List (String × Value)} (h : k ≠ c) :
    ((c, b) :: es).lookup k = es.lookup k := by
  simp [List.lookup_cons, beq_false_of_ne h]

/-- Crediting a colour changes its total alone: it adds the value to the total
the colour had, or to zero when it had none. -/
theorem credit_lookup {totals totals' : List (String × Value)} {colour : String} {v : Value}
    (h : credit totals colour v = .ok totals') :
    (∀ k, k ≠ colour → totals'.lookup k = totals.lookup k) ∧
      ∃ w, totals'.lookup colour = some w ∧
        Value.add ((totals.lookup colour).getD (.int 0)) v = .ok w := by
  induction totals generalizing totals' with
  | nil =>
    unfold credit at h
    cases hsum : Value.add (.int 0) v with
    | error f => simp [hsum] at h
    | ok sum =>
      simp only [hsum, bind, Except.bind, pure, Except.pure, Except.ok.injEq] at h
      subst h
      exact ⟨fun k hk => lookup_cons_of_ne hk, sum, List.lookup_cons_self, by simpa using hsum⟩
  | cons entry rest ih =>
    obtain ⟨c, w⟩ := entry
    unfold credit at h
    by_cases hc : c = colour
    · -- the colour has a total already: it is added to in place
      subst hc
      rw [if_pos rfl] at h
      cases hsum : w.add v with
      | error f => simp [hsum] at h
      | ok sum =>
        simp only [hsum, bind, Except.bind, pure, Except.pure, Except.ok.injEq] at h
        subst h
        exact ⟨fun k hk => by rw [lookup_cons_of_ne hk, lookup_cons_of_ne hk], sum,
          List.lookup_cons_self, by simpa using hsum⟩
    · rw [if_neg hc] at h
      cases hr : credit rest colour v with
      | error f => simp [hr] at h
      | ok rest' =>
        simp only [hr, bind, Except.bind, pure, Except.pure, Except.ok.injEq] at h
        subst h
        obtain ⟨hk, w', hw', hadd⟩ := ih hr
        refine ⟨fun k hk' => ?_, w', by rw [lookup_cons_of_ne (Ne.symm hc), hw'], by
          rwa [lookup_cons_of_ne (Ne.symm hc)]⟩
        by_cases hkc : k = c
        · subst hkc
          rw [List.lookup_cons_self, List.lookup_cons_self]
        · rw [lookup_cons_of_ne hkc, lookup_cons_of_ne hkc, hk k hk']

end Tally

namespace Eval

/-- Every throw of a session is sound under the session's limits. -/
def AllSound (s : Session) : Prop :=
  ∀ th ∈ s.tally.rolled, th.Sound s.tally.limits

/-- What an evaluation keeps of the session it starts from. -/
structure Keeps (s s' : Session) : Prop where
  rolled : s.tally.rolled <+: s'.tally.rolled
  depth : s'.tally.depth = s.tally.depth
  limits : s'.tally.limits = s.tally.limits
  sound : AllSound s → AllSound s'
  deep : 0 < s.tally.depth →
    s.tally.colours <:+ s'.tally.colours ∧ s'.tally.totals = s.tally.totals ∧
      ∀ th ∈ s'.tally.rolled.drop s.tally.rolled.length, th.colour = ""

namespace Keeps

theorem refl (s : Session) : Keeps s s :=
  ⟨List.prefix_refl _, rfl, rfl, id, fun _ => ⟨List.suffix_refl _, rfl, by simp⟩⟩

theorem trans {s₁ s₂ s₃ : Session} (h₁ : Keeps s₁ s₂) (h₂ : Keeps s₂ s₃) : Keeps s₁ s₃ where
  rolled := h₁.rolled.trans h₂.rolled
  depth := h₂.depth.trans h₁.depth
  limits := h₂.limits.trans h₁.limits
  sound := h₂.sound ∘ h₁.sound
  deep hd := by
    obtain ⟨hc₁, ht₁, hn₁⟩ := h₁.deep hd
    obtain ⟨hc₂, ht₂, hn₂⟩ := h₂.deep (h₁.depth ▸ hd)
    refine ⟨hc₁.trans hc₂, ht₂.trans ht₁, ?_⟩
    -- the throws added are those of the first step, then those of the second
    obtain ⟨a, ha⟩ := h₁.rolled
    obtain ⟨b, hb⟩ := h₂.rolled
    rw [← ha] at hn₁
    rw [← hb] at hn₂
    intro th hth
    rw [← hb, ← ha, List.append_assoc, List.drop_left] at hth
    rcases List.mem_append.mp hth with h | h
    · exact hn₁ th (by rwa [List.drop_left])
    · exact hn₂ th (by rwa [List.drop_left])

end Keeps

/-! ## One step -/

/-- Setting the waiting drops keeps the frame. -/
theorem keeps_drops (s : Session) (n : Node) (count : Int) :
    Keeps s ⟨setDrop n count s.tally, s.draws⟩ := by
  unfold setDrop
  split <;>
  exact ⟨List.prefix_refl _, rfl, rfl, id, fun _ => ⟨List.suffix_refl _, rfl, by simp [Tally.rolled, List.drop_eq_nil_of_le]⟩⟩

/-- Pushing a tag keeps the frame: the stack only grows. -/
theorem keeps_tag (s : Session) (colour : String) :
    Keeps s ⟨{ s.tally with colours := colour :: s.tally.colours }, s.draws⟩ :=
  ⟨List.prefix_refl _, rfl, rfl, id, fun _ => ⟨List.suffix_cons _ _, rfl, by simp [Tally.rolled, List.drop_eq_nil_of_le]⟩⟩

/-- Rolling and recording a throw keeps the frame: the throw is sound, and
inside a chain it keeps the empty colour and takes no tag. -/
theorem keeps_pushAndRoll {count sides total : Int} {s s' : Session}
    (h : pushAndRoll { count, sides } s = .ok total s') : Keeps s s' := by
  obtain ⟨rolled, draws, hroll, -, hadd⟩ := pushAndRoll_inv h
  obtain ⟨hsound, hsame⟩ := Throw.roll_sound rfl hroll
  obtain ⟨totals, rfl, htotals, -⟩ := addToColour_inv hadd
  have hcolour : rolled.colour =
      if s.tally.depth = 0 then s.tally.colours.head?.getD "" else "" := by
    simpa using congrArg Throw.colour hsame
  refine ⟨?_, rfl, rfl, ?_, ?_⟩
  · simp [Tally.rolled]
  · intro hall th hth
    simp only [Tally.rolled, Array.toList_push, List.mem_append, List.mem_singleton] at hth
    rcases hth with hth | rfl
    · exact hall th hth
    · exact hsound
  · intro hd
    have hd' : s.tally.depth ≠ 0 := by omega
    simp [hd', htotals hd', Tally.rolled, hcolour]

/-- Painting as many of the latest throws as were added after `l` colours exactly those. -/
theorem toList_paintLatest_append {a : Array Throw} {l added : List Throw}
    (h : a.toList = l ++ added) (colour : String) :
    (paintLatest (a.size - l.length) colour a).toList =
      l ++ added.map fun th => { th with colour } := by
  have hsize : a.size = l.length + added.length := by
    rw [← Array.length_toList, h, List.length_append]
  rw [toList_paintLatest colour a (by omega), h, show a.size - (a.size - l.length) = l.length by omega,
    List.take_left, List.drop_left]

/-- An operator chain that does not come back to depth 0 keeps the frame of its operands. -/
theorem keeps_chain {s s₁ : Session}
    (K : Keeps ⟨{ s.tally with depth := s.tally.depth + 1 }, s.draws⟩ s₁) :
    Keeps s ⟨{ s₁.tally with depth := s₁.tally.depth - 1 }, s₁.draws⟩ where
  rolled := K.rolled
  depth := by
    have := K.depth
    dsimp only at this ⊢
    omega
  limits := K.limits
  sound := K.sound
  deep hd := K.deep (by dsimp only; omega)

/-- Back at depth 0, an operator chain gives the most recent tag to the throws
its operands added, pops it, and credits its value to it. -/
theorem chainTop_inv {s s₁ s' : Session} {v : Value}
    (hpre : s.tally.rolled <+: s₁.tally.rolled)
    (ha : addToColour (s₁.tally.colours.head?.getD "") v
      ⟨{ s₁.tally with
          depth := s₁.tally.depth - 1, colours := s₁.tally.colours.tail,
          throws := paintLatest (s₁.tally.throws.size - s.tally.throws.size)
            (s₁.tally.colours.head?.getD "") s₁.tally.throws }, s₁.draws⟩ = .ok () s')
    (hd : s₁.tally.depth - 1 = 0) :
    s'.tally.rolled = s.tally.rolled ++ (s₁.tally.rolled.drop s.tally.rolled.length).map
        (fun th => { th with colour := s₁.tally.colours.head?.getD "" }) ∧
      s'.tally.colours = s₁.tally.colours.tail ∧ s'.tally.depth = 0 ∧
      s'.tally.limits = s₁.tally.limits ∧
      Tally.credit s₁.tally.totals (s₁.tally.colours.head?.getD "") v = .ok s'.tally.totals := by
  obtain ⟨totals, rfl, -, hcredit⟩ := addToColour_inv ha
  obtain ⟨added, hadded⟩ := hpre
  have hsize : s.tally.throws.size = s.tally.rolled.length := (Array.length_toList).symm
  refine ⟨?_, rfl, hd, rfl, hcredit hd⟩
  have hthrows : s₁.tally.throws.toList = s.tally.rolled ++ added := hadded.symm
  show (paintLatest (s₁.tally.throws.size - s.tally.throws.size) _ s₁.tally.throws).toList = _
  rw [hsize, toList_paintLatest_append hthrows, ← hadded, List.drop_left]

/-- An operator chain back at depth 0 keeps the frame: the throws it colours are
those its operands added. -/
theorem keeps_chainTop {s s₁ s' : Session} {v : Value}
    (K : Keeps ⟨{ s.tally with depth := s.tally.depth + 1 }, s.draws⟩ s₁)
    (ha : addToColour (s₁.tally.colours.head?.getD "") v
      ⟨{ s₁.tally with
          depth := s₁.tally.depth - 1, colours := s₁.tally.colours.tail,
          throws := paintLatest (s₁.tally.throws.size - s.tally.throws.size)
            (s₁.tally.colours.head?.getD "") s₁.tally.throws }, s₁.draws⟩ = .ok () s')
    (hd : s₁.tally.depth - 1 = 0) : Keeps s s' := by
  obtain ⟨hrolled, -, hdepth, hlimits, -⟩ := chainTop_inv K.rolled ha hd
  have hs : s.tally.depth = 0 := by
    have := K.depth
    dsimp only at this
    omega
  refine ⟨?_, by rw [hdepth, hs], hlimits.trans K.limits, ?_, fun h => absurd h (by omega)⟩
  · rw [hrolled]
    exact List.prefix_append _ _
  · intro hall th hth
    have hall₁ := K.sound hall
    rw [hrolled, List.mem_append, List.mem_map] at hth
    rw [hlimits]
    rcases hth with hth | ⟨th₁, hth₁, rfl⟩
    · rw [K.limits]
      exact hall th hth
    · exact (hall₁ th₁ (List.mem_of_mem_drop hth₁)).recolour _

/-! ## A whole evaluation -/

/-- Every successful evaluation keeps the frame. -/
theorem eval_keeps {n : Node} {s s' : Session} {v : Value} (h : eval n s = .ok v s') :
    Keeps s s' := by
  -- the induction: every node a node evaluates in turn is smaller than it
  have hsub : ∀ c, c.weight < n.weight →
      ∀ {s₀ s₁ : Session} {v : Value}, eval c s₀ = .ok v s₁ → Keeps s₀ s₁ :=
    fun c _ _ _ _ hc => eval_keeps hc
  have hwalk : ∀ {cs : List Node} {s₀ s₁ : Session}, (∀ c ∈ cs, c.weight < n.weight) →
      Walk cs s₀ s₁ → Keeps s₀ s₁ :=
    fun hcs hw => hw.preserves Keeps.refl Keeps.trans fun c hc => hsub c (hcs c hc)
  have hchildren : ∀ c ∈ n.children, c.weight < n.weight := fun _ hc => Node.weight_lt_of_mem hc
  have hran := eval_ran h
  generalize kindOf n = k at hran
  cases hran with
  | children _ hw => exact hwalk hchildren hw
  | drop _ hw count => exact (hwalk hchildren hw).trans (keeps_drops _ n count)
  | throw _ hw _ _ _ hr => exact (hwalk hchildren hw).trans (keeps_pushAndRoll hr)
  | chain _ hw => exact keeps_chain (hwalk hchildren hw)
  | chainTop _ hw _ hd ha => exact keeps_chainTop (hwalk hchildren hw) ha hd
  | tag _ => exact keeps_tag s n.value
  | «repeat» _ hb hc hcount _ hw =>
    refine (hsub _ (weight_lt_of_getElem? hc) hcount).trans (hwalk (fun c hc' => ?_) hw)
    rw [List.eq_of_mem_replicate hc']
    exact weight_lt_of_getElem? hb
  | branch _ hc _ hl hr _ hch hw => exact hwalk (branch_weight_lt hc hl hr hch) hw
termination_by n.weight

/-- An operator chain evaluated at depth 0 leaves no tag on the stack; the
colour of the most recent tag its operands left (the empty colour if none) is
given to every throw its operands added, and its value is credited to it. -/
theorem eval_chainTop {n : Node} {s s' : Session} {v : Value} (hk : n.IsArithmetic)
    (h0 : s.tally.depth = 0) (h : eval n s = .ok v s') :
    s'.tally.colours = [] ∧
      ∃ s₁, Walk n.children ⟨{ s.tally with depth := 1 }, s.draws⟩ s₁ ∧
        s'.tally.rolled = s.tally.rolled ++ (s₁.tally.rolled.drop s.tally.rolled.length).map
          (fun th => { th with colour := s₁.tally.colours.head?.getD "" }) ∧
        Tally.credit s.tally.totals (s₁.tally.colours.head?.getD "") v = .ok s'.tally.totals := by
  have hkeeps : ∀ {cs : List Node} {s₀ s₁ : Session}, Walk cs s₀ s₁ → Keeps s₀ s₁ :=
    fun hw => hw.preserves Keeps.refl Keeps.trans fun _ _ _ _ _ hc => eval_keeps hc
  have hr := eval_ran h
  rw [kindOf_chain hk] at hr
  cases hr with
  | chain _ hw _ hd =>
    -- the operands come back to depth 1, so the chain comes back to depth 0
    have := (hkeeps hw).depth
    dsimp only at this
    omega
  | chainTop _ hw hc hd ha =>
    have K := hkeeps hw
    obtain ⟨-, htotals, -⟩ := K.deep (by dsimp only; omega)
    obtain ⟨hrolled, hcolours, -, -, hcredit⟩ := chainTop_inv K.rolled ha hd
    refine ⟨?_, _, by rwa [h0] at hw, hrolled, by rwa [htotals] at hcredit⟩
    -- at most one tag was left, and it was popped
    rw [hcolours]
    exact List.eq_nil_of_length_eq_zero (by rw [List.length_tail]; omega)

/-- The frame and colour law of the evaluator.  A successful evaluation of any
node from any session only adds throws after the ones it found, untouched, and
ends at the depth it began at.  Entered inside an operator chain it takes no
tag off the stack, leaves the totals alone and adds throws of the empty colour
only.  An operator chain entered at depth 0 leaves the stack empty; the colour
`c` of the most recent tag its operands left (the empty colour if none) is
credited with exactly its value, no other colour's total changes, and every
throw it added has colour `c`. -/
theorem eval_frame {n : Node} {s s' : Session} {v : Value} (h : eval n s = .ok v s') :
    s.tally.rolled <+: s'.tally.rolled ∧ s'.tally.depth = s.tally.depth ∧
      (0 < s.tally.depth →
        s.tally.colours <:+ s'.tally.colours ∧ s'.tally.totals = s.tally.totals ∧
          ∀ th ∈ s'.tally.rolled.drop s.tally.rolled.length, th.colour = "") ∧
      (n.IsArithmetic → s.tally.depth = 0 →
        s'.tally.colours = [] ∧
          ∃ s₁ c, Walk n.children ⟨{ s.tally with depth := 1 }, s.draws⟩ s₁ ∧
            c = s₁.tally.colours.head?.getD "" ∧
            (∀ k, k ≠ c → s'.tally.totals.lookup k = s.tally.totals.lookup k) ∧
            (∃ w, s'.tally.totals.lookup c = some w ∧
              Value.add ((s.tally.totals.lookup c).getD (.int 0)) v = .ok w) ∧
            ∀ th ∈ s'.tally.rolled.drop s.tally.rolled.length, th.colour = c) := by
  have K := eval_keeps h
  refine ⟨K.rolled, K.depth, K.deep, fun hk h0 => ?_⟩
  obtain ⟨hcolours, s₁, hw, hrolled, hcredit⟩ := eval_chainTop hk h0 h
  obtain ⟨hother, w, hw', hadd⟩ := Tally.credit_lookup hcredit
  refine ⟨hcolours, s₁, _, hw, rfl, hother, ⟨w, hw', hadd⟩, fun th hth => ?_⟩
  rw [hrolled, List.drop_left, List.mem_map] at hth
  obtain ⟨th₁, -, rfl⟩ := hth
  rfl

/-- A tag pushes its colour and is worth 0. -/
theorem eval_tag (n : Node) (hk : Text.upper n.sym = Symbol.ident.text) :
    eval n = fun s => .ok (.int 0) ⟨{ s.tally with colours := n.value :: s.tally.colours }, s.draws⟩ := by
  funext s
  rw [eval]
  unfold evalWith
  rw [if_neg (by rw [hk]; decide), if_neg (by rw [hk]; decide), if_neg (by rw [hk]; decide),
    if_neg (by rw [hk]; decide), if_neg (by rw [hk]; decide), if_pos hk]
  rfl

/-- An empty block, `roll` statement or root is worth 0 and changes nothing. -/
theorem eval_sum_nil (n : Node)
    (hk : Text.upper n.sym = "\x7b" ∨ Text.upper n.sym = "ROLL" ∨ Text.upper n.sym = "(ROOTNODE)")
    (hc : n.children = []) : eval n = fun s => .ok (.int 0) s := by
  obtain ⟨sym, value, line, col, cs⟩ := n
  simp only [Node.children] at hc
  subst hc
  funext s
  rw [eval]
  unfold evalWith
  rcases hk with hk | hk | hk <;>
  · rw [if_neg (by rw [hk]; decide), if_neg (by rw [hk]; decide), if_neg (by rw [hk]; decide),
      if_neg (by rw [hk]; decide), if_pos (by rw [hk]; decide)]
    rfl

/-- `fire * \x7b\x7d` at depth 0: the tag is popped and the chain's value credited to it. -/
theorem eval_tagged_chain :
    eval (.mk "*" "*" 0 0 [.mk Symbol.ident.text "fire" 0 0 [], .mk "\x7b" "\x7b" 0 0 []]) ⟨{}, {}⟩ =
      .ok (.int 0) ⟨{ totals := [("fire", .int 0)] }, {}⟩ := by
  rw [eval]
  unfold evalWith
  rw [if_neg (by decide), if_neg (by decide), if_neg (by decide), if_pos (by decide)]
  simp only [Node.children, List.attach_cons, List.attach_nil, List.map_cons, List.map_nil,
    List.foldlM_cons, List.foldlM_nil, eval_tag (.mk Symbol.ident.text "fire" 0 0 []) (by decide),
    eval_sum_nil (.mk "\x7b" "\x7b" 0 0 []) (.inl (by decide)) rfl]
  rfl

theorem eval_frame_tagged_chain :
    let n := Node.mk "*" "*" 0 0 [.mk Symbol.ident.text "fire" 0 0 [], .mk "\x7b" "\x7b" 0 0 []]
    let s : Session := ⟨{}, {}⟩
    let s' : Session := ⟨{ totals := [("fire", .int 0)] }, {}⟩
    eval n s = .ok (.int 0) s' ∧
      s.tally.rolled <+: s'.tally.rolled ∧ s'.tally.depth = s.tally.depth ∧
      (0 < s.tally.depth →
        s.tally.colours <:+ s'.tally.colours ∧ s'.tally.totals = s.tally.totals ∧
          ∀ th ∈ s'.tally.rolled.drop s.tally.rolled.length, th.colour = "") ∧
      (n.IsArithmetic → s.tally.depth = 0 →
        s'.tally.colours = [] ∧
          ∃ s₁ c, Walk n.children ⟨{ s.tally with depth := 1 }, s.draws⟩ s₁ ∧
            c = s₁.tally.colours.head?.getD "" ∧
            (∀ k, k ≠ c → s'.tally.totals.lookup k = s.tally.totals.lookup k) ∧
            (∃ w, s'.tally.totals.lookup c = some w ∧
              Value.add ((s.tally.totals.lookup c).getD (.int 0)) (.int 0) = .ok w) ∧
            ∀ th ∈ s'.tally.rolled.drop s.tally.rolled.length, th.colour = c) :=
  ⟨eval_tagged_chain, eval_frame eval_tagged_chain⟩

end Eval

/-- A whole evaluation is an evaluation from a fresh tally. -/
theorem Node.evaluate_eq_ok {limits : Limits} {draws : Draws} {n : Node} {s : Session}
    {v : Value} : n.evaluate limits draws = (s, .ok v) ↔ Eval.eval n ⟨{ limits }, draws⟩ = .ok v s := by
  unfold Node.evaluate
  constructor
  · intro h
    split at h
    · rename_i v' s'' hrun
      cases h
      exact hrun
    · cases h
  · intro h
    rw [show (Eval.eval n).run ⟨{ limits }, draws⟩ = .ok v s from h]

/-- Every throw a successful evaluation records is sound under the limits: at
most as many dice and sides as they allow and at least one side, one sorted
face per die, each a face of the die, no more drops than dice, and the least
and greatest totals the kept count makes.  With drops that are not negative
and of one kind at most, the total is the sum of the faces kept once the drops
are taken off, between the least and the greatest total.  With highest drops
(and lowest drops that are not negative) only the highest are taken off the
total: the lowest drops count in the least and greatest totals alone. -/
theorem Node.evaluate_throws_sound {limits : Limits} {draws : Draws} {n : Node} {s : Session}
    {v : Value} (h : n.evaluate limits draws = (s, .ok v)) :
    ∀ th ∈ s.tally.rolled, th.Sound limits ∧
      (0 ≤ th.dropHighest → 0 ≤ th.dropLowest → (th.dropHighest = 0 ∨ th.dropLowest = 0) →
        th.total = ((th.faces.drop th.dropLowest.toNat).take
          (th.count - (th.dropHighest + th.dropLowest)).toNat).sum ∧
        th.least ≤ th.total ∧ th.total ≤ th.greatest) ∧
      (0 < th.dropHighest → 0 ≤ th.dropLowest →
        th.total = (th.faces.take (th.count - th.dropHighest).toNat).sum) := by
  have K := Eval.eval_keeps (Node.evaluate_eq_ok.mp h)
  -- a fresh tally has no throws, so every throw recorded was rolled by the evaluation
  have hall := K.sound fun th hth => by simp [Tally.rolled] at hth
  intro th hth
  have hsound : th.Sound limits := by
    have := hall th hth
    rwa [K.limits] at this
  exact ⟨hsound, hsound.total_of_single, hsound.total_of_dropHighest⟩

theorem Node.evaluate_throws_sound_tagged_chain :
    let n := Node.mk "*" "*" 0 0 [.mk Symbol.ident.text "fire" 0 0 [], .mk "\x7b" "\x7b" 0 0 []]
    let s : Session := ⟨{ totals := [("fire", .int 0)] }, {}⟩
    n.evaluate {} {} = (s, .ok (.int 0)) ∧
      ∀ th ∈ s.tally.rolled, th.Sound {} ∧
        (0 ≤ th.dropHighest → 0 ≤ th.dropLowest → (th.dropHighest = 0 ∨ th.dropLowest = 0) →
          th.total = ((th.faces.drop th.dropLowest.toNat).take
            (th.count - (th.dropHighest + th.dropLowest)).toNat).sum ∧
          th.least ≤ th.total ∧ th.total ≤ th.greatest) ∧
        (0 < th.dropHighest → 0 ≤ th.dropLowest →
          th.total = (th.faces.take (th.count - th.dropHighest).toNat).sum) := by
  intro n s
  have h : n.evaluate {} {} = (s, .ok (.int 0)) := Node.evaluate_eq_ok.mpr Eval.eval_tagged_chain
  exact ⟨h, Node.evaluate_throws_sound h⟩

end DiceNotation
