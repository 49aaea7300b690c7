import DiceNotation.Proofs.Canonical.Marks
import DiceNotation.Proofs.Evaluate.Drops
import DiceNotation.Proofs.Evaluate.Sums
/-!
# The placeholders show the throws written there

The canonical text has a placeholder after every throw, and `Faces.fill`
fills them in text order with the faces of the throws an evaluation recorded,
in the order it rolled them.  The two orders agree where the written form says
so: `Written.settled` says that every evaluation rolls the throws written, in
order, and `Written.tails` that it rolls some first of them, the others
standing in branches not taken (`RollsOf`).  Then the `k`-th placeholder shows
the faces rolled by the throw written there, and `?` exactly when that throw
was not evaluated.  Where neither holds the orders differ: an infix `if` is
written with its branch before the condition it evaluates first.
-/

namespace DiceNotation

namespace Eval

/-- The throws a trace rolls, each with the node that rolled it, in order. -/
def rolledBy : List Event → List (Node × Throw)
  | [] => []
  | .drop _ _ :: es => rolledBy es
  | .roll n th :: es => (n, th) :: rolledBy es

/-- The nodes that rolled the throws of a trace, in order. -/
def rollers (es : List Event) : List Node :=
  (rolledBy es).map Prod.fst

theorem rolledBy_append (es es' : List Event) :
    rolledBy (es ++ es') = rolledBy es ++ rolledBy es' := by
  induction es with
  | nil => rfl
  | cons e es ih => cases e <;> simp [rolledBy, ih]

@[simp] theorem rollers_nil : rollers [] = [] := rfl

theorem rollers_append (es es' : List Event) : rollers (es ++ es') = rollers es ++ rollers es' := by
  simp [rollers, rolledBy_append]

@[simp] theorem rollers_drop (n : Node) (count : Int) : rollers [.drop n count] = [] := rfl

@[simp] theorem rollers_roll (n : Node) (th : Throw) : rollers [.roll n th] = [n] := rfl

theorem map_snd_rolledBy (es : List Event) : (rolledBy es).map Prod.snd = rolls es := by
  induction es with
  | nil => rfl
  | cons e es ih => cases e <;> simp [rolledBy, rolls, ih]

/-! ## A trace, by the kind of node -/

section Inversion

variable {n : Node} {s s' : Session} {es : List Event}

theorem Traced.kind_ne (h : Traced n s es s') : kindOf n ≠ .unsupported := by
  cases h <;> simp_all only [ne_eq, reduceCtorEq, not_false_eq_true]

theorem Traced.children_inv (h : Traced n s es s') (hk : kindOf n = .children) :
    TracedAll n.children s es s' := by
  cases h with
  | children _ _ hw => exact hw
  | _ => simp_all only [reduceCtorEq]

theorem Traced.chain_inv (h : Traced n s es s') (hk : kindOf n = .chain) :
    ∃ s₀ s₁, TracedAll n.children s₀ es s₁ := by
  cases h with
  | chain _ _ hw _ => exact ⟨_, _, hw⟩
  | _ => simp_all only [reduceCtorEq]

theorem Traced.throw_inv (h : Traced n s es s') (hk : kindOf n = .throw) :
    ∃ es₀ s₁ th, TracedAll n.children s es₀ s₁ ∧ es = es₀ ++ [.roll n th] := by
  cases h with
  | throw _ _ hw _ _ => exact ⟨_, _, _, hw, rfl⟩
  | _ => simp_all only [reduceCtorEq]

theorem Traced.drop_inv (h : Traced n s es s') (hk : kindOf n = .drop) :
    ∃ es₀ s₁ count, TracedAll n.children s es₀ s₁ ∧ es = es₀ ++ [.drop n count] := by
  cases h with
  | drop _ _ _ hw => exact ⟨_, _, _, hw, rfl⟩
  | _ => simp_all only [reduceCtorEq]

theorem Traced.tag_inv (h : Traced n s es s') (hk : kindOf n = .tag) : es = [] := by
  cases h with
  | tag => rfl
  | _ => simp_all only [reduceCtorEq]

theorem Traced.repeat_inv (h : Traced n s es s') (hk : kindOf n = .repeat) :
    ∃ body count cv s₁ reps es₁ es₂, n.children[0]? = some body ∧ n.children[1]? = some count ∧
      eval count s = .ok cv s₁ ∧ cv.toInt = .ok reps ∧ Traced count s es₁ s₁ ∧
      TracedAll (List.replicate reps.toNat body) s₁ es₂ s' ∧ es = es₁ ++ es₂ := by
  cases h with
  | «repeat» _ _ hb hc hcv hreps hcount hw =>
    exact ⟨_, _, _, _, _, _, _, hb, hc, hcv, hreps, hcount, hw, rfl⟩
  | _ => simp_all only [reduceCtorEq]

/-- The condition of an `if` that evaluates is a comparison, and its two sides
are evaluated before the branch taken. -/
theorem Traced.branch_inv (h : Traced n s es s') (hk : kindOf n = .branch) :
    ∃ cond left right chosen, n.children[0]? = some cond ∧ cond.IsComparison ∧
      cond.children[0]? = some left ∧ cond.children[1]? = some right ∧ Chosen n chosen ∧
      TracedAll (left :: right :: chosen) s es s' := by
  cases h with
  | branch heval _ hc hl hr hch hw =>
    -- the evaluator refuses a condition that is no comparison
    have hran := eval_ran heval
    rw [hk] at hran
    cases hran with
    | branch _ hc' hcmp =>
      rw [hc] at hc'
      cases hc'
      exact ⟨_, _, _, _, hc, hcmp, hl, hr, hch, hw⟩
  | _ => simp_all only [reduceCtorEq]

end Inversion

section All

variable {c : Node} {cs : List Node} {s s' : Session} {es : List Event}

theorem TracedAll.nil_inv (h : TracedAll [] s es s') : es = [] := by
  cases h
  rfl

theorem TracedAll.cons_inv (h : TracedAll (c :: cs) s es s') :
    ∃ es₁ es₂ s₁, Traced c s es₁ s₁ ∧ TracedAll cs s₁ es₂ s' ∧ es = es₁ ++ es₂ := by
  cases h with
  | cons hc hw => exact ⟨_, _, _, hc, hw, rfl⟩

theorem TracedAll.single_inv (h : TracedAll [c] s es s') : ∃ s₁, Traced c s es s₁ := by
  obtain ⟨es₁, es₂, s₁, hc, hw, rfl⟩ := h.cons_inv
  rw [hw.nil_inv, List.append_nil]
  exact ⟨s₁, hc⟩

theorem TracedAll.append_inv : ∀ {l₁ l₂ : List Node} {s s' : Session} {es : List Event},
    TracedAll (l₁ ++ l₂) s es s' →
      ∃ es₁ es₂ s₁, TracedAll l₁ s es₁ s₁ ∧ TracedAll l₂ s₁ es₂ s' ∧ es = es₁ ++ es₂
  | [], _, s, _, _, h => ⟨[], _, s, .nil s, h, rfl⟩
  | c :: l₁, l₂, _, _, _, h => by
    obtain ⟨es₁, es₂, s₁, hc, hw, rfl⟩ := h.cons_inv
    obtain ⟨es₃, es₄, s₂, h₃, h₄, rfl⟩ := TracedAll.append_inv hw
    exact ⟨es₁ ++ es₃, es₄, s₂, .cons hc h₃, h₄, (List.append_assoc _ _ _).symm⟩

end All

end Eval

namespace Node

open Eval

/-! ## What the written form allows of the throws rolled -/

/-- The throws `ns` an evaluation rolls, as a written form allows them: all
those written, in order, when it is settled; some first of them when it tails. -/
def RollsOf (throws : List Node) (settled tails : Bool) (ns : List Node) : Prop :=
  (settled = true → ns = throws) ∧ (tails = true → ns <+: throws)

section Rolls

variable {t t₁ t₂ ns ns₁ ns₂ : List Node} {settled tails s₁ s₂ u₁ u₂ : Bool}

theorem RollsOf.none : RollsOf [] true true [] :=
  ⟨fun _ => rfl, fun _ => List.prefix_refl _⟩

theorem RollsOf.idle (h : RollsOf t settled tails ns) (hs : settled = true) (ht : t = []) : ns = [] :=
  (h.1 hs).trans ht

theorem RollsOf.mono (h : RollsOf t s₁ u₁ ns) (hs : s₂ = true → s₁ = true)
    (hu : u₂ = true → u₁ = true) : RollsOf t s₂ u₂ ns :=
  ⟨fun h₂ => h.1 (hs h₂), fun h₂ => h.2 (hu h₂)⟩

/-- Two parts evaluated one after the other: all of the first when the whole is
settled, and all of the first before some of the second when it tails. -/
theorem RollsOf.append (h₁ : RollsOf t₁ s₁ u₁ ns₁) (h₂ : RollsOf t₂ s₂ u₂ ns₂) :
    RollsOf (t₁ ++ t₂) (s₁ && s₂) (s₁ && u₂) (ns₁ ++ ns₂) := by
  constructor
  · intro h
    rw [Bool.and_eq_true] at h
    rw [h₁.1 h.1, h₂.1 h.2]
  · intro h
    rw [Bool.and_eq_true] at h
    rw [h₁.1 h.1]
    exact (List.prefix_append_right_inj t₁).mpr (h₂.2 h.2)

/-- A throw rolls after its operands: settled exactly when they are. -/
theorem RollsOf.snoc (h : RollsOf t settled tails ns) (n : Node) :
    RollsOf (t ++ [n]) settled settled (ns ++ [n]) :=
  ⟨fun hs => by rw [h.1 hs], fun hs => h.1 hs ▸ List.prefix_refl _⟩

end Rolls

theorem Written.idle_eq_true {x : Written} : x.idle = true ↔ x.settled = true ∧ x.throws = [] := by
  simp [Written.idle]

/-- An `if` statement whose branch is not taken rolls the throws of its
condition alone. -/
theorem RollsOf.skip {z x : Written} {nc : List Node}
    (hz : RollsOf z.throws z.settled z.tails nc) :
    RollsOf (z.throws ++ x.throws) (z.settled && x.idle) (z.settled && x.tails) nc := by
  constructor
  · intro h
    simp only [Bool.and_eq_true, Written.idle_eq_true] at h
    rw [hz.1 h.1, h.2.2, List.append_nil]
  · intro h
    rw [Bool.and_eq_true] at h
    rw [hz.1 h.1]
    exact List.prefix_append _ _

/-- An `if` statement without `else` takes its branch. -/
theorem RollsOf.ifBare {z x : Written} {nc nx : List Node}
    (hz : RollsOf z.throws z.settled z.tails nc) (hx : RollsOf x.throws x.settled x.tails nx) :
    RollsOf (z.throws ++ x.throws) (z.settled && x.idle) (z.settled && x.tails) (nc ++ nx) :=
  (hz.append hx).mono (fun h => by
    simp only [Bool.and_eq_true, Written.idle_eq_true] at h ⊢
    exact ⟨h.1, h.2.1⟩) id

/-- An `if` statement takes its first branch: what it rolls is written first. -/
theorem RollsOf.ifThen {z x y : Written} {nc nx : List Node}
    (hz : RollsOf z.throws z.settled z.tails nc) (hx : RollsOf x.throws x.settled x.tails nx) :
    RollsOf (z.throws ++ x.throws ++ y.throws) (z.settled && x.idle && y.idle)
      (z.settled && (x.tails && y.idle || x.idle && y.tails)) (nc ++ nx) := by
  constructor
  · intro h
    simp only [Bool.and_eq_true, Written.idle_eq_true] at h
    rw [hz.1 h.1.1, hx.1 h.1.2.1, h.2.2, List.append_nil]
  · intro h
    simp only [Bool.and_eq_true, Bool.or_eq_true, Written.idle_eq_true] at h
    rcases h with ⟨hs, (⟨hxt, -, hyt⟩ | ⟨⟨hxs, hxt⟩, -⟩)⟩
    · rw [hz.1 hs, hyt, List.append_nil]
      exact (List.prefix_append_right_inj _).mpr (hx.2 hxt)
    · rw [hz.1 hs, hx.idle hxs hxt, List.append_nil, List.append_assoc]
      exact List.prefix_append _ _

/-- An `if` statement takes its other branch, written after a first branch that
rolls nothing whenever the whole may tail. -/
theorem RollsOf.ifElse {z x y : Written} {nc ny : List Node}
    (hz : RollsOf z.throws z.settled z.tails nc) (hy : RollsOf y.throws y.settled y.tails ny) :
    RollsOf (z.throws ++ x.throws ++ y.throws) (z.settled && x.idle && y.idle)
      (z.settled && (x.tails && y.idle || x.idle && y.tails)) (nc ++ ny) := by
  constructor
  · intro h
    simp only [Bool.and_eq_true, Written.idle_eq_true] at h
    rw [hz.1 h.1.1, hy.1 h.2.1, h.1.2.2, h.2.2, List.append_nil, List.append_nil]
  · intro h
    simp only [Bool.and_eq_true, Bool.or_eq_true, Written.idle_eq_true] at h
    rcases h with ⟨hs, (⟨-, hys, hyt⟩ | ⟨⟨-, hxt⟩, hyt⟩)⟩
    · rw [hz.1 hs, hy.idle hys hyt, List.append_nil, List.append_assoc]
      exact List.prefix_append _ _
    · rw [hz.1 hs, hxt, List.append_nil]
      exact (List.prefix_append_right_inj _).mpr (hy.2 hyt)

/-- An infix `if` takes its branch, written before the condition evaluated
first: it keeps the order only when the branch or the condition rolls nothing. -/
theorem RollsOf.conditionalThen {z x y : Written} {nc nx : List Node}
    (hz : RollsOf z.throws z.settled z.tails nc) (hx : RollsOf x.throws x.settled x.tails nx) :
    RollsOf (x.throws ++ z.throws ++ y.throws) (z.settled && x.idle && y.idle)
      (z.settled && (x.idle && y.tails) || z.idle && y.idle && x.tails) (nc ++ nx) := by
  constructor
  · intro h
    simp only [Bool.and_eq_true, Written.idle_eq_true] at h
    rw [hz.1 h.1.1, hx.1 h.1.2.1, h.1.2.2, h.2.2, List.append_nil, List.nil_append,
      List.append_nil]
  · intro h
    simp only [Bool.and_eq_true, Bool.or_eq_true, Written.idle_eq_true] at h
    rcases h with ⟨hs, ⟨hxs, hxt⟩, -⟩ | ⟨⟨⟨hzs, hzt⟩, -, hyt⟩, hxt⟩
    · rw [hz.1 hs, hx.idle hxs hxt, hxt, List.append_nil, List.nil_append]
      exact List.prefix_append _ _
    · rw [hz.idle hzs hzt, hzt, hyt, List.nil_append, List.append_nil, List.append_nil]
      exact hx.2 hxt

/-- An infix `if` takes its `else` branch, written after the condition. -/
theorem RollsOf.conditionalElse {z x y : Written} {nc ny : List Node}
    (hz : RollsOf z.throws z.settled z.tails nc) (hy : RollsOf y.throws y.settled y.tails ny) :
    RollsOf (x.throws ++ z.throws ++ y.throws) (z.settled && x.idle && y.idle)
      (z.settled && (x.idle && y.tails) || z.idle && y.idle && x.tails) (nc ++ ny) := by
  constructor
  · intro h
    simp only [Bool.and_eq_true, Written.idle_eq_true] at h
    rw [hz.1 h.1.1, hy.1 h.2.1, h.1.2.2, h.2.2, List.append_nil, List.nil_append,
      List.append_nil]
  · intro h
    simp only [Bool.and_eq_true, Bool.or_eq_true, Written.idle_eq_true] at h
    rcases h with ⟨hs, ⟨-, hxt⟩, hyt⟩ | ⟨⟨⟨hzs, hzt⟩, hys, hyt⟩, -⟩
    · rw [hz.1 hs, hxt, List.nil_append]
      exact (List.prefix_append_right_inj _).mpr (hy.2 hyt)
    · rw [hz.idle hzs hzt, hy.idle hys hyt, List.append_nil]
      exact List.nil_prefix

/-! ## Tags, drops and copies roll nothing of their own -/

theorem rollers_tags : ∀ {cs : List Node}, (∀ c ∈ cs, TagLeaf c) →
    ∀ {s s' : Session} {es : List Event}, TracedAll cs s es s' → rollers es = []
  | [], _, _, _, _, h => by rw [h.nil_inv]; rfl
  | c :: cs, hcs, _, _, _, h => by
    obtain ⟨es₁, es₂, s₁, hc, hw, rfl⟩ := h.cons_inv
    have hleaf := hcs c List.mem_cons_self
    obtain ⟨sym, v, l, k, ds⟩ := c
    have hk : kindOf (mk sym v l k ds) = .tag := by
      rw [show sym = Symbol.ident.text from hleaf.sym, kindOf_mk]
      decide
    rw [rollers_append, hc.tag_inv hk,
      rollers_tags (fun c hc' => hcs c (List.mem_cons_of_mem _ hc')) hw]
    rfl

theorem rollers_numeral {v : String} {l k : Nat} {cs : List Node} (hcs : ∀ c ∈ cs, TagLeaf c)
    {s s' : Session} {es : List Event} (h : Traced (mk Symbol.number.text v l k cs) s es s') :
    rollers es = [] :=
  rollers_tags hcs (h.children_inv (by rw [kindOf_mk]; decide))

theorem Drops.rollers {reads : Bool} {ds : List Node} {w : List Char}
    {ts : List (Symbol × String)} {g : List String} (hd : Drops reads ds w ts g) :
    ∀ {s s' : Session} {es : List Event}, TracedAll ds s es s' → rollers es = [] := by
  induction hd with
  | nil => intro s s' es h; rw [h.nil_inv]; rfl
  | @cons o v cs ds w ts g l k l' k' ho _ hcs _ _ ih =>
    intro s s' es h
    obtain ⟨es₁, es₂, s₁, hc, hw, rfl⟩ := h.cons_inv
    have hk : kindOf (mk o.text o.text l k [mk Symbol.number.text v l' k' cs]) = .drop := by
      rcases ho with rfl | rfl <;> rw [kindOf_mk] <;> decide
    obtain ⟨es₀, s₀, count, hcount, rfl⟩ := hc.drop_inv hk
    obtain ⟨s₂, hnum⟩ := hcount.single_inv
    rw [rollers_append, rollers_append, rollers_numeral hcs hnum, ih hw]
    rfl

theorem rollers_replicate {a : Node} {x : Written}
    (ha : ∀ {s es s'}, Traced a s es s' → RollsOf x.throws x.settled x.tails (rollers es))
    (hs : x.settled = true) :
    ∀ (n : Nat) {s s' : Session} {es : List Event}, TracedAll (List.replicate n a) s es s' →
      rollers es = (List.replicate n x.throws).flatten
  | 0, _, _, _, h => by rw [h.nil_inv]; rfl
  | n + 1, _, _, _, h => by
    obtain ⟨es₁, es₂, s₁, hc, hw, rfl⟩ := TracedAll.cons_inv h
    rw [rollers_append, (ha hc).1 hs, rollers_replicate ha hs n hw]
    rfl

/-! ## Expressions -/

theorem not_comparison {t : Node} {s : Symbol} (h : t.sym = s.text) (hs : s.isComparison = false) :
    ¬ t.IsComparison := by
  unfold IsComparison
  rw [h]
  cases s <;> simp_all [Symbol.text, Symbol.isComparison]

theorem Canonical.children_of_comparison {reads : Bool} {c : Node} {z : Written}
    (h : Canonical reads c z) (hcmp : c.IsComparison) : ∃ a b, c.children = [a, b] := by
  cases h with
  | binary => exact ⟨_, _, rfl⟩
  | numeral => exact absurd hcmp (not_comparison (s := .number) rfl rfl)
  | negate => exact absurd hcmp (not_comparison (s := .minus) rfl rfl)
  | throw => exact absurd hcmp (not_comparison (s := .dice) rfl rfl)
  | conditional => exact absurd hcmp (not_comparison (s := .ifWord) rfl rfl)
  | «repeat» => exact absurd hcmp (not_comparison (s := .repWord) rfl rfl)

/-- An `if` evaluates the two sides of its comparison, then the branch it takes. -/
theorem rolls_condition {c left right : Node} {z : Written} {chosen : List Node}
    (hops : ∀ {s es s'}, TracedAll c.children s es s' → RollsOf z.throws z.settled z.tails (rollers es))
    (hab : ∃ a b, c.children = [a, b]) (hl : c.children[0]? = some left)
    (hr : c.children[1]? = some right) {s s' : Session} {es : List Event}
    (hw : TracedAll (left :: right :: chosen) s es s') :
    ∃ es₁ es₂ s₁, RollsOf z.throws z.settled z.tails (rollers es₁) ∧ TracedAll chosen s₁ es₂ s' ∧
      es = es₁ ++ es₂ := by
  obtain ⟨a, b, hab⟩ := hab
  rw [hab] at hl hr
  simp only [List.getElem?_cons_zero, List.getElem?_cons_succ, Option.some.injEq] at hl hr
  subst hl hr
  obtain ⟨es₁, es₂, s₁, hwc, hwb, rfl⟩ :=
    TracedAll.append_inv (show TracedAll (c.children ++ chosen) _ _ _ by rw [hab]; exact hw)
  exact ⟨es₁, es₂, s₁, hops hwc, hwb, rfl⟩

/-- Every evaluation of an expression rolls its throws as its written form
allows; so do the two sides of a comparison, evaluated by the `if` above it. -/
theorem Canonical.rolls {reads : Bool} {t : Node} {x : Written} (h : Canonical reads t x) :
    (∀ {s es s'}, Traced t s es s' → RollsOf x.throws x.settled x.tails (rollers es)) ∧
      (t.IsComparison → ∀ {s es s'}, TracedAll t.children s es s' →
        RollsOf x.throws x.settled x.tails (rollers es)) := by
  induction h with
  | numeral hv hcs =>
    refine ⟨fun ht => ?_, fun hcmp => absurd hcmp (not_comparison (s := .number) rfl rfl)⟩
    rw [rollers_numeral hcs ht]
    exact RollsOf.none
  | negate ha _ iha =>
    refine ⟨fun ht => ?_, fun hcmp => absurd hcmp (not_comparison (s := .minus) rfl rfl)⟩
    obtain ⟨s₀, s₁, hw⟩ := ht.chain_inv (by rw [kindOf_mk]; decide)
    obtain ⟨s₂, hta⟩ := hw.single_inv
    exact iha.1 hta
  | @binary s a b x y l k hs ha hb _ _ iha ihb =>
    -- both kinds of binary node evaluate their operands in turn
    have hops : ∀ {s₀ es s₁}, TracedAll [a, b] s₀ es s₁ →
        RollsOf (x.throws ++ y.throws) (x.settled && y.settled) (x.settled && y.tails) (rollers es) := by
      intro s₀ es s₁ hw
      obtain ⟨es₁, es₂, s₂, hta, hwb, rfl⟩ := hw.cons_inv
      obtain ⟨s₃, htb⟩ := hwb.single_inv
      rw [rollers_append]
      exact (iha.1 hta).append (ihb.1 htb)
    refine ⟨fun ht => ?_, fun _ => hops⟩
    have hkind : kindOf (mk s.text s.text l k [a, b]) = .chain ∨
        kindOf (mk s.text s.text l k [a, b]) = .unsupported := by
      simp only [Symbol.spacedOperators, List.mem_cons, List.not_mem_nil, or_false] at hs
      rw [kindOf_mk]
      rcases hs with rfl | rfl | rfl | rfl | rfl | rfl | rfl | rfl | rfl | rfl | rfl | rfl <;> decide
    rcases hkind with hkind | hkind
    · obtain ⟨s₀, s₁, hw⟩ := ht.chain_inv hkind
      exact hops hw
    · exact absurd hkind ht.kind_ne
  | @throw a b ds x y w ts g l k ha hb hd _ _ iha ihb =>
    refine ⟨fun ht => ?_, fun hcmp => absurd hcmp (not_comparison (s := .dice) rfl rfl)⟩
    obtain ⟨es₀, s₁, th, hw, rfl⟩ := ht.throw_inv (by rw [kindOf_mk]; decide)
    obtain ⟨es₁, es₂, s₂, hta, hw', rfl⟩ := hw.cons_inv
    obtain ⟨es₃, es₄, s₃, htb, hwd, rfl⟩ := hw'.cons_inv
    have key := ((iha.1 hta).append (ihb.1 htb)).snoc
      (mk Symbol.dice.text Symbol.dice.text l k (a :: b :: ds))
    simpa only [rollers_append, hd.rollers hwd, List.append_nil, rollers_roll] using key
  | @conditional c a b z x y l k hc ha hb _ ihc iha ihb =>
    refine ⟨fun ht => ?_, fun hcmp => absurd hcmp (not_comparison (s := .ifWord) rfl rfl)⟩
    obtain ⟨cond, left, right, chosen, hcond, hcmp, hl, hr, hch, hw⟩ :=
      ht.branch_inv (by rw [kindOf_mk]; decide)
    cases hcond
    obtain ⟨es₁, es₂, s₁, hz, hwb, rfl⟩ :=
      rolls_condition (ihc.2 hcmp) (hc.children_of_comparison hcmp) hl hr hw
    rw [rollers_append]
    -- the branch taken is the second child or the third; a third child is always there
    cases hch with
    | first hc' =>
      cases hc'
      obtain ⟨s₂, hta⟩ := hwb.single_inv
      exact RollsOf.conditionalThen hz (iha.1 hta)
    | second hc' =>
      cases hc'
      obtain ⟨s₂, htb⟩ := hwb.single_inv
      exact RollsOf.conditionalElse hz (ihb.1 htb)
    | none hlen => simp at hlen
  | @«repeat» a x v count l k l' k' _ ha _ hcount _ _ _ iha =>
    refine ⟨fun ht => ?_, fun hcmp => absurd hcmp (not_comparison (s := .repWord) rfl rfl)⟩
    obtain ⟨body, count, cv, s₁, reps, es₁, es₂, hb, hc, hcv, hreps, hcount', hw, rfl⟩ :=
      ht.repeat_inv (by rw [kindOf_mk]; decide)
    cases hb
    cases hc
    -- the count is read from its numeral, as the copies were written
    obtain ⟨f, hleaf, hf⟩ := eval_count_leaf _ _ hcount
    rw [hleaf] at hcv
    obtain ⟨rfl, rfl⟩ := pure_inv hcv
    rw [hf] at hreps
    cases hreps
    have hall : x.settled = true →
        rollers (es₁ ++ es₂) = (List.replicate count.toNat x.throws).flatten := fun hs => by
      rw [rollers_append, rollers_numeral (by simp) hcount', rollers_replicate iha.1 hs _ hw]
      rfl
    exact ⟨hall, fun hs => hall hs ▸ List.prefix_refl _⟩

/-! ## Statements -/

mutual

theorem Statement.rolls {reads : Bool} {t : Node} {x : Written} {sep cont : Bool} :
    Statement reads t x sep cont → ∀ {s es s'}, Traced t s es s' →
      RollsOf x.throws x.settled x.tails (rollers es)
  | .expr h => fun ht => h.rolls.1 ht
  | .roll h => fun ht => by
    obtain ⟨s₁, hs⟩ := (ht.children_inv (by rw [kindOf_mk]; decide)).single_inv
    exact h.rolls hs
  | .block h => h.rolls
  | .branch h => h.rolls

theorem Block.rolls {reads : Bool} {t : Node} {x : Written} :
    Block reads t x → ∀ {s es s'}, Traced t s es s' → RollsOf x.throws x.settled x.tails (rollers es)
  | .empty => fun ht => by
    rw [(ht.children_inv (by rw [kindOf_mk]; decide)).nil_inv]
    exact RollsOf.none
  | .full h => fun ht => h.rolls (ht.children_inv (by rw [kindOf_mk]; decide))

theorem Branch.rolls {reads : Bool} {t : Node} {x : Written} :
    Branch reads t x → ∀ {s es s'}, Traced t s es s' → RollsOf x.throws x.settled x.tails (rollers es)
  | .bare hc hb => fun ht => by
    obtain ⟨cond, left, right, chosen, hcond, hcmp, hl, hr, hch, hw⟩ :=
      ht.branch_inv (by rw [kindOf_mk]; decide)
    cases hcond
    obtain ⟨es₁, es₂, s₁, hz, hwb, rfl⟩ :=
      rolls_condition (hc.rolls.2 hcmp) (hc.children_of_comparison hcmp) hl hr hw
    rw [rollers_append]
    -- without `else`, the branch is taken or nothing is
    cases hch with
    | first hc' =>
      cases hc'
      obtain ⟨s₂, htb⟩ := hwb.single_inv
      exact hz.ifBare (hb.rolls htb)
    | second hc' => simp at hc'
    | none _ =>
      rw [hwb.nil_inv, rollers_nil, List.append_nil]
      exact hz.skip
  | .withElse hc hb ho => fun ht => by
    obtain ⟨cond, left, right, chosen, hcond, hcmp, hl, hr, hch, hw⟩ :=
      ht.branch_inv (by rw [kindOf_mk]; decide)
    cases hcond
    obtain ⟨es₁, es₂, s₁, hz, hwb, rfl⟩ :=
      rolls_condition (hc.rolls.2 hcmp) (hc.children_of_comparison hcmp) hl hr hw
    rw [rollers_append]
    cases hch with
    | first hc' =>
      cases hc'
      obtain ⟨s₂, htb⟩ := hwb.single_inv
      exact hz.ifThen (hb.rolls htb)
    | second hc' =>
      cases hc'
      obtain ⟨s₂, hto⟩ := hwb.single_inv
      exact hz.ifElse (ho.rolls hto)
    | none hlen => simp at hlen
  | .elseIf hc hb ho => fun ht => by
    obtain ⟨cond, left, right, chosen, hcond, hcmp, hl, hr, hch, hw⟩ :=
      ht.branch_inv (by rw [kindOf_mk]; decide)
    cases hcond
    obtain ⟨es₁, es₂, s₁, hz, hwb, rfl⟩ :=
      rolls_condition (hc.rolls.2 hcmp) (hc.children_of_comparison hcmp) hl hr hw
    rw [rollers_append]
    cases hch with
    | first hc' =>
      cases hc'
      obtain ⟨s₂, htb⟩ := hwb.single_inv
      exact hz.ifThen (hb.rolls htb)
    | second hc' =>
      cases hc'
      obtain ⟨s₂, hto⟩ := hwb.single_inv
      exact hz.ifElse (ho.rolls hto)
    | none hlen => simp at hlen

theorem Statements.rolls {reads : Bool} {ss : List Node} {x : Written} {cont : Bool} :
    Statements reads ss x cont → ∀ {s es s'}, TracedAll ss s es s' →
      RollsOf x.throws x.settled x.tails (rollers es)
  | .single h => fun hw => by
    obtain ⟨s₁, ht⟩ := hw.single_inv
    exact h.rolls ht
  | .cons h hs _ _ => fun hw => by
    obtain ⟨es₁, es₂, s₁, ht, hw', rfl⟩ := hw.cons_inv
    rw [rollers_append]
    exact (h.rolls ht).append (hs.rolls hw')

end

/-! ## Filling the placeholders -/

theorem faces_rolled {limits : Limits} {draws : Draws} {n : Node} {s : Session} {es : List Event}
    (h : Traced n ⟨{ limits }, draws⟩ es s) :
    s.tally.rolled.map Throw.faces = (rolledBy es).map fun r => r.2.faces := by
  have hrec := congrArg (List.map Throw.faces) h.follows.records
  simp only [List.map_map] at hrec
  rw [show Throw.faces ∘ Throw.uncoloured = Throw.faces from rfl] at hrec
  rw [hrec, show ({ limits } : Tally).rolled = [] from rfl, List.nil_append, ← map_snd_rolledBy,
    List.map_map]
  rfl

/-- Filling the placeholders of a command's canonical text with the faces an
evaluation recorded writes, after each throw, the faces that throw rolled, or
`?` when it was not evaluated: the throws rolled are, in order, the first of
those written, all of them where the written form is settled. -/
theorem Statements.fill_evaluate {reads : Bool} {ss : List Node} {x : Written} {cont : Bool}
    (h : Statements reads ss x cont) (htails : x.tails = true) (v : String) (l k : Nat)
    {limits : Limits} {draws : Draws} {s : Session} {val : Value}
    (he : (mk Symbol.root.text v l k ss).evaluate limits draws = (s, .ok val)) :
    ∃ es, Traced (mk Symbol.root.text v l k ss) ⟨{ limits }, draws⟩ es s ∧
      (rolledBy es).map Prod.fst <+: x.throws ∧
      (x.settled = true → (rolledBy es).length = x.throws.length) ∧
      s.tally.rolled.map Throw.faces = (rolledBy es).map (fun r => r.2.faces) ∧
      (x.text ['%']).count '%' = x.throws.length ∧
      ∃ text, render (mk Symbol.root.text v l k ss) = .ok text ∧
        Faces.fill text (s.tally.rolled.map Throw.faces) =
          String.ofList (Faces.fillMarks
            (fun i => '(' :: Faces.shown (s.tally.rolled.map Throw.faces) i ++ [')']) 0 (x.text ['%'])) := by
  obtain ⟨es, hes⟩ := eval_traced (Node.evaluate_eq_ok.mp he)
  have hrolls := h.rolls (hes.children_inv (by rw [kindOf_mk]; decide))
  refine ⟨es, hes, hrolls.2 htails, fun hs => ?_, faces_rolled hes, h.count_marks, _,
    h.render_root v l k, ?_⟩
  · rw [← List.length_map Prod.fst]
    exact congrArg List.length (hrolls.1 hs)
  · rw [h.marked placeholder.toList 0, Faces.fill_fillMarks]

/-- `1d6, if 1 > 2 { 1d4 }`: a throw, then an `if` whose branch holds a throw
and is not taken. -/
def rollThenSkipped : List Node :=
  [mk Symbol.dice.text Symbol.dice.text 0 0
    [mk Symbol.number.text "1" 0 0 [], mk Symbol.number.text "6" 0 0 []],
   mk Symbol.ifWord.text Symbol.ifWord.text 0 0
    [mk Symbol.greater.text Symbol.greater.text 0 0
      [mk Symbol.number.text "1" 0 0 [], mk Symbol.number.text "2" 0 0 []],
     mk Symbol.openBrace.text Symbol.openBrace.text 0 0
      [mk Symbol.dice.text Symbol.dice.text 0 0
        [mk Symbol.number.text "1" 0 0 [], mk Symbol.number.text "4" 0 0 []]]]]

theorem Statements.fill_evaluate_skipped_branch :
    ∃ x cont s val, Statements false rollThenSkipped x cont ∧ x.tails = true ∧
      (mk Symbol.root.text "" 0 0 rollThenSkipped).evaluate {} { source := .script [0] } =
        (s, .ok val) ∧
      ∃ es, Traced (mk Symbol.root.text "" 0 0 rollThenSkipped) ⟨{ limits := {} }, { source := .script [0] }⟩ es s ∧
        (rolledBy es).map Prod.fst <+: x.throws ∧
        (x.settled = true → (rolledBy es).length = x.throws.length) ∧
        s.tally.rolled.map Throw.faces = (rolledBy es).map (fun r => r.2.faces) ∧
        (x.text ['%']).count '%' = x.throws.length ∧
        ∃ text, render (mk Symbol.root.text "" 0 0 rollThenSkipped) = .ok text ∧
          Faces.fill text (s.tally.rolled.map Throw.faces) =
            String.ofList (Faces.fillMarks
              (fun i => '(' :: Faces.shown (s.tally.rolled.map Throw.faces) i ++ [')']) 0
              (x.text ['%'])) := by
  have hthrow : ∀ (w : String), IsNumeral w.toList →
      Canonical false (mk Symbol.dice.text Symbol.dice.text 0 0
        [mk Symbol.number.text "1" 0 0 [], mk Symbol.number.text w 0 0 []]) _ := fun w hw =>
    .throw (@Canonical.numeral false "1" [] 0 0 (isNumeral_digit rfl) (by simp))
      (@Canonical.numeral false w [] 0 0 hw (by simp)) .nil (fun h => absurd h (by decide))
      (fun h => absurd h (by decide))
  have hst : Statements false rollThenSkipped _ _ :=
    .cons (.expr (hthrow "6" (isNumeral_digit rfl)))
      (.single (.branch (.bare
        (.binary (by decide) (@Canonical.numeral false "1" [] 0 0 (isNumeral_digit rfl) (by simp))
          (@Canonical.numeral false "2" [] 0 0 (isNumeral_digit rfl) (by simp))
          (fun h => absurd h (by decide)) (fun h => absurd h (by decide)))
        (.full (.single (.expr (hthrow "4" (isNumeral_digit rfl))))))))
      (fun h => absurd h (by decide)) (fun h => absurd h (by decide))
  have hok : ((mk Symbol.root.text "" 0 0 rollThenSkipped).evaluate {}
      { source := .script [0] }).2.toBool = true := by
    decide +kernel
  obtain ⟨s, val, he⟩ : ∃ s val, (mk Symbol.root.text "" 0 0 rollThenSkipped).evaluate {}
      { source := .script [0] } = (s, .ok val) := by
    rcases he : (mk Symbol.root.text "" 0 0 rollThenSkipped).evaluate {}
      { source := .script [0] } with ⟨s, f | val⟩
    · rw [he] at hok
      cases hok
    · exact ⟨s, val, rfl⟩
  exact ⟨_, _, s, val, hst, rfl, he, Statements.fill_evaluate hst rfl "" 0 0 he⟩

example : ((render (mk Symbol.root.text "" 0 0 rollThenSkipped)).toOption.map fun text =>
    Faces.fill text [[1]]) = some "1d6(1), if 1 > 2 \x7b 1d4(?) \x7d" := by
  decide +kernel

end Node

end DiceNotation
