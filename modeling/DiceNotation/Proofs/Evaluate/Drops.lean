import DiceNotation.Proofs.Evaluate.Frame
import DiceNotation.Node.Parser
import DiceNotation.CommandLine.NumberWords
/-!
# Drops wait for the next throw

A drop (`-H`, `-L`) belongs to no throw.  Evaluating it sets the drops waiting
in the tally; the next throw rolled, wherever it stands, rolls with the drops
waiting and clears them.

`Eval.Traced` follows a successful evaluation node by node, in the order the
evaluator visits them, and lists the drops it sets and the throws it rolls;
every successful evaluation has such a trace (`Eval.eval_traced`).  Along it the
drops waiting are the pending ones of the events so far (`Eval.pending`), and
each throw rolls with the drops pending just before it (`Eval.Traced.follows`):
the counts of the last `-H` and the last `-L` evaluated since the previous
throw, or `0` where there was none.
-/

namespace DiceNotation

def Throw.uncoloured (th : Throw) : Throw :=
  { th with colour := "" }

namespace Eval

inductive Event where
  | drop (node : Node) (count : Int)
  | roll (node : Node) (throw : Throw)

def waiting (s : Session) : Int × Int :=
  (s.tally.dropHighest, s.tally.dropLowest)

/-- The drops waiting after some events, from the drops `p`: a drop sets the
one it names, a throw clears both. -/
def pending : Int × Int → List Event → Int × Int
  | p, [] => p
  | p, .drop m count :: es =>
    pending (if Text.upper m.sym = Symbol.dropHighest.text then (count, p.2) else (p.1, count)) es
  | _, .roll _ _ :: es => pending (0, 0) es

def rolls : List Event → List Throw
  | [] => []
  | .drop _ _ :: es => rolls es
  | .roll _ th :: es => th :: rolls es

theorem pending_append (p : Int × Int) (es es' : List Event) :
    pending p (es ++ es') = pending (pending p es) es' := by
  induction es generalizing p with
  | nil => rfl
  | cons e es ih =>
    cases e with
    | drop m count => exact ih _
    | roll m th => exact ih _

theorem rolls_append (es es' : List Event) : rolls (es ++ es') = rolls es ++ rolls es' := by
  induction es with
  | nil => rfl
  | cons e es ih =>
    cases e with
    | drop m count => exact ih
    | roll m th => exact congrArg (th :: ·) ih

theorem takes_of_rolls_eq_nil {es : List Event} (h : rolls es = []) (p : Int × Int) :
    ∀ pre m th post, es = pre ++ .roll m th :: post →
      (Throw.dropHighest th, Throw.dropLowest th) = pending p pre := by
  rintro pre m th post rfl
  simp [rolls_append, rolls] at h

structure Recoloured (s s' : Session) : Prop where
  waits : waiting s' = waiting s
  records : s'.tally.rolled.map Throw.uncoloured = s.tally.rolled.map Throw.uncoloured

mutual

/-- A successful evaluation of a node from `s` to `s'`, with the drops it sets
and the throws it rolls, in order: one constructor for each kind of node the
evaluator tells apart, with the nodes it evaluates in turn. -/
inductive Traced : Node → Session → List Event → Session → Prop
  | children {n : Node} {s s' : Session} {v : Value} {es : List Event}
      (h : eval n s = .ok v s') (hk : kindOf n = .children) (hw : TracedAll n.children s es s') :
      Traced n s es s'
  | drop {n : Node} {s s₁ : Session} {v : Value} {es : List Event} (count : Int)
      (h : eval n s = .ok v ⟨setDrop n count s₁.tally, s₁.draws⟩) (hk : kindOf n = .drop)
      (hw : TracedAll n.children s es s₁) :
      Traced n s (es ++ [.drop n count]) ⟨setDrop n count s₁.tally, s₁.draws⟩
  | throw {n : Node} {s s₁ s' : Session} {v : Value} {es : List Event} {count sides total : Int}
      {th : Throw} (h : eval n s = .ok v s') (hk : kindOf n = .throw)
      (hw : TracedAll n.children s es s₁) (hr : pushAndRoll { count, sides } s₁ = .ok total s')
      (hth : s'.tally.rolled = s₁.tally.rolled ++ [th]) :
      Traced n s (es ++ [.roll n th]) s'
  | chain {n : Node} {s s₁ s' : Session} {v : Value} {es : List Event}
      (h : eval n s = .ok v s') (hk : kindOf n = .chain)
      (hw : TracedAll n.children ⟨{ s.tally with depth := s.tally.depth + 1 }, s.draws⟩ es s₁)
      (hend : Recoloured s₁ s') : Traced n s es s'
  | tag {n : Node} {s : Session} {v : Value}
      (h : eval n s = .ok v ⟨{ s.tally with colours := n.value :: s.tally.colours }, s.draws⟩)
      (hk : kindOf n = .tag) :
      Traced n s [] ⟨{ s.tally with colours := n.value :: s.tally.colours }, s.draws⟩
  | «repeat» {n body count : Node} {s s₁ s' : Session} {v cv : Value} {reps : Int}
      {es es' : List Event} (h : eval n s = .ok v s') (hk : kindOf n = .repeat)
      (hb : n.children[0]? = some body) (hc : n.children[1]? = some count)
      (hcv : eval count s = .ok cv s₁) (hreps : cv.toInt = .ok reps) (hcount : Traced count s es s₁)
      (hw : TracedAll (List.replicate reps.toNat body) s₁ es' s') :
      Traced n s (es ++ es') s'
  | branch {n cond left right : Node} {s s' : Session} {v : Value} {chosen : List Node}
      {es : List Event} (h : eval n s = .ok v s') (hk : kindOf n = .branch)
      (hc : n.children[0]? = some cond) (hl : cond.children[0]? = some left)
      (hr : cond.children[1]? = some right) (hch : Chosen n chosen)
      (hw : TracedAll (left :: right :: chosen) s es s') : Traced n s es s'

inductive TracedAll : List Node → Session → List Event → Session → Prop
  | nil (s : Session) : TracedAll [] s [] s
  | cons {c : Node} {cs : List Node} {s s₁ s₂ : Session} {es es' : List Event} :
      Traced c s es s₁ → TracedAll cs s₁ es' s₂ → TracedAll (c :: cs) s (es ++ es') s₂

end

/-! ## Every successful evaluation has a trace -/

theorem traced_walk {cs : List Node} {s s' : Session}
    (ih : ∀ c ∈ cs, ∀ {s₀ s₁ : Session} {v : Value}, eval c s₀ = .ok v s₁ →
      ∃ es, Traced c s₀ es s₁)
    (hw : Walk cs s s') : ∃ es, TracedAll cs s es s' := by
  induction hw with
  | nil s => exact ⟨[], .nil s⟩
  | cons hc _ ihw =>
    obtain ⟨es, hes⟩ := ih _ List.mem_cons_self hc
    obtain ⟨es', hes'⟩ := ihw fun c hc' => ih c (List.mem_cons_of_mem _ hc')
    exact ⟨_, .cons hes hes'⟩

theorem uncoloured_modify (a : Array Throw) (i : Nat) (colour : String) :
    (a.modify i fun th => { th with colour }).toList.map Throw.uncoloured =
      a.toList.map Throw.uncoloured := by
  apply List.ext_getElem?
  intro j
  simp only [List.getElem?_map, Array.getElem?_toList, Array.getElem?_modify]
  split <;> cases a[j]? <;> rfl

theorem uncoloured_paintLatest (k : Nat) (colour : String) (a : Array Throw) :
    (paintLatest k colour a).toList.map Throw.uncoloured = a.toList.map Throw.uncoloured := by
  induction k with
  | zero => rfl
  | succ k ih => rw [paintLatest_succ, uncoloured_modify, ih]

theorem rolled_pushAndRoll {count sides total : Int} {s s' : Session}
    (h : pushAndRoll { count, sides } s = .ok total s') :
    ∃ th, s'.tally.rolled = s.tally.rolled ++ [th] ∧ waiting s' = (0, 0) ∧
      th.dropHighest = s.tally.dropHighest ∧ th.dropLowest = s.tally.dropLowest := by
  obtain ⟨rolled, draws, hroll, -, hadd⟩ := pushAndRoll_inv h
  obtain ⟨-, hsame⟩ := Throw.roll_sound rfl hroll
  obtain ⟨totals, rfl, -, -⟩ := addToColour_inv hadd
  refine ⟨rolled, by simp [Tally.rolled], rfl, ?_, ?_⟩
  · simpa using congrArg Throw.dropHighest hsame
  · simpa using congrArg Throw.dropLowest hsame

theorem eval_traced {n : Node} {s s' : Session} {v : Value} (h : eval n s = .ok v s') :
    ∃ es, Traced n s es s' := by
  have ih : ∀ c, c.weight < n.weight → ∀ {s₀ s₁ : Session} {v : Value},
      eval c s₀ = .ok v s₁ → ∃ es, Traced c s₀ es s₁ :=
    fun c _ _ _ _ hc => eval_traced hc
  have hchildren : ∀ c ∈ n.children, ∀ {s₀ s₁ : Session} {v : Value},
      eval c s₀ = .ok v s₁ → ∃ es, Traced c s₀ es s₁ :=
    fun c hc => ih c (Node.weight_lt_of_mem hc)
  have hran := eval_ran h
  generalize hk : kindOf n = k at hran
  cases hran with
  | children _ hw =>
    obtain ⟨es, hes⟩ := traced_walk hchildren hw
    exact ⟨es, .children h hk hes⟩
  | drop _ hw count =>
    obtain ⟨es, hes⟩ := traced_walk hchildren hw
    exact ⟨_, .drop count h hk hes⟩
  | throw _ hw count sides total hr =>
    obtain ⟨es, hes⟩ := traced_walk hchildren hw
    obtain ⟨th, hth, -⟩ := rolled_pushAndRoll hr
    exact ⟨_, .throw h hk hes hr hth⟩
  | chain _ hw _ _ =>
    obtain ⟨es, hes⟩ := traced_walk hchildren hw
    exact ⟨es, .chain h hk hes ⟨rfl, rfl⟩⟩
  | chainTop _ hw _ _ ha =>
    obtain ⟨es, hes⟩ := traced_walk hchildren hw
    obtain ⟨totals, rfl, -, -⟩ := addToColour_inv ha
    exact ⟨es, .chain h hk hes ⟨rfl, uncoloured_paintLatest _ _ _⟩⟩
  | tag _ => exact ⟨[], .tag h hk⟩
  | «repeat» _ hb hc hcount hreps hw =>
    obtain ⟨es, hes⟩ := ih _ (weight_lt_of_getElem? hc) hcount
    obtain ⟨es', hes'⟩ := traced_walk (fun c hc' => by
      rw [List.eq_of_mem_replicate hc']
      exact ih _ (weight_lt_of_getElem? hb)) hw
    exact ⟨_, .repeat h hk hb hc hcount hreps hes hes'⟩
  | branch _ hc _ hl hr _ hch hw =>
    obtain ⟨es, hes⟩ := traced_walk (fun c hc' => ih c (branch_weight_lt hc hl hr hch c hc')) hw
    exact ⟨es, .branch h hk hc hl hr hch hes⟩
termination_by n.weight

/-! ## The law of the waiting drops -/

/-- What a trace from `s` to `s'` with events `es` says of the drops and the
throws: the drops waiting at the end are the pending ones, the throws recorded
are those before and those rolled, and each throw rolls with the drops pending
just before it. -/
structure Follows (s : Session) (es : List Event) (s' : Session) : Prop where
  waits : waiting s' = pending (waiting s) es
  records : s'.tally.rolled.map Throw.uncoloured =
    (s.tally.rolled ++ rolls es).map Throw.uncoloured
  takes : ∀ pre m th post, es = pre ++ .roll m th :: post →
    (th.dropHighest, th.dropLowest) = pending (waiting s) pre

theorem Follows.nil (s : Session) : Follows s [] s :=
  ⟨rfl, by simp [rolls], takes_of_rolls_eq_nil rfl _⟩

theorem Follows.recolour {s s₁ s' : Session} {es : List Event} (h : Follows s es s₁)
    (hr : Recoloured s₁ s') : Follows s es s' :=
  ⟨hr.waits.trans h.waits, hr.records.trans h.records, h.takes⟩

theorem Follows.undeepen {s s₁ : Session} {es : List Event} {d : Int}
    (h : Follows ⟨{ s.tally with depth := d }, s.draws⟩ es s₁) : Follows s es s₁ :=
  ⟨h.waits, h.records, h.takes⟩

theorem Follows.append {s s₁ s₂ : Session} {es es' : List Event} (h₁ : Follows s es s₁)
    (h₂ : Follows s₁ es' s₂) : Follows s (es ++ es') s₂ where
  waits := by rw [h₂.waits, h₁.waits, pending_append]
  records := by
    rw [h₂.records, List.map_append, h₁.records]
    simp [rolls_append]
  takes pre m th post h := by
    obtain ⟨mid, rfl, hmid⟩ | ⟨mid, hes, hpost⟩ := List.append_eq_append_iff.mp h
    · rw [h₂.takes mid m th post hmid, h₁.waits, pending_append]
    · cases mid with
      | nil =>
        rw [List.append_nil] at hes
        rw [h₂.takes [] m th post hpost.symm, ← hes, ← h₁.waits]
        rfl
      | cons e mid =>
        obtain ⟨rfl, rfl⟩ := List.cons_eq_cons.mp hpost
        exact h₁.takes pre m th mid hes

theorem follows_drop (s : Session) (n : Node) (count : Int) :
    Follows s [.drop n count] ⟨setDrop n count s.tally, s.draws⟩ := by
  have hrolled : (setDrop n count s.tally).rolled = s.tally.rolled := by
    unfold setDrop
    split <;> rfl
  refine ⟨?_, by simp [rolls, hrolled], takes_of_rolls_eq_nil rfl _⟩
  unfold waiting setDrop pending pending
  split <;> rfl

theorem follows_roll {s s' : Session} {count sides total : Int} {th : Throw} (n : Node)
    (hr : pushAndRoll { count, sides } s = .ok total s')
    (hth : s'.tally.rolled = s.tally.rolled ++ [th]) : Follows s [.roll n th] s' := by
  obtain ⟨th', hth', hwaiting, hhigh, hlow⟩ := rolled_pushAndRoll hr
  obtain rfl : th = th' := by
    rw [hth] at hth'
    simpa using hth'
  refine ⟨hwaiting, by rw [hth]; rfl, fun pre m th post h => ?_⟩
  cases pre with
  | nil =>
    obtain ⟨⟨-, rfl⟩, -⟩ := List.cons_eq_cons.mp h
    rw [hhigh, hlow]
    rfl
  | cons e pre => simp at h

mutual

theorem Traced.follows {n : Node} {s s' : Session} {es : List Event} :
    Traced n s es s' → Follows s es s'
  | .children _ _ hw => hw.follows
  | .drop count _ _ hw => hw.follows.append (follows_drop _ n count)
  | .throw _ _ hw hr hth => hw.follows.append (follows_roll n hr hth)
  | .chain _ _ hw hend => hw.follows.undeepen.recolour hend
  | .tag _ _ => ⟨rfl, by simp [rolls, Tally.rolled], takes_of_rolls_eq_nil rfl _⟩
  | .repeat _ _ _ _ _ _ hcount hw => hcount.follows.append hw.follows
  | .branch _ _ _ _ _ _ hw => hw.follows

theorem TracedAll.follows {cs : List Node} {s s' : Session} {es : List Event} :
    TracedAll cs s es s' → Follows s es s'
  | .nil s => .nil s
  | .cons hc hw => hc.follows.append hw.follows

end

end Eval

/-- Every successful evaluation from a fresh tally has a trace along which the
waiting drops are the pending counts: each throw recorded rolls with the counts
of the last `-H` and the last `-L` evaluated since the throw before it, or `0`
where there was none, whatever node the drop hangs off; the drops waiting at
the end are those no throw took. -/
theorem Node.evaluate_throws_take_pending_drops {limits : Limits} {draws : Draws} {n : Node}
    {s : Session} {v : Value} (h : n.evaluate limits draws = (s, .ok v)) :
    ∃ es, Eval.Traced n ⟨{ limits }, draws⟩ es s ∧
      Eval.waiting s = Eval.pending (0, 0) es ∧
      s.tally.rolled.map Throw.uncoloured = (Eval.rolls es).map Throw.uncoloured ∧
      ∀ pre m th post, es = pre ++ .roll m th :: post →
        (th.dropHighest, th.dropLowest) = Eval.pending (0, 0) pre := by
  obtain ⟨es, hes⟩ := Eval.eval_traced (Node.evaluate_eq_ok.mp h)
  have hf := hes.follows
  exact ⟨es, hes, hf.waits, hf.records, hf.takes⟩

theorem Node.evaluate_throws_take_pending_drops_after_literal :
    ∃ n s v, Node.parse "1-H\n3d6" = .ok n ∧
      n.evaluate {} { source := .script [0] } = (s, .ok v) ∧
      ∃ es, Eval.Traced n ⟨{}, { source := .script [0] }⟩ es s ∧
        Eval.waiting s = Eval.pending (0, 0) es ∧
        s.tally.rolled.map Throw.uncoloured = (Eval.rolls es).map Throw.uncoloured ∧
        ∀ pre m th post, es = pre ++ .roll m th :: post →
          (th.dropHighest, th.dropLowest) = Eval.pending (0, 0) pre := by
  have hok : ((Node.parse "1-H\n3d6").toOption.map fun n =>
      (n.evaluate {} { source := .script [0] }).2.toBool) = some true := by
    decide +kernel
  generalize hp : Node.parse "1-H\n3d6" = p at hok
  obtain f | n := p
  · cases hok
  · simp only [Except.toOption, Option.map_some, Option.some.injEq] at hok
    generalize he : n.evaluate {} { source := .script [0] } = r at hok
    obtain ⟨s, f | v⟩ := r
    · cases hok
    · exact ⟨n, s, v, rfl, he, Node.evaluate_throws_take_pending_drops he⟩

/-- A drop hung off a literal is taken by the throw of the next statement:
after `1-H`, `3d6` rolls with its highest die dropped. -/
theorem Node.evaluate_drop_taken_by_next_statement :
    ((Node.parse "1-H\n3d6").toOption.map fun n =>
      (n.evaluate {} { source := .script [0] }).1.tally.rolled.map fun th =>
        (th.dropHighest, th.faces, th.total)) = some [(1, [1, 1, 1], 2)] := by
  decide +kernel

end DiceNotation
