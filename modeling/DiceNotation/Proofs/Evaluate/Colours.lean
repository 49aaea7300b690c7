import DiceNotation.Proofs.Evaluate.Frame
import DiceNotation.Proofs.Value.Faults
/-!
# When an operator chain refuses to mix colours

An operator chain evaluates its operands one level deeper: a tag among them
only pushes its colour, every other operand gives a number.  Back at its own
depth it folds the numbers, and only then looks at the colour stack: it is
refused when more than one tag is waiting there, whether the tags name one
colour or several, since tags stay on the stack inside a chain and nothing
compares them.  So `2d6 fire + 1d4 fire` is refused like `2d6 fire + 1d4 cold`.

`Eval.eval_chain` gives the evaluation of a chain from the run of its operands
(`Eval.operands`).  The refusal is then exact (`Eval.eval_refuses_colours_iff`):
given operands that evaluate, the chain is refused for its colours exactly when
its fold succeeds and more than one tag is waiting.  A fold that fails raises
its own fault first, and crediting at depth 0 can only fail for a total beyond a
double.
-/

namespace DiceNotation

namespace Eval

/-- The operands of an operator chain evaluated in turn: a tag for its colour
alone, every other operand for its value, kept in order. -/
def operands (cs : List Node) : Eval (List Value) :=
  cs.foldlM (fun (acc : List Value) c => do
    if c.sym = Symbol.ident.text then
      let _ ← eval c
      return acc
    else return acc ++ [← eval c]) []

theorem foldlM_attach_operands (cs : List Node) :
    cs.attach.foldlM (fun (acc : List Value) c =>
      if c.1.sym = Symbol.ident.text then EStateM.bind (eval c.1) fun _ => pure acc
      else EStateM.bind (eval c.1) fun v => pure (acc ++ [v])) [] = operands cs := by
  conv_rhs => rw [operands, ← List.attach_map_subtype_val cs, List.foldlM_map]
  rfl

section Chain

variable {n : Node} {s s₁ : Session} {nums : List Value}

/-- An operator chain whose operands evaluate one level deeper, leaving `s₁`,
closes from `s₁` back at the depth it started: it folds the operands, refuses
more than one tag, and at depth 0 gives the most recent tag to the throws its
operands added and credits its value to it. -/
theorem eval_chain (hk : n.IsArithmetic)
    (hops : operands n.children ⟨{ s.tally with depth := s.tally.depth + 1 }, s.draws⟩ = .ok nums s₁) :
    eval n s = (lift ((fold (Text.lower n.sym) nums).mapError foldFault) >>= fun x => do
      let t ← getTally
      if 1 < t.colours.length then throw (.eval .mixedColours)
      if t.depth = 0 then
        let colour ← popColour
        recolour (s₁.tally.throws.size - s.tally.throws.size) colour
        addToColour colour x
      return x) ⟨{ s₁.tally with depth := s₁.tally.depth - 1 }, s₁.draws⟩ := by
  rw [eval]
  unfold evalWith
  rw [if_neg (hk.upper_ne (by decide)),
    if_neg (not_or.mpr ⟨hk.upper_ne (by decide), hk.upper_ne (by decide)⟩),
    if_neg (hk.upper_ne (by decide)), if_pos (show _ ∨ _ from hk)]
  simp only [bind, EStateM.bind, getTally_run, modifyTally_run, foldlM_attach_operands, hops]

theorem eval_chain_foldError (hk : n.IsArithmetic)
    (hops : operands n.children ⟨{ s.tally with depth := s.tally.depth + 1 }, s.draws⟩ = .ok nums s₁)
    {f : Fault} (hf : fold (Text.lower n.sym) nums = .error f) :
    eval n s = .error (foldFault f) ⟨{ s₁.tally with depth := s₁.tally.depth - 1 }, s₁.draws⟩ := by
  rw [eval_chain hk hops, hf]
  rfl

theorem eval_chain_mixed (hk : n.IsArithmetic)
    (hops : operands n.children ⟨{ s.tally with depth := s.tally.depth + 1 }, s.draws⟩ = .ok nums s₁)
    {x : Value} (hf : fold (Text.lower n.sym) nums = .ok x) (hc : 1 < s₁.tally.colours.length) :
    eval n s = .error (.eval .mixedColours) ⟨{ s₁.tally with depth := s₁.tally.depth - 1 }, s₁.draws⟩ := by
  rw [eval_chain hk hops, hf]
  simp only [bind, EStateM.bind, lift, Except.mapError, pure, EStateM.pure, getTally_run, if_pos hc]
  rfl

/-- An operator chain whose operands leave at most one tag is not refused for
its colours: it gives its fold, unless crediting it at depth 0 meets a total
beyond a double. -/
theorem eval_chain_accepts (hk : n.IsArithmetic)
    (hops : operands n.children ⟨{ s.tally with depth := s.tally.depth + 1 }, s.draws⟩ = .ok nums s₁)
    {x : Value} (hf : fold (Text.lower n.sym) nums = .ok x) (hc : s₁.tally.colours.length ≤ 1) :
    (∃ s', eval n s = .ok x s') ∨ ∃ s', eval n s = .error .integerTooLarge s' := by
  rw [eval_chain hk hops, hf]
  simp only [bind, EStateM.bind, lift, Except.mapError, pure, EStateM.pure, getTally_run,
    if_neg (not_lt.mpr hc)]
  split_ifs with hd
  · -- back at depth 0 the chain pops, recolours and credits
    simp only [popColour_run, recolour_run, addToColour, bind, EStateM.bind, getTally_run, hd,
      if_true, lift]
    cases hcredit : Tally.credit s₁.tally.totals (s₁.tally.colours.head?.getD "") x with
    | ok totals => exact .inl ⟨_, rfl⟩
    | error e => exact .inr ⟨_, by rw [Tally.credit_error hcredit]; rfl⟩
  · exact .inl ⟨_, rfl⟩

end Chain

/-- The colour rule of an operator chain.  When its operands evaluate one level
deeper, leaving the stack of tags of `s₁`, the chain is refused for mixing
colours exactly when the fold of its operands succeeds and more than one tag is
waiting on the stack, equal or not. -/
theorem eval_refuses_colours_iff {n : Node} (hk : n.IsArithmetic) {s s₁ : Session}
    {nums : List Value}
    (hops : operands n.children ⟨{ s.tally with depth := s.tally.depth + 1 }, s.draws⟩ = .ok nums s₁) :
    (∃ s', eval n s = .error (.eval .mixedColours) s') ↔
      (∃ x, fold (Text.lower n.sym) nums = .ok x) ∧ 1 < s₁.tally.colours.length := by
  constructor
  · rintro ⟨s', h⟩
    cases hf : fold (Text.lower n.sym) nums with
    | error f =>
      -- a failing fold raises its own fault, never the colour fault
      rw [eval_chain_foldError hk hops hf] at h
      exact absurd (EStateM.Result.error.inj h).1 (foldFault_ne_mixedColours (fold_error hf))
    | ok x =>
      refine ⟨⟨x, rfl⟩, Nat.lt_of_not_le fun hc => ?_⟩
      rcases eval_chain_accepts hk hops hf hc with ⟨s'', h'⟩ | ⟨s'', h'⟩
      · rw [h'] at h
        cases h
      · rw [h'] at h
        exact absurd (EStateM.Result.error.inj h).1 (by decide)
  · rintro ⟨⟨x, hf⟩, hc⟩
    exact ⟨_, eval_chain_mixed hk hops hf hc⟩

/-- Two blocks that each push the tag `Fire` leave it twice on the stack. -/
theorem operands_fire_blocks :
    operands [.mk "\x7b" "\x7b" 0 0 [.mk Symbol.ident.text "Fire" 0 0 []],
        .mk "\x7b" "\x7b" 0 0 [.mk Symbol.ident.text "Fire" 0 0 []]] ⟨{ depth := 1 }, {}⟩ =
      .ok [.int 0, .int 0] ⟨{ colours := ["Fire", "Fire"], depth := 1 }, {}⟩ := by
  -- a block holding a tag pushes it and is worth 0
  have hfire : eval (.mk "\x7b" "\x7b" 0 0 [.mk Symbol.ident.text "Fire" 0 0 []]) = fun s =>
      .ok (.int 0) ⟨{ s.tally with colours := "Fire" :: s.tally.colours }, s.draws⟩ := by
    funext s
    rw [eval]
    unfold evalWith
    rw [if_neg (by decide), if_neg (by decide), if_neg (by decide), if_neg (by decide),
      if_pos (by decide)]
    simp only [Node.children, List.attach_cons, List.attach_nil, List.map_nil, List.foldlM_cons,
      List.foldlM_nil, eval_tag (.mk Symbol.ident.text "Fire" 0 0 []) (by decide)]
    rfl
  simp only [operands, List.foldlM_cons, List.foldlM_nil, hfire]
  rfl

theorem eval_refuses_colours_iff_fire_blocks :
    let fire : Node := .mk "\x7b" "\x7b" 0 0 [.mk Symbol.ident.text "Fire" 0 0 []]
    let n : Node := .mk "*" "*" 0 0 [fire, fire]
    let s₁ : Session := ⟨{ colours := ["Fire", "Fire"], depth := 1 }, {}⟩
    n.IsArithmetic ∧ operands n.children ⟨{ depth := 1 }, {}⟩ = .ok [.int 0, .int 0] s₁ ∧
      ((∃ s', eval n ⟨{}, {}⟩ = .error (.eval .mixedColours) s') ↔
        (∃ x, fold (Text.lower n.sym) [.int 0, .int 0] = .ok x) ∧ 1 < s₁.tally.colours.length) := by
  intro fire n s₁
  have hk : n.IsArithmetic := .inr (.inr (.inl (by simp only [n, Node.sym]; rfl)))
  exact ⟨hk, operands_fire_blocks,
    eval_refuses_colours_iff (s := ⟨{}, {}⟩) hk operands_fire_blocks⟩

/-- `{Fire} * {Fire}`: the operands push one colour twice, and the chain is
refused although no two different colours wait on the stack. -/
theorem eval_refuses_one_colour_twice :
    let fire : Node := .mk "\x7b" "\x7b" 0 0 [.mk Symbol.ident.text "Fire" 0 0 []]
    let n : Node := .mk "*" "*" 0 0 [fire, fire]
    operands n.children ⟨{ depth := 1 }, {}⟩ =
        .ok [.int 0, .int 0] ⟨{ colours := ["Fire", "Fire"], depth := 1 }, {}⟩ ∧
      eval n ⟨{}, {}⟩ = .error (.eval .mixedColours) ⟨{ colours := ["Fire", "Fire"] }, {}⟩ ∧
      ¬ ∃ a ∈ ["Fire", "Fire"], ∃ b ∈ ["Fire", "Fire"], a ≠ b := by
  intro fire n
  have hk : n.IsArithmetic := .inr (.inr (.inl (by simp only [n, Node.sym]; rfl)))
  have hfold : fold (Text.lower n.sym) [.int 0, .int 0] = .ok (.int 0) := by
    simp only [n, Node.sym]
    rfl
  exact ⟨operands_fire_blocks,
    eval_chain_mixed (s := ⟨{}, {}⟩) hk operands_fire_blocks hfold (by decide), by simp⟩

end Eval

end DiceNotation
