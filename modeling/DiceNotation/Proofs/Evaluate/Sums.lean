import DiceNotation.Proofs.Evaluate.Steps
import DiceNotation.Node.Render
/-!
# Sums never fail

A block, a `roll` statement, the root and a repetition add up the values of
what they evaluate, one at a time from the integer `0`.  Every value an
evaluation gives is the integer `0` or a double (`Value.Small`), and such
values always add.  So a sum does to the session what evaluating its parts in
turn does, and fails, with the same fault, exactly when one of them fails;
only its value depends on how the parts are grouped, since doubles round at
each addition.  A repetition by a count read from a numeral acts as that many
copies of its body.
-/

namespace DiceNotation

namespace Value

/-- The integer `0` or a double: the values that evaluations give. -/
def Small : Value → Prop
  | int n => n = 0
  | float _ => True

@[simp] theorem small_float (x : Float) : (float x).Small := trivial

@[simp] theorem small_zero : (int 0).Small := rfl

variable {a b c : Value}

theorem Small.toFloat (h : a.Small) : ∃ x, a.toFloat = .ok x := by
  cases a with
  | int n =>
    obtain rfl : n = 0 := h
    refine ⟨Binary.ofInt 0, ?_⟩
    show intToFloat 0 = _
    unfold intToFloat
    rw [if_pos (by decide)]
  | float x => exact ⟨x, rfl⟩

theorem Small.neg (h : a.Small) : a.neg.Small := by
  cases a with
  | int n =>
    obtain rfl : n = 0 := h
    rfl
  | float x => trivial

/-- Two such values always combine, into another: integers only when both are `0`. -/
theorem combine_ok_small {onInt : Int → Int → Int} {onFloat : Float → Float → Float}
    (hzero : onInt 0 0 = 0) (ha : a.Small) (hb : b.Small) :
    ∃ c, combine onInt onFloat a b = .ok c ∧ c.Small := by
  obtain ⟨x, hx⟩ := ha.toFloat
  obtain ⟨y, hy⟩ := hb.toFloat
  cases a with
  | int m =>
    cases b with
    | int n =>
      obtain rfl : m = 0 := ha
      obtain rfl : n = 0 := hb
      exact ⟨int (onInt 0 0), rfl, hzero⟩
    | float y' => exact ⟨float (onFloat x y'), by simp only [combine, hx]; rfl, trivial⟩
  | float x' => exact ⟨float (onFloat x' y), by simp only [combine, hy]; rfl, trivial⟩

theorem small_of_combine {onInt : Int → Int → Int} {onFloat : Float → Float → Float}
    (hzero : onInt 0 0 = 0) (ha : a.Small) (hb : b.Small)
    (h : combine onInt onFloat a b = .ok c) : c.Small := by
  obtain ⟨c', h', hc'⟩ := combine_ok_small hzero ha hb
  rw [h'] at h
  cases h
  exact hc'

theorem Small.add (ha : a.Small) (hb : b.Small) : ∃ c, a.add b = .ok c ∧ c.Small :=
  combine_ok_small rfl ha hb

theorem small_of_add (ha : a.Small) (hb : b.Small) (h : a.add b = .ok c) : c.Small :=
  small_of_combine rfl ha hb h

/-! Quotients, powers and remainders are always doubles. -/

theorem small_of_bind {α : Type} {r : Except Fault α} {g : α → Except Fault Value}
    (hg : ∀ x c, g x = .ok c → c.Small) (h : r >>= g = .ok c) : c.Small := by
  cases r with
  | ok x => exact hg x c h
  | error e => cases h

theorem small_of_map {r : Except Fault Float} (h : float <$> r = .ok c) : c.Small := by
  cases r with
  | ok x => cases h; trivial
  | error e => cases h

theorem small_of_pure {x : Float} (h : (pure (float x) : Except Fault Value) = .ok c) : c.Small := by
  cases h
  trivial

theorem small_of_div (h : a.div b = .ok c) : c.Small := by
  unfold div at h
  split at h
  · cases h
  split at h
  · dsimp only at h
    split at h
    · exact small_of_pure h
    · cases h
  · exact small_of_bind (fun _ _ h => small_of_bind (fun _ _ h => small_of_pure h) h) h

theorem small_of_pow (h : a.pow b = .ok c) : c.Small :=
  small_of_bind (fun _ _ h => small_of_bind (fun _ _ h => small_of_map h) h) h

theorem small_of_mod (h : a.mod b = .ok c) : c.Small := by
  unfold mod at h
  split at h
  · cases h
  · exact small_of_bind (fun _ _ h => small_of_bind (fun _ _ h => small_of_map h) h) h

theorem small_of_sum {xs : List Value} (h : sum xs = .ok c) : c.Small :=
  small_of_bind (fun _ _ h => small_of_map h) h

theorem small_of_foldlM {f : Value → Value → Except Fault Value}
    (hf : ∀ a b c, a.Small → b.Small → f a b = .ok c → c.Small) :
    ∀ (l : List Value) (init c : Value), (∀ v ∈ l, v.Small) → init.Small →
      l.foldlM f init = .ok c → c.Small
  | [], init, c, _, hi, h => by
    cases h
    exact hi
  | v :: l, init, c, hl, hi, h => by
    rw [List.foldlM_cons] at h
    cases hv : f init v with
    | ok w =>
      rw [hv] at h
      exact small_of_foldlM hf l w c (fun u hu => hl u (List.mem_cons_of_mem _ hu))
        (hf _ _ _ hi (hl v List.mem_cons_self) hv) h
    | error e =>
      rw [hv] at h
      cases h

end Value

namespace Eval

open Value

variable {α β : Type}

/-! ## What the values of a step satisfy -/

/-- Every value the step gives, from any session, satisfies `P`. -/
def Yields (x : Eval α) (P : α → Prop) : Prop :=
  ∀ s a s', x s = .ok a s' → P a

theorem yields_pure {P : α → Prop} {a : α} (h : P a) : (pure a : Eval α).Yields P :=
  fun _ _ _ hb => (pure_inv hb).1 ▸ h

theorem yields_throw {P : α → Prop} (f : Fault) : (throw f : Eval α).Yields P :=
  fun _ _ _ h => absurd h throw_ne_ok

theorem yields_lift {P : α → Prop} {r : Except Fault α} (h : ∀ a, r = .ok a → P a) :
    (lift r).Yields P :=
  fun _ a _ ha => h a (lift_inv ha).1

theorem yields_bind {x : Eval α} {f : α → Eval β} {Q : α → Prop} {P : β → Prop}
    (hx : x.Yields Q) (hf : ∀ a, Q a → (f a).Yields P) : (x >>= f).Yields P := by
  intro s b s'' h
  obtain ⟨a, s', ha, hb⟩ := bind_inv h
  exact hf a (hx s a s' ha) s' b s'' hb

theorem yields_trivial (x : Eval α) : x.Yields fun _ => True :=
  fun _ _ _ _ => trivial

theorem yields_foldlM {Q : β → Prop} {f : β → α → Eval β} (hf : ∀ b a, Q b → (f b a).Yields Q) :
    ∀ (l : List α) (init : β), Q init → (l.foldlM f init).Yields Q
  | [], _, hi => yields_pure hi
  | a :: l, init, hi => by
    rw [List.foldlM_cons]
    exact yields_bind (hf init a hi) fun b hb => yields_foldlM hf l b hb

theorem yields_repeatSum {body : Eval Value} (hb : body.Yields Small) :
    ∀ (k : Nat) (acc : Value), acc.Small → (repeatSum body k acc).Yields Small
  | 0, _, h => yields_pure h
  | k + 1, acc, h => by
    rw [repeatSum]
    exact yields_bind hb fun v hv =>
      yields_bind (yields_lift fun w hw => small_of_add h hv hw) fun w hw =>
        yields_repeatSum hb k w hw

theorem small_of_fold {op : String} {nums : List Value} {c : Value} (hn : ∀ v ∈ nums, v.Small)
    (h : fold op nums = .ok c) : c.Small := by
  unfold fold at h
  dsimp only at h
  split at h
  · exact small_of_sum h
  split at h
  · cases h
    exact (hn _ List.mem_cons_self).neg
  · cases h
  · rename_i x rest _
    refine small_of_foldlM (fun a b c ha hb h => ?_) rest x c
      (fun v hv => hn v (List.mem_cons_of_mem _ hv)) (hn x List.mem_cons_self) h
    split at h
    · exact small_of_combine rfl ha hb h
    split at h
    · exact small_of_combine rfl ha hb h
    split at h
    · exact small_of_div h
    split at h
    · exact small_of_pow h
    · exact small_of_mod h

/-- Every value an evaluation gives is the integer `0` or a double. -/
theorem eval_small (n : Node) : (eval n).Yields Small := by
  have hc : ∀ c : { c // c ∈ n.children }, (eval c.1).Yields Small := fun c => eval_small c.1
  have hadd : ∀ acc : Value, acc.Small → ∀ c : { c // c ∈ n.children },
      (eval c.1 >>= fun v => lift (acc.add v)).Yields Small := fun acc h c =>
    yields_bind (hc c) fun v hv => yields_lift fun w hw => small_of_add h hv hw
  rw [eval]
  unfold evalWith
  by_cases hnum : Text.upper n.sym = Symbol.number.text
  · rw [if_pos hnum]
    exact yields_bind (yields_trivial _) fun _ _ =>
      yields_bind (yields_trivial _) fun _ _ => yields_pure trivial
  rw [if_neg hnum]
  by_cases hdrop : Text.upper n.sym = Symbol.dropHighest.text ∨
      Text.upper n.sym = Symbol.dropLowest.text
  · rw [if_pos hdrop]
    refine yields_bind (yields_trivial _) fun _ _ => yields_bind (yields_trivial _) fun _ _ => ?_
    split <;> exact yields_bind (yields_trivial _) fun _ _ => yields_pure rfl
  rw [if_neg hdrop]
  by_cases hdice : Text.upper n.sym = "D"
  · rw [if_pos hdice]
    refine yields_bind (yields_trivial _) fun nums _ => ?_
    split
    · exact yields_bind (yields_trivial _) fun _ _ =>
        yields_bind (yields_trivial _) fun _ _ => yields_pure trivial
    · exact yields_throw _
  rw [if_neg hdice]
  by_cases harith : n.IsArithmetic
  · rw [if_pos (show _ ∨ _ from harith)]
    refine yields_bind (yields_trivial _) fun _ _ => yields_bind (yields_trivial _) fun _ _ => ?_
    -- the operands other than tags are gathered in order, each the value of an evaluation
    refine yields_bind (yields_foldlM (Q := fun acc : List Value => ∀ v ∈ acc, v.Small)
      (fun acc c hacc => ?_) _ _ (by simp)) fun nums hnums => ?_
    · split
      · exact yields_bind (yields_trivial _) fun _ _ => yields_pure hacc
      · exact yields_bind (hc c) fun v hv => yields_pure fun u hu => by
          rcases List.mem_append.mp hu with hu | hu
          · exact hacc u hu
          · rw [List.mem_singleton.mp hu]
            exact hv
    refine yields_bind (yields_trivial _) fun _ _ => yields_bind (yields_trivial _) fun _ _ => ?_
    refine yields_bind (Q := Small) (yields_lift fun x hx => ?_) fun x hx => ?_
    · cases hf : fold (Text.lower n.sym) nums with
      | ok y =>
        rw [hf] at hx
        cases hx
        exact small_of_fold hnums hf
      | error e =>
        rw [hf] at hx
        cases hx
    refine yields_bind (yields_trivial _) fun _ _ => ?_
    dsimp only
    split
    · exact yields_bind (Q := fun _ => False) (yields_throw _) fun _ h => h.elim
    split
    · exact yields_bind (yields_trivial _) fun _ _ => yields_bind (yields_trivial _) fun _ _ =>
        yields_bind (yields_trivial _) fun _ _ => yields_pure hx
    · exact yields_pure hx
  rw [if_neg (show ¬ (_ ∨ _) from harith)]
  by_cases hsum : Text.upper n.sym = "\x7b" ∨ Text.upper n.sym = "ROLL" ∨
      Text.upper n.sym = "(ROOTNODE)"
  · rw [if_pos hsum]
    exact yields_foldlM (fun acc c hacc => hadd acc hacc c) _ _ rfl
  rw [if_neg hsum]
  by_cases hident : Text.upper n.sym = Symbol.ident.text
  · rw [if_pos hident]
    exact yields_bind (yields_trivial _) fun _ _ => yields_pure rfl
  rw [if_neg hident]
  by_cases hrep : Text.upper n.sym = "REP"
  · rw [if_pos hrep]
    refine yields_bind (yields_trivial _) fun body _ => yields_bind (yields_trivial _) fun _ _ => ?_
    exact yields_bind (yields_trivial _) fun _ _ => yields_bind (yields_trivial _) fun _ _ =>
      yields_repeatSum (hc body) _ _ rfl
  rw [if_neg hrep]
  by_cases hif : Text.upper n.sym = "IF"
  · rw [if_pos hif]
    refine yields_bind (yields_trivial _) fun cond _ => ?_
    dsimp only
    split
    · exact yields_bind (Q := fun _ => False) (yields_throw _) fun _ h => h.elim
    refine yields_bind (yields_trivial _) fun _ _ => yields_bind (yields_trivial _) fun _ _ => ?_
    refine yields_bind (yields_trivial _) fun _ _ => yields_bind (yields_trivial _) fun _ _ => ?_
    -- the value is that of the branch taken, or `0` when none is
    split
    · exact yields_bind (yields_trivial _) fun c _ => hc c
    split
    · exact yields_pure rfl
    · exact yields_bind (yields_trivial _) fun c _ => hc c
  rw [if_neg hif]
  exact yields_throw _
termination_by n.weight
decreasing_by exact Node.weight_lt_of_child c

/-! ## Sums act as their parts in turn -/

/-- Adds the values of nodes evaluated in turn to `acc`, as blocks, `roll`
statements, the root and repetitions do. -/
def addUp (cs : List Node) (acc : Value) : Eval Value :=
  cs.foldlM (fun acc c => do lift (acc.add (← eval c))) acc

theorem eval_sum {n : Node}
    (hk : Text.upper n.sym = "\x7b" ∨ Text.upper n.sym = "ROLL" ∨ Text.upper n.sym = "(ROOTNODE)") :
    eval n = addUp n.children (.int 0) := by
  have hnot : ∀ k ∈ [Symbol.number.text, Symbol.dropHighest.text, Symbol.dropLowest.text, "D",
      "+", "-", "*", "/", "^", "MOD"], Text.upper n.sym ≠ k := by
    rcases hk with hk | hk | hk <;> rw [hk] <;> decide
  rw [eval]
  unfold evalWith
  rw [if_neg (hnot _ (by simp)), if_neg (by simp [hnot]), if_neg (hnot _ (by simp)),
    if_neg (by simp [hnot]), if_pos hk, addUp]
  conv => rhs; rw [← List.attach_map_subtype_val n.children, List.foldlM_map]

theorem discard_eq (x : Eval α) : discard x = x >>= fun _ => pure () := by
  funext s
  simp only [Functor.discard, Functor.mapConst]
  rfl

theorem bind_run_ok {x : Eval α} {f : α → Eval β} {s s' : Session} {a : α}
    (h : x s = .ok a s') : (x >>= f) s = f a s' := by
  change EStateM.bind x f s = _
  simp only [EStateM.bind, h]

theorem bind_run_error {x : Eval α} {f : α → Eval β} {s s' : Session} {e : Fault}
    (h : x s = .error e s') : (x >>= f) s = .error e s' := by
  change EStateM.bind x f s = _
  simp only [EStateM.bind, h]

/-- Adding up from the integer `0` or a double changes the session as
evaluating the nodes in turn does, and fails as it does. -/
theorem discard_addUp : ∀ (cs : List Node) (acc : Value), acc.Small →
    discard (addUp cs acc) = forM cs fun c => discard (eval c)
  | [], _, _ => rfl
  | c :: cs, acc, hacc => by
    funext s
    rw [addUp, List.foldlM_cons, List.forM_cons, discard_eq, discard_eq]
    simp only [bind_assoc]
    cases h : eval c s with
    | ok v s₁ =>
      obtain ⟨w, hw, hsw⟩ := hacc.add (eval_small c s v s₁ h)
      rw [bind_run_ok h, bind_run_ok h, hw]
      change (addUp cs w >>= fun _ => pure ()) s₁ = _
      rw [← discard_eq, discard_addUp cs w hsw]
      rfl
    | error e s₁ => rw [bind_run_error h, bind_run_error h]

theorem discard_eval_sum {n : Node}
    (hk : Text.upper n.sym = "\x7b" ∨ Text.upper n.sym = "ROLL" ∨ Text.upper n.sym = "(ROOTNODE)") :
    discard (eval n) = forM n.children fun c => discard (eval c) := by
  rw [eval_sum hk, discard_addUp _ _ small_zero]

theorem eval_numeral_leaf (v : String) (l k : Nat) :
    eval (.mk Symbol.number.text v l k []) = lift (ofNumeral v) >>= fun x => pure (.float x) := by
  rw [eval]
  unfold evalWith
  simp only [Node.sym, Node.value, Node.children]
  rw [if_pos (by decide)]
  rfl

/-- A count read from a numeral evaluates to a double whose integer part is the count. -/
theorem eval_count_leaf {v : String} {count : Int} (l k : Nat)
    (hcount : Node.literalCount v = .ok count) :
    ∃ x, eval (.mk Symbol.number.text v l k []) = pure (.float x) ∧ (float x).toInt = .ok count := by
  unfold Node.literalCount at hcount
  cases hx : ofNumeral v with
  | error e =>
    rw [hx] at hcount
    cases hcount
  | ok x =>
    rw [hx] at hcount
    refine ⟨x, ?_, hcount⟩
    rw [eval_numeral_leaf, hx]
    exact pure_bind x _

end Eval

end DiceNotation
