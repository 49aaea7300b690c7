import Mathlib.Tactic.SplitIfs
import DiceNotation.Evaluate
/-!
# What arithmetic on numbers can fail with

Arithmetic on the numbers of an evaluation is refused only for a handful of
reasons: an integer beyond the largest double, a missing operand, a zero
divisor, a result too large for a double, or a result that is no real
number.  `Fault.Arithmetic` names them; every operation, the sum of an
operator chain and the fold of its operands fail with one of them alone, and
crediting a colour only with the first.  So an operator chain's own colour
check is the only source of the colour fault.
-/

namespace DiceNotation

/-- The faults of arithmetic on numbers: a number too large for a double, a
missing operand, a zero divisor, a result too large, or no real result. -/
def Fault.Arithmetic (f : Fault) : Prop :=
  f = .integerTooLarge ∨ f = .missingItem ∨ f = .eval .divideByZero ∨ f = .eval .tooLarge ∨
    f = .eval .notReal

namespace Value

variable {a b : Value} {f : Fault}

theorem toFloat_error (h : a.toFloat = .error f) : f = .integerTooLarge := by
  cases a with
  | int n =>
    simp only [toFloat, intToFloat] at h
    split at h <;> cases h
    rfl
  | float x => cases h

theorem combine_error {onInt : Int → Int → Int} {onFloat : Float → Float → Float}
    (h : combine onInt onFloat a b = .error f) : f = .integerTooLarge := by
  unfold combine at h
  split at h
  · cases h
  · cases ha : a.toFloat with
    | error e => rw [ha] at h; cases h; exact toFloat_error ha
    | ok x =>
      cases hb : b.toFloat with
      | error e => simp only [ha, hb, bind, Except.bind] at h; cases h; exact toFloat_error hb
      | ok y => simp [ha, hb, bind, Except.bind, pure, Except.pure] at h

theorem add_error (h : a.add b = .error f) : f = .integerTooLarge := combine_error h

theorem div_error (h : a.div b = .error f) : f.Arithmetic := by
  unfold div at h
  split at h
  · cases h; exact .inr (.inr (.inl rfl))
  split at h
  · dsimp only at h
    split at h <;> cases h
    exact .inr (.inr (.inr (.inl rfl)))
  · cases ha : a.toFloat with
    | error e => rw [ha] at h; cases h; exact .inl (toFloat_error ha)
    | ok x =>
      cases hb : b.toFloat with
      | error e => simp only [ha, hb, bind, Except.bind] at h; cases h; exact .inl (toFloat_error hb)
      | ok y => simp [ha, hb, bind, Except.bind, pure, Except.pure] at h

theorem power_error {x y : Float} (h : power x y = .error f) : f.Arithmetic := by
  unfold power at h
  split at h
  · -- both finite: the result is refused when it is no real number or too large
    dsimp only at h
    split at h
    · cases h; exact .inr (.inr (.inr (.inr rfl)))
    split at h
    · split at h <;> cases h
      · exact .inr (.inr (.inr (.inr rfl)))
      · exact .inr (.inr (.inr (.inl rfl)))
    · cases h
  · -- a special operand always gives a result
    revert h
    dsimp only
    split_ifs <;> intro h <;> cases h

theorem pow_error (h : a.pow b = .error f) : f.Arithmetic := by
  unfold pow at h
  cases ha : a.toFloat with
  | error e => simp only [ha, bind, Except.bind] at h; cases h; exact .inl (toFloat_error ha)
  | ok x =>
    cases hb : b.toFloat with
    | error e => simp only [ha, hb, bind, Except.bind] at h; cases h; exact .inl (toFloat_error hb)
    | ok y =>
      cases hp : power x y with
      | error e =>
        simp only [ha, hb, hp, bind, Except.bind, Functor.map, Except.map] at h
        cases h
        exact power_error hp
      | ok r => simp [ha, hb, hp, bind, Except.bind, Functor.map, Except.map] at h

theorem remainder_error {x y : Float} (h : remainder x y = .error f) : f = .eval .notReal := by
  unfold remainder at h
  split at h
  all_goals first | cases h | skip
  · split at h <;> cases h
    rfl
  · rfl

theorem mod_error (h : a.mod b = .error f) : f.Arithmetic := by
  unfold mod at h
  split at h
  · cases h; exact .inr (.inr (.inl rfl))
  cases ha : a.toFloat with
  | error e => simp only [ha, bind, Except.bind] at h; cases h; exact .inl (toFloat_error ha)
  | ok x =>
    cases hb : b.toFloat with
    | error e => simp only [ha, hb, bind, Except.bind] at h; cases h; exact .inl (toFloat_error hb)
    | ok y =>
      cases hr : remainder x y with
      | error e =>
        simp only [ha, hb, hr, bind, Except.bind, Functor.map, Except.map] at h
        cases h
        exact .inr (.inr (.inr (.inr (remainder_error hr))))
      | ok r => simp [ha, hb, hr, bind, Except.bind, Functor.map, Except.map] at h

theorem Partials.add_error {p : Partials} {x : Float} (h : p.add x = .error f) : f = .eval .tooLarge := by
  unfold Partials.add at h
  dsimp only at h
  split_ifs at h
  cases h
  rfl

theorem Partials.total_error {p : Partials} (h : p.total = .error f) : f = .eval .notReal := by
  unfold Partials.total at h
  split_ifs at h
  · cases h; rfl
  · split at h <;> cases h

theorem sum_error {xs : List Value} (h : sum xs = .error f) : f.Arithmetic := by
  -- the running partial sums refuse a term too large or an operand beyond a double
  have hfold : ∀ (ys : List Value) (p : Partials),
      ys.foldlM (fun (s : Partials) v => do s.add (← v.toFloat)) p = .error f →
        f = .integerTooLarge ∨ f = .eval .tooLarge := by
    intro ys
    induction ys with
    | nil => intro p hp; cases hp
    | cons y ys ih =>
      intro p hp
      rw [List.foldlM_cons] at hp
      cases hy : y.toFloat with
      | error e => simp only [hy, bind, Except.bind] at hp; cases hp; exact .inl (toFloat_error hy)
      | ok x =>
        cases hq : p.add x with
        | error e =>
          simp only [hy, hq, bind, Except.bind] at hp
          cases hp
          exact .inr (Partials.add_error hq)
        | ok q =>
          simp only [hy, hq, bind, Except.bind] at hp
          exact ih q hp
  unfold sum at h
  cases hs : xs.foldlM (fun (s : Partials) v => do s.add (← v.toFloat)) {} with
  | error e =>
    rw [hs] at h
    cases h
    rcases hfold xs {} hs with rfl | rfl
    · exact .inl rfl
    · exact .inr (.inr (.inr (.inl rfl)))
  | ok p =>
    cases ht : p.total with
    | error e =>
      rw [hs] at h
      simp only [ht, bind, Except.bind, Functor.map, Except.map] at h
      cases h
      exact .inr (.inr (.inr (.inr (Partials.total_error ht))))
    | ok t =>
      rw [hs] at h
      simp [ht, bind, Except.bind, Functor.map, Except.map] at h

end Value

/-- A fold of numbers whose every step can only fail with `P` fails only with `P`. -/
theorem foldlM_error {P : Fault → Prop} {g : Value → Value → Except Fault Value}
    (hg : ∀ x y f, g x y = .error f → P f) :
    ∀ (l : List Value) (x : Value) (f : Fault), l.foldlM g x = .error f → P f := by
  intro l
  induction l with
  | nil => intro x f h; cases h
  | cons y l ih =>
    intro x f h
    rw [List.foldlM_cons] at h
    cases hxy : g x y with
    | error e => rw [hxy] at h; cases h; exact hg x y _ hxy
    | ok z => rw [hxy] at h; exact ih z f h

/-- Crediting a colour fails only when a total is an integer beyond a double. -/
theorem Tally.credit_error {totals : List (String × Value)} {colour : String} {v : Value} {f : Fault}
    (h : Tally.credit totals colour v = .error f) : f = .integerTooLarge := by
  induction totals with
  | nil =>
    unfold Tally.credit at h
    cases hs : Value.add (.int 0) v with
    | error e => rw [hs] at h; cases h; exact Value.add_error hs
    | ok w => rw [hs] at h; cases h
  | cons entry rest ih =>
    obtain ⟨c, w⟩ := entry
    unfold Tally.credit at h
    split_ifs at h
    · cases hs : w.add v with
      | error e => rw [hs] at h; cases h; exact Value.add_error hs
      | ok u => rw [hs] at h; cases h
    · cases hr : Tally.credit rest colour v with
      | error e => rw [hr] at h; cases h; exact ih hr
      | ok r => rw [hr] at h; cases h

namespace Eval

/-- An operator chain's fold fails only with a fault of arithmetic. -/
theorem fold_error {op : String} {nums : List Value} {f : Fault} (h : fold op nums = .error f) :
    f.Arithmetic := by
  unfold fold at h
  dsimp only at h
  by_cases hplus : op = "+"
  · rw [if_pos hplus] at h
    exact Value.sum_error h
  rw [if_neg hplus] at h
  split at h
  · cases h
  · cases h
    exact .inr (.inl rfl)
  · refine foldlM_error (fun x y e he => ?_) _ _ _ h
    split_ifs at he
    · exact .inl (Value.combine_error he)
    · exact .inl (Value.combine_error he)
    · exact Value.div_error he
    · exact Value.pow_error he
    · exact Value.mod_error he

theorem foldFault_ne_mixedColours {f : Fault} (h : f.Arithmetic) :
    foldFault f ≠ .eval .mixedColours := by
  rcases h with rfl | rfl | rfl | rfl | rfl <;> decide

end Eval

end DiceNotation
