import DiceNotation.Token.Lexer
/-!
# Numbers spelled in words

The numerals the command line reads: the American number words from `zero`
to `billion`.
A run of number words such as `twenty one` or `two hundred thousand` stands
for a number.  The run is split at `billion`, `million` and `thousand`;
each part before such a word is a multiplier for it, and the part after the
last of them gives the hundreds.  A part of two words is their product when
one of them is `hundred` and their sum otherwise; a part of three words
`a b c` is `a · b + c`; a part of four words `a b c d` is `a · b + c + d`;
any longer part counts only its first word.  A run that repeats one of the
three large words, or puts a smaller one before a larger one, is malformed;
a part that the rule needs but that has no words is a missing item.
-/

namespace DiceNotation.NumberWords

/-- The number words and their values. -/
def table : List (String × Nat) :=
  [("zero", 0), ("one", 1), ("two", 2), ("three", 3), ("four", 4), ("five", 5),
   ("six", 6), ("seven", 7), ("eight", 8), ("nine", 9), ("ten", 10), ("eleven", 11),
   ("twelve", 12), ("thirteen", 13), ("fourteen", 14), ("fifteen", 15),
   ("sixteen", 16), ("seventeen", 17), ("eighteen", 18), ("nineteen", 19),
   ("twenty", 20), ("thirty", 30), ("forty", 40), ("fifty", 50), ("sixty", 60),
   ("seventy", 70), ("eighty", 80), ("ninety", 90), ("hundred", 100),
   ("thousand", 1000), ("million", 1000000), ("billion", 1000000000)]

/-- The value of a number word written in small letters. -/
def value? (word : String) : Option Nat :=
  (table.find? (·.1 == word)).map (·.2)

open Token (PhraseFault)

/-- The value of one part of a run, given the values of its words. -/
def part : List Nat → Except PhraseFault Nat
  | [] => .error .missing
  | [a] => .ok a
  | [a, b] => .ok (if a = 100 ∨ b = 100 then a * b else a + b)
  | [a, b, c] => .ok (a * b + c)
  | [a, b, c, d] => .ok (a * b + c + d)
  | a :: _ => .ok a

/-- The words of `xs` from index `i` up to, not including, index `j`. -/
def slice (xs : List Nat) (i j : Nat) : List Nat :=
  (xs.take j).drop i

/-- The index of the first word of a value, if any. -/
def indexOf? (xs : List Nat) (v : Nat) : Option Nat :=
  xs.findIdx? (· == v)

/-- The value of a run of number words, given the values of its words. -/
def runValue (xs : List Nat) : Except PhraseFault Nat := do
  if 1 < xs.count 1000 ∨ 1 < xs.count 1000000 ∨ 1 < xs.count 1000000000 then
    throw .malformed
  let b := indexOf? xs 1000000000
  let m := indexOf? xs 1000000
  let t := indexOf? xs 1000
  let before : Option Nat → Option Nat → Bool
    | some i, some j => decide (i < j)
    | _, _ => false
  if before t m || before t b || before m b then throw .malformed
  match xs with
  | [x] => return x
  | _ =>
    let billions ← match b with
      | some i => (· * 1000000000) <$> part (slice xs 0 i)
      | none => pure 0
    let millions ← match m with
      | some i => (· * 1000000) <$> part (slice xs ((b.map (· + 1)).getD 0) i)
      | none => pure 0
    let thousands ← match t with
      | some i =>
        let start := match m, b with
          | some j, _ => j + 1
          | none, some j => j + 1
          | none, none => 0
        (· * 1000) <$> part (slice xs start i)
      | none => pure 0
    let notLast : Option Nat → Option Nat
      | some i => if i + 1 = xs.length then none else some i
      | none => none
    let hundreds ← match notLast t, notLast m, notLast b with
      | some i, _, _ => part (xs.drop (i + 1))
      | none, some i, _ => part (xs.drop (i + 1))
      | none, none, some i => part (xs.drop (i + 1))
      | none, none, none =>
        if t.isNone ∧ m.isNone ∧ b.isNone then part xs else pure 0
    return billions + millions + thousands + hundreds

theorem runValue_single (n : Nat) : runValue [n] = .ok n := by
  have hcount : ∀ v, ¬ 1 < [n].count v := fun v => by
    rw [List.count_singleton]; split <;> omega
  have hindex : ∀ v, indexOf? [n] v = if n = v then some 0 else none := fun v => by
    simp [indexOf?]
  simp only [runValue, hcount, hindex, or_self, if_false]
  by_cases h : n = 1000 ∨ n = 1000000 ∨ n = 1000000000
  · rcases h with rfl | rfl | rfl <;> rfl
  · simp only [not_or] at h
    simp [h.1, h.2.1, h.2.2]
    rfl

/-- The command line reads numbers spelled in American number words. -/
instance numerals : Token.Numerals := ⟨value?, runValue, runValue_single⟩

example : numerals.phrase ["one", "two", "three"] = .ok 5 := by rfl
example : numerals.phrase ["one", "two", "three", "four", "five"] = .ok 1 := by rfl
example : numerals.phrase ["thousand", "five"] = .error .missing := by rfl
example : numerals.phrase ["thousand", "million"] = .error .malformed := by rfl
example : numerals.phrase ["twenty", "one"] = .ok 21 := by rfl
example : numerals.phrase ["two", "hundred", "thousand", "five"] = .ok 200005 := by rfl

end DiceNotation.NumberWords
