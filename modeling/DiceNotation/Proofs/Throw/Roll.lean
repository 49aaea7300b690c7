import Mathlib.Algebra.Order.BigOperators.Group.List
import Mathlib.Tactic.Ring
import Mathlib.Data.List.Sort
import DiceNotation.Throw
/-!
# Rolling a throw

A throw rolled from a total of zero is sound: it passed the limits, it has
one face per die in increasing order, each a face of the die, no more drops
than dice, and its total, least and greatest totals are those its drops make.

When the drops are not negative and only one kind of drop is asked for, the
total is the sum of the faces left once the highest and the lowest are
dropped, and lies between the least and the greatest total.  With drops of
both kinds only the highest are taken off the total, while the least and
greatest totals count both.
-/

namespace DiceNotation

namespace Throw

theorem sortFaces_eq (fs : List Int) : sortFaces fs = fs.insertionSort (· ≤ ·) := by
  induction fs with
  | nil => rfl
  | cons x xs ih =>
    rw [sortFaces, ih, List.insertionSort_cons]
    generalize xs.insertionSort (· ≤ ·) = ys
    induction ys with
    | nil => rfl
    | cons y ys ihy =>
      simp only [insertFace, List.orderedInsert_cons]
      split <;> simp [ihy]

end Throw

namespace Draws

theorem answer_bounds (d : Draws) {bound : Int} (hb : 0 < bound) :
    0 ≤ (d.answer bound).1 ∧ (d.answer bound).1 < bound := by
  unfold answer
  split <;> exact ⟨Int.fmod_nonneg_of_pos _ hb, Int.fmod_lt_of_pos _ hb⟩

/-- A draw from one to `sides` is a face of the die. -/
theorem uniform_one_bounds {d d' : Draws} {sides x : Int} (h : d.uniform 1 sides = (d', .ok x)) :
    1 ≤ x ∧ x ≤ sides := by
  unfold uniform at h
  by_cases hs : sides ≤ 0 ∨ (1 : Int) < 0
  · rw [if_pos hs] at h
    cases h
  rw [if_neg hs] at h
  by_cases h1 : sides - 1 = 0
  · rw [if_pos h1] at h
    cases h
    omega
  rw [if_neg h1] at h
  unfold below at h
  rw [if_neg (by omega)] at h
  have hb := d.answer_bounds (show 0 < sides - 1 + 1 by omega)
  generalize d.answer (sides - 1 + 1) = p at h hb
  obtain ⟨r, source⟩ := p
  cases h
  dsimp only at hb ⊢
  omega

theorem faces_bounds {sides : Int} (k : Nat) :
    ∀ {d d' : Draws} {fs : List Int}, d.faces sides k = (d', .ok fs) →
      fs.length = k ∧ ∀ x ∈ fs, 1 ≤ x ∧ x ≤ sides := by
  induction k with
  | zero =>
    intro d d' fs h
    cases h
    simp
  | succ k ih =>
    intro d d' fs h
    unfold faces at h
    generalize hu : d.uniform 1 sides = p at h
    obtain ⟨d₁, first⟩ := p
    cases first with
    | error f => cases h
    | ok x =>
      dsimp only at h
      generalize hr : d₁.faces sides k = q at h
      obtain ⟨d₂, rest⟩ := q
      cases rest with
      | error f => cases h
      | ok xs =>
        cases h
        obtain ⟨hlen, hxs⟩ := ih hr
        refine ⟨by simp [hlen], ?_⟩
        intro y hy
        rcases List.mem_cons.mp hy with rfl | hy
        · exact uniform_one_bounds hu
        · exact hxs y hy

end Draws

namespace Throw

/-- A throw is refused exactly when it is outside the limits or has more drops than dice. -/
theorem refusal?_eq_none {limits : Limits} {count sides high low : Int} :
    refusal? limits count sides high low = none ↔
      count ≤ limits.dice ∧ sides ≤ limits.sides ∧ 1 ≤ sides ∧ 0 ≤ count ∧ high + low ≤ count := by
  unfold refusal?
  split_ifs <;> simp <;> omega

theorem keptTotal_eq (count high low : Int) (faces : List Int) :
    keptTotal count high low faces =
      if 0 < high then (takeUntil faces (count - high)).sum
      else if 0 < low then (dropUntil faces low).sum
      else faces.sum := rfl

/-- With drops that are not negative, of one kind at most, the kept total is the
sum of the faces left once the `low` lowest and the `high` highest are dropped. -/
theorem keptTotal_of_single {count high low : Int} {faces : List Int} (hh : 0 ≤ high)
    (hl : 0 ≤ low) (hone : high = 0 ∨ low = 0) (hlen : faces.length = count.toNat)
    (hd : high + low ≤ count) :
    keptTotal count high low faces =
      ((faces.drop low.toNat).take (count - (high + low)).toNat).sum := by
  rw [keptTotal_eq]
  by_cases hh' : 0 < high
  · obtain rfl : low = 0 := by omega
    rw [if_pos hh', takeUntil, if_neg (by omega)]
    simp
  rw [if_neg hh']
  obtain rfl : high = 0 := by omega
  by_cases hl' : 0 < low
  · rw [if_pos hl', dropUntil, if_neg (by omega), List.take_of_length_le (by simp; omega)]
  · obtain rfl : low = 0 := by omega
    rw [if_neg hl', List.take_of_length_le (by simp; omega)]
    simp

/-- With highest drops, only they are taken off, whatever the lowest drops. -/
theorem keptTotal_of_dropHighest {count high low : Int} {faces : List Int} (hh : 0 < high)
    (hd : high ≤ count) :
    keptTotal count high low faces = (faces.take (count - high).toNat).sum := by
  rw [keptTotal_eq, if_pos hh, takeUntil, if_neg (by omega)]

/- One highest and one lowest drop of three dice keep two faces, not one. -/
example : keptTotal 3 1 1 [1, 4, 6] = 5 := by decide

/-- A throw as rolling leaves it: within the limits, one face per die in
increasing order, each a face of the die, no more drops than dice, and the
totals its drops make. -/
structure Sound (limits : Limits) (t : Throw) : Prop where
  count_nonneg : 0 ≤ t.count
  count_le : t.count ≤ limits.dice
  one_le_sides : 1 ≤ t.sides
  sides_le : t.sides ≤ limits.sides
  length_faces : t.faces.length = t.count.toNat
  sorted : t.faces.Pairwise (· ≤ ·)
  face_bounds : ∀ x ∈ t.faces, 1 ≤ x ∧ x ≤ t.sides
  drops_le : t.dropHighest + t.dropLowest ≤ t.count
  total_eq : t.total = keptTotal t.count t.dropHighest t.dropLowest t.faces
  least_eq : t.least = t.count - (t.dropHighest + t.dropLowest)
  greatest_eq : t.greatest = t.least * t.sides

/-- The colour of a throw plays no part in its soundness. -/
theorem Sound.recolour {limits : Limits} {t : Throw} (h : t.Sound limits) (colour : String) :
    { t with colour }.Sound limits :=
  ⟨h.1, h.2, h.3, h.4, h.5, h.6, h.7, h.8, h.9, h.10, h.11⟩

/-- Rolling a throw with no total yet gives a sound throw, changing only its
faces and totals. -/
theorem roll_sound {limits : Limits} {t r : Throw} {d d' : Draws} (h0 : t.total = 0)
    (h : roll limits t d = (d', .ok r)) :
    r.Sound limits ∧
      { r with faces := t.faces, total := t.total, least := t.least, greatest := t.greatest } = t := by
  unfold roll at h
  rw [if_neg (by simp [h0])] at h
  unfold rollFaces at h
  cases hr : refusal? limits t.count t.sides t.dropHighest t.dropLowest with
  | some f => rw [hr] at h; cases h
  | none =>
    rw [hr] at h
    obtain ⟨hdice, hsides, hone, hcount, hdrop⟩ := refusal?_eq_none.mp hr
    dsimp only at h
    generalize hf : d.faces t.sides t.count.toNat = p at h
    obtain ⟨d₁, drawn⟩ := p
    cases drawn with
    | error f => cases h
    | ok fs =>
      cases h
      obtain ⟨hlen, hfs⟩ := Draws.faces_bounds _ hf
      have hsorted : (sortFaces fs).Pairwise (· ≤ ·) := by
        rw [sortFaces_eq]
        exact (List.pairwise_insertionSort (· ≤ ·) fs).imp fun h => by simpa using h
      have hperm : (sortFaces fs).Perm fs := by
        rw [sortFaces_eq]
        exact List.perm_insertionSort _ fs
      exact ⟨⟨hcount, hdice, hone, hsides, hperm.length_eq.trans hlen, hsorted,
        fun x hx => hfs x (hperm.mem_iff.mp hx), hdrop, rfl, rfl, rfl⟩, rfl⟩

/-- Three dice of six sides, the highest dropped, drawn from the script `4, 0, 2`:
the faces `1, 3, 5` keep a total of `4`, and the throw is sound. -/
theorem roll_sound_three_d_six :
    roll {} { count := 3, sides := 6, dropHighest := 1 } { source := .script [4, 0, 2] } =
        ({ source := .script [4, 0, 2], made := 3 },
          .ok { count := 3, sides := 6, total := 4, faces := [1, 3, 5], least := 2,
                greatest := 12, dropHighest := 1 }) ∧
      Sound {} { count := 3, sides := 6, total := 4, faces := [1, 3, 5], least := 2,
                 greatest := 12, dropHighest := 1 } := by
  have h : roll {} { count := 3, sides := 6, dropHighest := 1 } { source := .script [4, 0, 2] } =
      ({ source := .script [4, 0, 2], made := 3 },
        .ok { count := 3, sides := 6, total := 4, faces := [1, 3, 5], least := 2,
              greatest := 12, dropHighest := 1 }) := rfl
  exact ⟨h, (roll_sound rfl h).1⟩

namespace Sound

variable {limits : Limits} {t : Throw}

/-- With drops that are not negative, of one kind at most, the total is the sum
of the faces kept once the drops are taken off, and lies between the least and
the greatest total. -/
theorem total_of_single (hs : t.Sound limits) (hh : 0 ≤ t.dropHighest) (hl : 0 ≤ t.dropLowest)
    (hone : t.dropHighest = 0 ∨ t.dropLowest = 0) :
    t.total = ((t.faces.drop t.dropLowest.toNat).take
        (t.count - (t.dropHighest + t.dropLowest)).toNat).sum ∧
      t.least ≤ t.total ∧ t.total ≤ t.greatest := by
  have htotal := hs.total_eq.trans (keptTotal_of_single hh hl hone hs.length_faces hs.drops_le)
  generalize hkept : (t.faces.drop t.dropLowest.toNat).take
    (t.count - (t.dropHighest + t.dropLowest)).toNat = kept at htotal
  have hlen : (kept.length : Int) = t.count - (t.dropHighest + t.dropLowest) := by
    rw [← hkept]
    have := hs.count_nonneg
    have := hs.drops_le
    simp only [List.length_take, List.length_drop, hs.length_faces]
    omega
  have hmem : ∀ x ∈ kept, 1 ≤ x ∧ x ≤ t.sides := fun x hx =>
    hs.face_bounds x (List.mem_of_mem_drop (List.mem_of_mem_take (hkept ▸ hx)))
  have hlow := List.card_nsmul_le_sum kept 1 fun x hx => (hmem x hx).1
  have hhigh := List.sum_le_card_nsmul kept t.sides fun x hx => (hmem x hx).2
  rw [Int.nsmul_eq_mul, hlen] at hlow hhigh
  refine ⟨htotal, ?_, ?_⟩
  · rw [hs.least_eq, htotal]
    simpa using hlow
  · rw [hs.greatest_eq, hs.least_eq, htotal]
    exact hhigh

/-- With highest drops and lowest drops that are not negative, only the highest
are taken off the total. -/
theorem total_of_dropHighest (hs : t.Sound limits) (hh : 0 < t.dropHighest)
    (hl : 0 ≤ t.dropLowest) : t.total = (t.faces.take (t.count - t.dropHighest).toNat).sum :=
  hs.total_eq.trans (keptTotal_of_dropHighest hh (by have := hs.drops_le; omega))

end Sound

end Throw

end DiceNotation
