import Mathlib.Algebra.BigOperators.Group.Finset.Piecewise
import Mathlib.Data.Nat.Choose.Basic
import Mathlib.Data.List.Sort
import Mathlib.Algebra.BigOperators.Ring.List
import Mathlib.Algebra.Order.BigOperators.Group.List
import Mathlib.Tactic.Ring
import DiceNotation.Odds
/-!
# Throws counted face sequence by face sequence

The distribution of a throw is a count over all the sequences of faces its
dice can show.  A sequence keeps its faces after sorting them and dropping
the highest and the lowest ones; the ways of a kept total are the sequences
that keep that total.

Counting the sequences of a die with one face more by how many of them show
that top face gives the recurrence the table of a throw is built with: the
top faces are the highest of the throw, so they fill the highest drops first,
and the other faces form a sequence of the smaller die whose places among the
top faces can be chosen in a binomial number of ways.
-/

namespace DiceNotation.Odds

/-- Every sequence of `count` faces of a die with faces `1, …, sides`, each once. -/
def sequences (sides : ℕ) : ℕ → List (List ℕ)
  | 0 => [[]]
  | count + 1 => (List.range' 1 sides).flatMap fun face => (sequences sides count).map (face :: ·)

/-- The total of the faces kept after sorting them and dropping the `high`
highest and the `low` lowest; `0` when every die is dropped. -/
def keptSum (high low : ℕ) (faces : List ℕ) : ℕ :=
  (((faces.insertionSort (· ≤ ·)).take (faces.length - high)).drop low).sum

/-- The number of face sequences of a throw whose kept total is `t`. -/
def keptWays (count sides high low t : ℕ) : ℕ :=
  (sequences sides count).countP fun faces => keptSum high low faces = t

theorem countP_sequences_succ (sides count : ℕ) (p : List ℕ → Bool) :
    (sequences sides (count + 1)).countP p =
      ((List.range' 1 sides).map fun face =>
        (sequences sides count).countP fun faces => p (face :: faces)).sum := by
  simp only [sequences, List.countP_flatMap]
  congr 1
  apply List.map_congr_left
  intro face _
  simp [List.countP_map, Function.comp_def]

theorem mem_sequences {sides count : ℕ} {faces : List ℕ} :
    faces ∈ sequences sides count ↔ faces.length = count ∧ ∀ x ∈ faces, 1 ≤ x ∧ x ≤ sides := by
  induction count generalizing faces with
  | zero =>
      simp only [sequences, List.mem_singleton]
      constructor
      · rintro rfl
        simp
      · rintro ⟨h, -⟩
        exact List.length_eq_zero_iff.1 h
  | succ count ih =>
      cases faces with
      | nil => simp [sequences]
      | cons x rest =>
          simp only [sequences, List.mem_flatMap, List.mem_range'_1, List.mem_map,
            List.cons.injEq, List.length_cons, List.mem_cons, forall_eq_or_imp]
          constructor
          · rintro ⟨face, hface, g, hg, rfl, rfl⟩
            obtain ⟨hlen, hg⟩ := ih.1 hg
            exact ⟨by omega, by omega, hg⟩
          · rintro ⟨hlen, hx, hrest⟩
            exact ⟨x, by omega, rest, ih.2 ⟨by omega, hrest⟩, rfl, rfl⟩

theorem length_sequences (sides count : ℕ) : (sequences sides count).length = sides ^ count := by
  induction count with
  | zero => rfl
  | succ count ih =>
      simp [sequences, List.length_flatMap, ih, pow_succ, mul_comm]

theorem nodup_sequences (sides count : ℕ) : (sequences sides count).Nodup := by
  induction count with
  | zero => simp [sequences]
  | succ count ih =>
      rw [sequences, List.nodup_flatMap]
      refine ⟨fun face _ => ih.map fun _ _ h => List.cons.inj h |>.2, ?_⟩
      refine (List.nodup_range' 1).pairwise_of_forall_ne ?_
      intro a _ b _ hab
      simp only [Function.onFun, List.disjoint_left, List.mem_map]
      rintro _ ⟨f, -, rfl⟩ ⟨g, -, hg⟩
      exact hab (List.cons.inj hg).1.symm

/-- The faces of a throw that are not below `top` all show `top`. -/
theorem filter_not_below {top : ℕ} {faces : List ℕ} (h : ∀ x ∈ faces, x ≤ top) :
    faces.filter (fun x => !decide (x < top)) = List.replicate (faces.count top) top := by
  rw [← List.filter_eq]
  apply List.filter_congr
  intro x hx
  have := h x hx
  by_cases hx : x < top
  · simp [hx]
    omega
  · simp [hx]
    omega

theorem length_filter_below {top : ℕ} {faces : List ℕ} (h : ∀ x ∈ faces, x ≤ top) :
    faces.length = (faces.filter (· < top)).length + faces.count top := by
  have := (List.filter_append_perm (fun x => decide (x < top)) faces).length_eq
  rw [List.length_append, filter_not_below h, List.length_replicate] at this
  exact this.symm

/-- Sorting puts the faces below `top` first and the faces showing `top` last. -/
theorem insertionSort_split {top : ℕ} {faces : List ℕ} (h : ∀ x ∈ faces, x ≤ top) :
    faces.insertionSort (· ≤ ·) =
      (faces.filter (· < top)).insertionSort (· ≤ ·) ++ List.replicate (faces.count top) top := by
  apply List.Perm.eq_of_pairwise' (List.pairwise_insertionSort _ faces)
  · rw [List.pairwise_append]
    refine ⟨List.pairwise_insertionSort _ _, List.pairwise_replicate.2 (.inr le_rfl), ?_⟩
    intro a ha b hb
    rw [List.mem_insertionSort, List.mem_filter, decide_eq_true_iff] at ha
    rw [List.eq_of_mem_replicate hb]
    exact le_of_lt ha.2
  · refine (List.perm_insertionSort _ _).trans ?_
    refine List.Perm.trans ?_ ((List.perm_insertionSort _ _).append_right _).symm
    rw [← filter_not_below h]
    exact (List.filter_append_perm _ faces).symm

/-- The dice that show the top face are the highest of a throw: the first of
them fill the highest drops, the next ones are kept, up to the number of dice
kept at all. -/
def topKept (count high low shown : ℕ) : ℕ :=
  min (shown - high) (count - high - low)

theorem keptSum_split {top high low : ℕ} {faces : List ℕ} (h : ∀ x ∈ faces, x ≤ top) :
    keptSum high low faces =
      topKept faces.length high low (faces.count top) * top +
        keptSum (high - faces.count top) low (faces.filter (· < top)) := by
  have hlen := length_filter_below h
  unfold keptSum topKept
  rw [insertionSort_split h]
  set sorted := (faces.filter (· < top)).insertionSort (· ≤ ·)
  have hsorted : sorted.length = (faces.filter (· < top)).length := List.length_insertionSort _ _
  set shown := faces.count top
  rw [← hsorted] at hlen ⊢
  rw [hlen]
  rcases Nat.lt_or_ge high shown with hh | hh
  · -- some faces showing `top` survive the highest drops
    rw [List.take_append, List.take_of_length_le (by omega), List.take_replicate,
      List.drop_append, List.sum_append, List.drop_replicate, List.sum_replicate,
      List.take_of_length_le (by omega)]
    have hkept : min (sorted.length + shown - high - sorted.length) shown - (low - sorted.length) =
        min (shown - high) (sorted.length + shown - high - low) := by omega
    rw [hkept, Nat.add_comm]
    simp
  · -- every face showing `top` is dropped
    have hnone : sorted.length + shown - high - sorted.length = 0 := by omega
    have htake : sorted.length + shown - high = sorted.length - (high - shown) := by omega
    rw [List.take_append, hnone, List.take_zero, List.append_nil, htake]
    simp [Nat.sub_eq_zero_of_le hh]

/-- Splitting the sequences of a die with one face more by how many of their
faces show that face: the other faces form a sequence of the smaller die, and
the places of the top faces can be chosen in `count.choose shown` ways. -/
theorem countP_top (sides : ℕ) : ∀ (count shown : ℕ) (p : List ℕ → Bool),
    (sequences (sides + 1) count).countP
        (fun faces => decide (faces.count (sides + 1) = shown) && p (faces.filter (· < sides + 1))) =
      count.choose shown * (sequences sides (count - shown)).countP p
  | 0, shown, p => by
      cases shown <;> simp [sequences]
  | count + 1, shown, p => by
      rw [countP_sequences_succ, List.range'_1_concat, Nat.add_comm 1 sides, List.map_append,
        List.sum_append]
      -- a first face below the top leaves the number of top faces unchanged
      have below : ∀ face ∈ List.range' 1 sides,
          (sequences (sides + 1) count).countP (fun faces =>
              decide ((face :: faces).count (sides + 1) = shown) &&
                p ((face :: faces).filter (· < sides + 1))) =
            count.choose shown *
              (sequences sides (count - shown)).countP fun faces => p (face :: faces) := by
        intro face hface
        rw [List.mem_range'_1] at hface
        rw [← countP_top sides count shown]
        congr 1
        funext faces
        have hne : face ≠ sides + 1 := by omega
        rw [List.filter_cons_of_pos (by simp; omega), List.count_cons_of_ne hne]
      rw [List.map_congr_left below, List.sum_map_mul_left, ← countP_sequences_succ]
      cases shown with
      | zero => simp
      | succ shown =>
          have top : (sequences (sides + 1) count).countP (fun faces =>
                decide (((sides + 1) :: faces).count (sides + 1) = shown + 1) &&
                  p (((sides + 1) :: faces).filter (· < sides + 1))) =
              count.choose shown * (sequences sides (count - shown)).countP p := by
            rw [← countP_top sides count shown]
            congr 1
            funext faces
            simp
          rw [List.map_singleton, List.sum_singleton, top, Nat.choose_succ_succ']
          rcases Nat.lt_or_ge shown count with h | h
          · rw [show count - (shown + 1) + 1 = count - shown by omega,
              show count + 1 - (shown + 1) = count - shown by omega]
            ring
          · rw [Nat.choose_eq_zero_of_lt (by omega : count < shown + 1),
              show count + 1 - (shown + 1) = count - shown by omega]
            simp

/-- Counting by the number of faces showing `top`, when no member shows it more
than `bound` times. -/
theorem countP_eq_sum_count {l : List (List ℕ)} {top bound : ℕ} (p : List ℕ → Bool)
    (h : ∀ faces ∈ l, faces.count top ≤ bound) :
    l.countP p = ∑ shown ∈ Finset.range (bound + 1),
      l.countP fun faces => decide (faces.count top = shown) && p faces := by
  induction l with
  | nil => simp
  | cons faces l ih =>
      have hf : faces.count top < bound + 1 := Nat.lt_succ_of_le (h faces List.mem_cons_self)
      simp only [List.countP_cons, Finset.sum_add_distrib]
      rw [ih fun g hg => h g (List.mem_cons_of_mem _ hg)]
      congr 1
      by_cases hp : p faces <;> simp [hp, Finset.sum_ite_eq, Finset.mem_range.2 hf]

theorem keptWays_zero_count (sides high low t : ℕ) :
    keptWays 0 sides high low t = if t = 0 then 1 else 0 := by
  by_cases ht : t = 0 <;> simp [keptWays, sequences, keptSum, ht, eq_comm]

theorem keptWays_zero_sides (count high low t : ℕ) :
    keptWays (count + 1) 0 high low t = 0 := by
  simp [keptWays, sequences]

/-- The ways of a kept total with one face more, split by how many dice show
that face: each such choice shifts the kept totals of the other dice by the
top faces kept. -/
theorem keptWays_succ (count sides high low t : ℕ) :
    keptWays count (sides + 1) high low t =
      ∑ shown ∈ Finset.range (count + 1),
        if topKept count high low shown * (sides + 1) ≤ t then
          count.choose shown *
            keptWays (count - shown) sides (high - shown) low
              (t - topKept count high low shown * (sides + 1))
        else 0 := by
  have bounded : ∀ faces ∈ sequences (sides + 1) count, faces.count (sides + 1) ≤ count := by
    intro faces hfaces
    rw [← (mem_sequences.1 hfaces).1]
    exact List.count_le_length
  rw [keptWays, countP_eq_sum_count _ bounded]
  apply Finset.sum_congr rfl
  intro shown _
  set off := topKept count high low shown * (sides + 1)
  -- on the sequences with `shown` top faces, the kept total is `off` plus that of the rest
  have split : ((sequences (sides + 1) count).countP fun faces =>
        decide (faces.count (sides + 1) = shown) && decide (keptSum high low faces = t)) =
      (sequences (sides + 1) count).countP fun faces =>
        decide (faces.count (sides + 1) = shown) &&
          decide (off + keptSum (high - shown) low (faces.filter (· < sides + 1)) = t) := by
    apply List.countP_congr
    intro faces hfaces
    obtain ⟨hlen, hrange⟩ := mem_sequences.1 hfaces
    rw [keptSum_split fun x hx => (hrange x hx).2, hlen]
    simp only [Bool.and_eq_true, decide_eq_true_eq, and_congr_right_iff]
    rintro rfl
    rfl
  have top := countP_top sides count shown fun faces =>
    decide (off + keptSum (high - shown) low faces = t)
  beta_reduce at top
  rw [split, top]
  split
  · next hle =>
      congr 1
      apply List.countP_congr
      intro faces _
      simp only [decide_eq_true_eq]
      omega
  · next hlt =>
      have none : ((sequences sides (count - shown)).countP fun faces =>
          decide (off + keptSum (high - shown) low faces = t)) = 0 := by
        rw [List.countP_eq_zero]
        intro faces _
        simp only [decide_eq_true_eq]
        omega
      rw [none, Nat.mul_zero]

-- two dice of three faces, keeping the higher: five of the nine sequences keep a three
example : keptWays 2 3 0 1 3 = 5 := by decide

/-- The kept total of a sequence is at most its length times the faces. -/
theorem keptSum_le {sides count high low : ℕ} {faces : List ℕ}
    (h : faces ∈ sequences sides count) : keptSum high low faces ≤ count * sides := by
  obtain ⟨hlen, hrange⟩ := mem_sequences.1 h
  have kept : keptSum high low faces ≤ faces.sum := by
    unfold keptSum
    calc _ ≤ ((faces.insertionSort (· ≤ ·)).take (faces.length - high)).sum :=
          (List.drop_sublist _ _).sum_le_sum fun _ _ => Nat.zero_le _
      _ ≤ (faces.insertionSort (· ≤ ·)).sum :=
          (List.take_sublist _ _).sum_le_sum fun _ _ => Nat.zero_le _
      _ = faces.sum := (List.perm_insertionSort _ _).sum_eq
  have total : faces.sum ≤ faces.length * sides := by
    simpa using List.sum_le_card_nsmul faces sides fun x hx => (hrange x hx).2
  rw [← hlen]
  exact kept.trans total

/-- Counting by the value of `f`, over all values below a bound above every value. -/
theorem sum_countP_eq_length {l : List (List ℕ)} {f : List ℕ → ℕ} {bound : ℕ}
    (h : ∀ x ∈ l, f x < bound) :
    ∑ t ∈ Finset.range bound, l.countP (fun x => f x = t) = l.length := by
  induction l with
  | nil => simp
  | cons x l ih =>
      simp only [List.countP_cons, Finset.sum_add_distrib, List.length_cons]
      rw [ih fun y hy => h y (List.mem_cons_of_mem _ hy)]
      simp [Finset.sum_ite_eq, Finset.mem_range.2 (h x List.mem_cons_self)]

/-- The ways of all totals below a bound above every kept total add up to all
the sequences. -/
theorem sum_keptWays {count sides high low bound : ℕ} (h : count * sides < bound) :
    ∑ t ∈ Finset.range bound, keptWays count sides high low t = sides ^ count := by
  rw [← length_sequences]
  exact sum_countP_eq_length fun faces hfaces => lt_of_le_of_lt (keptSum_le hfaces) h

end DiceNotation.Odds
