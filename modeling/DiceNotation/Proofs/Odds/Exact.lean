import DiceNotation.Proofs.Odds.Reach
import DiceNotation.Proofs.Odds.Sequences
/-!
# The table of a throw is exact

The table of a throw is filled face count by face count.  Every entry it
holds is the count of the face sequences of its state: with no faces this is
read off directly, and with one face more the recurrence `keptWays_succ` is
what `outcomes` computes, one binomial multiple of a shifted successor at a
time, from entries that are exact already.  The percentages are then each kept
total's share of all the sequences, `sides ^ count` of them.
-/

namespace DiceNotation.Odds

theorem binomial_eq_choose {n k : ℕ} (h : k ≤ n) : binomial n k = n.choose k := by
  -- after `i` factors the running product is `(n - k + i).choose i`
  have running : ∀ i ≤ k,
      (List.range i).foldl (fun acc j => acc * (n - k + j + 1) / (j + 1)) 1 =
        (n - k + i).choose i := by
    intro i hi
    induction i with
    | zero => simp
    | succ i ih =>
        rw [List.range_succ, List.foldl_append, ih (by omega), List.foldl_cons, List.foldl_nil,
          Nat.mul_comm, Nat.add_one_mul_choose_eq, Nat.mul_div_cancel _ (Nat.succ_pos i)]
        rfl
  rw [binomial, running k le_rfl, Nat.sub_add_cancel h]

/-- Adding the first `m` entries of `rest`, each `mult` times and `offset` places up. -/
theorem foldl_modify (offset mult : ℕ) (rest : Ways) :
    ∀ (m : ℕ) (a : Ways), offset + m ≤ a.size →
      ((List.range m).foldl (fun a i => a.modify (offset + i) (· + mult * rest[i]!)) a).size =
          a.size ∧
        ∀ t, ((List.range m).foldl (fun a i => a.modify (offset + i) (· + mult * rest[i]!)) a)[t]? =
          a[t]?.map fun x => x + if offset ≤ t ∧ t < offset + m then mult * rest[t - offset]! else 0
  | 0, a, _ => by
      refine ⟨rfl, fun t => ?_⟩
      have none : ¬ (offset ≤ t ∧ t < offset) := by omega
      simp [none]
  | m + 1, a, hm => by
      obtain ⟨hsize, hget⟩ := foldl_modify offset mult rest m a (by omega)
      rw [List.range_succ, List.foldl_append, List.foldl_cons, List.foldl_nil]
      refine ⟨by rw [Array.size_modify, hsize], fun t => ?_⟩
      rw [Array.getElem?_modify, hget]
      by_cases ht : offset + m = t
      · subst ht
        simp
      · have same : (offset ≤ t ∧ t < offset + (m + 1)) ↔ (offset ≤ t ∧ t < offset + m) := by
          omega
        simp only [if_neg ht, same]

/-- A missing entry of a table of ways counts as no way. -/
theorem getElem!_eq_getD (w : Ways) (i : ℕ) : w[i]! = w[i]?.getD 0 := by
  simp only [Array.getElem!_eq_getD, Array.getD_eq_getD_getElem?]
  rfl

theorem getD_addShifted (acc : Ways) (offset mult : ℕ) (rest : Ways) (t : ℕ) :
    (addShifted acc offset mult rest)[t]?.getD 0 =
      acc[t]?.getD 0 + if offset ≤ t then mult * rest[t - offset]?.getD 0 else 0 := by
  dsimp only [addShifted]
  set padded := acc ++ Array.replicate (max acc.size (offset + rest.size) - acc.size) 0
  have hsize : padded.size = max acc.size (offset + rest.size) := by
    simp only [padded, Array.size_append, Array.size_replicate]
    omega
  obtain ⟨-, hget⟩ := foldl_modify offset mult rest rest.size padded (by omega)
  rw [hget]
  -- entries past the end of `rest` add nothing
  have shifted : (if offset ≤ t ∧ t < offset + rest.size then mult * rest[t - offset]! else 0) =
      if offset ≤ t then mult * rest[t - offset]?.getD 0 else 0 := by
    by_cases hlow : offset ≤ t
    · by_cases hhigh : t < offset + rest.size
      · simp [hlow, hhigh, getElem!_eq_getD]
      · have beyond : rest[t - offset]? = none := Array.getElem?_eq_none (by omega)
        simp [hlow, hhigh, beyond]
    · simp [hlow]
  rw [shifted]
  by_cases ht : t < padded.size
  · -- the padding holds zeros
    have entry : padded[t]? = some (acc[t]?.getD 0) := by
      simp only [padded, Array.getElem?_append, Array.getElem?_replicate]
      split
      · next hacc => simp [hacc]
      · next hacc =>
          have beyond : acc[t]? = none := Array.getElem?_eq_none (by omega)
          rw [if_pos (by omega), beyond]
          rfl
    simp [entry]
  · have beyond : padded[t]? = none := Array.getElem?_eq_none (by omega)
    have noAcc : acc[t]? = none := Array.getElem?_eq_none (by omega)
    have noRest : offset ≤ t → rest[t - offset]? = none := fun h =>
      Array.getElem?_eq_none (by omega)
    by_cases hlow : offset ≤ t <;> simp [beyond, noAcc, noRest, hlow]

/-- The ways of a table entry are exact: those of its state with `s` faces. -/
def Exact (low s : ℕ) (st : State) (w : Ways) : Prop :=
  ∀ high : ℕ, st.2 = high → ∀ t, w[t]?.getD 0 = keptWays st.1 s high low t

private theorem mem_of_lookup {tbl : List (State × Ways)} {st : State} {w : Ways}
    (h : tbl.lookup st = some w) : (st, w) ∈ tbl := by
  obtain ⟨before, after, rfl, -⟩ := List.lookup_eq_some_iff.1 h
  simp

private theorem sum_map_range (f : ℕ → ℕ) (n : ℕ) :
    ((List.range n).map f).sum = ∑ k ∈ Finset.range n, f k := by
  rw [Finset.sum_eq_multiset_sum]
  rfl

/-- A fold whose every step adds `g k` to each entry adds up all the `g k`. -/
theorem foldlM_adds {f : Ways → ℕ → Option Ways} {g : ℕ → ℕ → ℕ} {l : List ℕ}
    (step : ∀ acc k acc', k ∈ l → f acc k = some acc' →
      ∀ t, acc'[t]?.getD 0 = acc[t]?.getD 0 + g k t) :
    ∀ {init acc : Ways}, l.foldlM f init = some acc →
      ∀ t, acc[t]?.getD 0 = init[t]?.getD 0 + (l.map fun k => g k t).sum := by
  induction l with
  | nil =>
      intro init acc h t
      cases h
      simp
  | cons k l ih =>
      intro init acc h t
      rw [List.foldlM_cons] at h
      obtain ⟨mid, hmid, hrest⟩ := Option.bind_eq_some_iff.1 h
      rw [ih (fun acc k acc' hk => step acc k acc' (List.mem_cons_of_mem _ hk)) hrest,
        step init k mid List.mem_cons_self hmid, List.map_cons, List.sum_cons]
      omega

/-- With no faces a state has one way if it has no dice, and none otherwise. -/
theorem outcomes_exact_zero {prev : List (State × Ways)} {low count high : ℕ} {w : Ways}
    (h : outcomes prev low 0 (count, high) = some w) (t : ℕ) :
    w[t]?.getD 0 = keptWays count 0 high low t := by
  simp only [outcomes] at h
  split at h
  · next hc =>
      cases h
      subst hc
      rw [keptWays_zero_count]
      rcases t with _ | t <;> simp
  · next hc =>
      cases h
      obtain ⟨count, rfl⟩ := Nat.exists_eq_succ_of_ne_zero hc
      simp [keptWays_zero_sides]

/-- One face more: a state's ways follow from the exact ways of its successors. -/
theorem outcomes_exact {prev : List (State × Ways)} {low sides count high : ℕ}
    (hprev : ∀ p ∈ prev, Exact low sides p.1 p.2) {w : Ways}
    (h : outcomes prev low (sides + 1) (count, high) = some w) (t : ℕ) :
    w[t]?.getD 0 = keptWays count (sides + 1) high low t := by
  simp only [outcomes] at h
  split at h
  · next hc =>
      cases h
      subst hc
      rw [keptWays_zero_count]
      rcases t with _ | t <;> simp
  · rw [if_neg (Nat.succ_ne_zero sides)] at h
    rw [keptWays_succ, ← sum_map_range]
    refine (foldlM_adds (g := fun shown t =>
      if topKept count high low shown * (sides + 1) ≤ t then
        count.choose shown *
          keptWays (count - shown) sides (high - shown) low
            (t - topKept count high low shown * (sides + 1))
      else 0) ?_ h t).trans (by simp)
    intro acc shown acc' hshown hstep t
    obtain ⟨rest, hrest, hacc'⟩ := Option.bind_eq_some_iff.1 hstep
    cases hacc'
    have hshown : shown ≤ count := Nat.le_of_lt_succ (List.mem_range.1 hshown)
    have hkept : (max (min ((shown : ℤ) - high) ((count : ℤ) - high - low)) 0).toNat =
        topKept count high low shown := by
      unfold topKept
      omega
    have hexact := hprev _ (mem_of_lookup hrest) (high - shown) (by simp; omega)
    rw [getD_addShifted, hkept, binomial_eq_choose hshown, hexact]

theorem mapM_entries {f : State → Option Ways} :
    ∀ {layer : List State} {tbl : List (State × Ways)},
      layer.mapM (fun st => (fun w => (st, w)) <$> f st) = some tbl → ∀ p ∈ tbl, f p.1 = some p.2
  | [], tbl, h => by
      cases h
      simp
  | st :: layer, tbl, h => by
      rw [List.mapM_cons] at h
      obtain ⟨⟨st', w⟩, hw, h⟩ := Option.bind_eq_some_iff.1 h
      obtain ⟨rest, hrest, h⟩ := Option.bind_eq_some_iff.1 h
      cases h
      obtain ⟨w', hw', hpair⟩ := Option.map_eq_some_iff.1 hw
      cases hpair
      intro p hp
      rcases List.mem_cons.1 hp with rfl | hp
      · exact hw'
      · exact mapM_entries hrest p hp

/-- Filling the tables face count by face count keeps every entry exact. -/
theorem fill_exact (low sides : ℕ) (layerList : List (List State)) :
    ∀ (faces : ℕ) {tbl : List (State × Ways)},
      (List.range (faces + 1)).foldlM (layerTable low sides layerList) [] = some tbl →
        ∀ p ∈ tbl, Exact low faces p.1 p.2
  | 0, tbl, h => by
      simp only [Nat.zero_add, List.range_one, List.foldlM_cons, List.foldlM_nil, bind_pure,
        layerTable] at h
      intro p hp high hhigh t
      obtain ⟨⟨count, h'⟩, w⟩ := p
      cases hhigh
      exact outcomes_exact_zero (mapM_entries h _ hp) t
  | faces + 1, tbl, h => by
      rw [List.range_succ, List.foldlM_append] at h
      obtain ⟨prev, hprev, h⟩ := Option.bind_eq_some_iff.1 h
      simp only [List.foldlM_cons, List.foldlM_nil, bind_pure, layerTable] at h
      intro p hp high hhigh t
      obtain ⟨⟨count, h'⟩, w⟩ := p
      cases hhigh
      exact outcomes_exact (fill_exact low sides layerList faces hprev) (mapM_entries h _ hp) t

/-- The ways the table of a throw finds for the throw are its exact ways. -/
theorem ways?_exact {count sides high low : ℕ} {w : Ways}
    (h : ways? count sides high low = some w) (t : ℕ) :
    w[t]?.getD 0 = keptWays count sides high low t := by
  obtain ⟨tbl, htbl, hw⟩ := Option.bind_eq_some_iff.1 h
  exact fill_exact low sides _ sides htbl _ (mem_of_lookup hw) high rfl t

private theorem sum_eq_sum_getElem? (l : List ℕ) :
    l.sum = ∑ t ∈ Finset.range l.length, l[t]?.getD 0 := by
  induction l with
  | nil => simp
  | cons x l ih =>
      rw [List.sum_cons, List.length_cons, Finset.sum_range_succ', ih]
      simp [Nat.add_comm]

/-- A table holding the exact ways of a throw holds all its sequences in total. -/
theorem total_eq {count sides high low : ℕ} {w : Ways}
    (h : ∀ t, w[t]?.getD 0 = keptWays count sides high low t) : w.total = sides ^ count := by
  have beyond : ∀ x, keptWays count sides high low (w.size + x) = 0 := by
    intro x
    rw [← h, Array.getElem?_eq_none (by omega)]
    rfl
  have bound : count * sides < w.size + (count * sides + 1) := by omega
  have all : ∑ t ∈ Finset.range (w.size + (count * sides + 1)),
      keptWays count sides high low t = sides ^ count := sum_keptWays bound
  rw [Finset.sum_range_add] at all
  simp only [beyond, Finset.sum_const_zero, Nat.add_zero] at all
  rw [← all, Ways.total, ← Array.foldl_toList, ← List.sum_eq_foldl, sum_eq_sum_getElem?]
  apply Finset.sum_congr (by simp)
  intro t _
  rw [← h, Array.getElem?_toList]

/-- Filtering the numbers below `m` keeps none from `n` on when none from `n` on passes. -/
private theorem filter_range_of_le {p : ℕ → Bool} {n : ℕ} :
    ∀ {m : ℕ}, n ≤ m → (∀ t, n ≤ t → t < m → p t = false) →
      (List.range m).filter p = (List.range n).filter p
  | 0, hnm, _ => by rw [Nat.le_zero.1 hnm]
  | m + 1, hnm, h => by
      rcases Nat.eq_or_lt_of_le hnm with rfl | hlt
      · rfl
      · rw [List.range_succ, List.filter_append,
          filter_range_of_le (by omega) fun t ht htm => h t ht (by omega)]
        simp [h m (by omega) (by omega)]

/-- The kept totals with some way lie between `0` and `count * sides`. -/
theorem le_of_keptWays_pos {count sides high low t : ℕ}
    (h : 0 < keptWays count sides high low t) : t ≤ count * sides := by
  obtain ⟨faces, hfaces, hkept⟩ := List.countP_pos_iff.1 h
  rw [← of_decide_eq_true hkept]
  exact keptSum_le hfaces

/-- The percentages of a table holding the exact ways of a throw: each kept total
with some way, in ascending order, with its ways in a hundred times all the
sequences, as the nearest double. -/
theorem percentages_exact {count sides high low : ℕ} {w : Ways}
    (h : ∀ t, w[t]?.getD 0 = keptWays count sides high low t) :
    percentages w =
      ((List.range (count * sides + 1)).filter fun t => 0 < keptWays count sides high low t).map
        fun t => (t, Binary.nearest false (keptWays count sides high low t * 100) (sides ^ count)) := by
  have entry : ∀ t, w[t]! = keptWays count sides high low t := fun t => by
    rw [getElem!_eq_getD, h]
  -- a kept total with some way is an entry of the table and at most `count * sides`
  have inTable : ∀ t, w.size ≤ t → keptWays count sides high low t = 0 := fun t ht => by
    rw [← h, Array.getElem?_eq_none ht]
    rfl
  have aboveTable : ((List.range (w.size + (count * sides + 1))).filter fun t =>
        0 < keptWays count sides high low t) =
      (List.range w.size).filter fun t => 0 < keptWays count sides high low t :=
    filter_range_of_le (by omega) fun t ht _ => by simp [inTable t ht]
  have aboveAll : ((List.range (w.size + (count * sides + 1))).filter fun t =>
        0 < keptWays count sides high low t) =
      (List.range (count * sides + 1)).filter fun t => 0 < keptWays count sides high low t := by
    refine filter_range_of_le (by omega) fun t ht _ => ?_
    simp only [decide_eq_false_iff_not, Nat.not_lt, Nat.le_zero]
    by_contra hpos
    have := le_of_keptWays_pos (Nat.pos_of_ne_zero hpos)
    omega
  dsimp only [percentages]
  simp only [total_eq h, entry]
  split
  · next hzero =>
      -- no sequence at all: every die has no face
      obtain ⟨rfl, hcount⟩ := pow_eq_zero_iff'.1 hzero
      obtain ⟨count, rfl⟩ := Nat.exists_eq_succ_of_ne_zero hcount
      simp [keptWays_zero_sides]
  · rw [← aboveTable, aboveAll]

/-- The distribution of a throw of `count` dice with `sides` faces that drops the
`high` highest and the `low` lowest faces: the ways worked out for the throw count,
for every total, the face sequences that keep that total, and the table lists
every total with some way, in ascending order, with its share of all the
sequences in percent. -/
theorem table?_exact (count sides high low : ℕ) :
    (∃ w, ways? count sides high low = some w ∧
        ∀ t, w[t]?.getD 0 = keptWays count sides high low t) ∧
      table? count sides high low =
        some (((List.range (count * sides + 1)).filter fun t =>
            0 < keptWays count sides high low t).map fun t =>
          (t, Binary.nearest false (keptWays count sides high low t * 100) (sides ^ count))) := by
  obtain ⟨w, hw⟩ := Option.isSome_iff_exists.1 (ways?_isSome count sides high low)
  have exact := ways?_exact hw
  refine ⟨⟨w, hw, exact⟩, ?_⟩
  unfold table?
  rw [if_neg (by omega), Int.toNat_natCast, Int.toNat_natCast, hw]
  simp [percentages_exact exact]

end DiceNotation.Odds
