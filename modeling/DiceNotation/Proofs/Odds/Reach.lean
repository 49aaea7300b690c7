import Mathlib.Logic.Function.Iterate
import DiceNotation.Odds
/-!
# Every state the count looks up is there

The table of a throw is built face count by face count.  The states worked
out with `s` faces are those of layer `sides - s`, and each of them looks up
its successors among the states of layer `sides - s + 1`, the layer built
just before.  That layer is the next layer of the one being built, exactly
the successors of its states, so it holds every state looked up and no
lookup misses: the table of a throw is never `none`.
-/

namespace DiceNotation.Odds

/-- Adding states lists the states already there and the states added. -/
theorem mem_foldl_addState_iff {acc xs : List State} {x : State} :
    x ∈ xs.foldl addState acc ↔ x ∈ acc ∨ x ∈ xs := by
  induction xs generalizing acc with
  | nil => simp
  | cons y ys ih =>
    rw [List.foldl_cons, ih]
    -- a state already listed is not added again
    have added : x ∈ addState acc y ↔ x ∈ acc ∨ x = y := by
      unfold addState
      split
      next hy =>
        have hy : y ∈ acc := List.contains_iff_mem.1 hy
        constructor
        · exact Or.inl
        · rintro (hx | rfl) <;> assumption
      next => simp
    rw [added, List.mem_cons, or_assoc]

/-- The successors of a state: `k` of its dice show the face, for each `k` up
to their number. -/
theorem mem_successors {st x : State} :
    x ∈ successors st ↔ ∃ k ≤ st.1, x = (st.1 - k, max (st.2 - k) 0) := by
  simp only [successors, List.mem_map, List.mem_range, Nat.lt_succ_iff]
  exact exists_congr fun k => and_congr_right fun _ => eq_comm

/-- The next layer is exactly the set of the successors of the states of a layer. -/
theorem mem_nextLayer_iff {layer : List State} {x : State} :
    x ∈ nextLayer layer ↔ ∃ st ∈ layer, ∃ k ≤ st.1, x = (st.1 - k, max (st.2 - k) 0) := by
  simp only [nextLayer, mem_foldl_addState_iff, List.not_mem_nil, false_or, List.mem_flatMap,
    mem_successors]

/-- Layer `j` is the next layer taken `j` times from the start. -/
theorem layers_eq (start : State) (n : Nat) :
    layers start n = (List.range (n + 1)).map fun j => Nat.iterate nextLayer j [start] := by
  induction n with
  | zero => rfl
  | succ n ih =>
    rw [layers, ih]
    simp [List.range_succ, Function.iterate_succ_apply']

/-- The layer looked up with `s` faces left, for `s ≤ sides`. -/
theorem layers_getElem? (start : State) {sides s : Nat} (hs : s ≤ sides) :
    (layers start sides)[sides - s]? = some (Nat.iterate nextLayer (sides - s) [start]) := by
  rw [layers_eq, List.getElem?_map, List.getElem?_range (by omega)]
  rfl

/-- A table lists its states in the order of the layer it was built from. -/
theorem mapM_keys (f : State → Option Ways) (layer : List State)
    (h : ∀ st ∈ layer, (f st).isSome) :
    ∃ t, layer.mapM (fun st => (fun w => (st, w)) <$> f st) = some t ∧
      t.map Prod.fst = layer := by
  induction layer with
  | nil => exact ⟨[], rfl, rfl⟩
  | cons st rest ih =>
    obtain ⟨w, hw⟩ := Option.isSome_iff_exists.1 (h st List.mem_cons_self)
    obtain ⟨t, ht, hkeys⟩ := ih fun x hx => h x (List.mem_cons_of_mem _ hx)
    refine ⟨(st, w) :: t, ?_, ?_⟩
    · rw [List.mapM_cons, hw, ht]
      rfl
    · simp [hkeys]

/-- A lookup of a listed state finds it. -/
theorem lookup_isSome_of_mem {t : List (State × Ways)} {x : State}
    (h : x ∈ t.map Prod.fst) : (t.lookup x).isSome := by
  obtain ⟨p, hp, rfl⟩ := List.mem_map.1 h
  exact List.lookup_isSome_iff.2 ⟨p, hp, by simp⟩

/-- A left fold whose every step succeeds succeeds. -/
theorem foldlM_isSome {α β : Type} {f : β → α → Option β} {xs : List α}
    (h : ∀ acc, ∀ x ∈ xs, (f acc x).isSome) (init : β) : (xs.foldlM f init).isSome := by
  induction xs generalizing init with
  | nil => rfl
  | cons x xs ih =>
    obtain ⟨b, hb⟩ := Option.isSome_iff_exists.1 (h init x List.mem_cons_self)
    rw [List.foldlM_cons, hb]
    exact ih (fun acc y hy => h acc y (List.mem_cons_of_mem _ hy)) b

/-- The ways from a state are found when the table holds all its successors. -/
theorem outcomes_isSome {prev : List (State × Ways)} {low : Int} {s : Nat} {st : State}
    (h : ∀ x ∈ successors st, (prev.lookup x).isSome) :
    (outcomes prev low s st).isSome := by
  obtain ⟨c, hi⟩ := st
  simp only [outcomes]
  split
  · rfl
  · split
    · rfl
    · apply foldlM_isSome
      intro acc k hk
      have hmem : (c - k, max (hi - k) 0) ∈ successors (c, hi) :=
        List.mem_map.2 ⟨k, hk, rfl⟩
      obtain ⟨w, hw⟩ := Option.isSome_iff_exists.1 (h _ hmem)
      simp [hw]

/-- With no faces the ways of every state are found without a lookup. -/
theorem outcomes_zero_isSome (prev : List (State × Ways)) (low : Int) (st : State) :
    (outcomes prev low 0 st).isSome := by
  obtain ⟨c, hi⟩ := st
  simp only [outcomes]
  split <;> rfl

/-- The table of layer `sides - s` of a throw, for `s ≤ sides`. -/
theorem layerTable_eq (start : State) (low : Int) (prev : List (State × Ways))
    {sides s : Nat} (hs : s ≤ sides) :
    layerTable low sides (layers start sides) prev s =
      (Nat.iterate nextLayer (sides - s) [start]).mapM
        fun st => (fun w => (st, w)) <$> outcomes prev low s st := by
  unfold layerTable
  rw [layers_getElem? start hs]
  rfl

/-- After the tables of `0, …, m` faces, the last one lists layer `sides - m`. -/
theorem fill_prefix (start : State) (low : Int) (sides : Nat) {m : Nat} (hm : m ≤ sides) :
    ∃ t, (List.range (m + 1)).foldlM (layerTable low sides (layers start sides)) [] = some t ∧
      t.map Prod.fst = Nat.iterate nextLayer (sides - m) [start] := by
  induction m with
  | zero =>
    obtain ⟨t, ht, hkeys⟩ := mapM_keys (outcomes [] low 0)
      (Nat.iterate nextLayer (sides - 0) [start]) fun st _ => outcomes_zero_isSome [] low st
    refine ⟨t, ?_, hkeys⟩
    show List.foldlM (m := Option) _ [] [0] = _
    rw [List.foldlM_cons, layerTable_eq start low [] hm, ht]
    rfl
  | succ m ih =>
    obtain ⟨t, ht, hkeys⟩ := ih (by omega)
    have hlayer : nextLayer (Nat.iterate nextLayer (sides - (m + 1)) [start]) =
        Nat.iterate nextLayer (sides - m) [start] := by
      rw [← Function.iterate_succ_apply' nextLayer]
      congr 1
      omega
    obtain ⟨t', ht', hkeys'⟩ := mapM_keys (outcomes t low (m + 1))
      (Nat.iterate nextLayer (sides - (m + 1)) [start]) fun st hst =>
        outcomes_isSome fun x hx =>
          lookup_isSome_of_mem (by rw [hkeys, ← hlayer]; exact mem_nextLayer_iff.2 ⟨st, hst, mem_successors.1 hx⟩)
    refine ⟨t', ?_, hkeys'⟩
    rw [List.range_succ, List.foldlM_append, ht]
    show List.foldlM (m := Option) _ t [m + 1] = _
    rw [List.foldlM_cons, layerTable_eq start low t hm, ht']
    rfl

/-- The ways of a throw are always found. -/
theorem ways?_isSome (count sides : Nat) (high low : Int) :
    (ways? count sides high low).isSome := by
  obtain ⟨t, ht, hkeys⟩ := fill_prefix (count, high) low sides (Nat.le_refl sides)
  unfold ways?
  rw [fill, ht]
  show (List.lookup (count, high) t).isSome = true
  apply lookup_isSome_of_mem
  rw [hkeys]
  simp

/-- The table of a throw is never missing a state: it exists for every count,
number of sides and drops. -/
theorem table?_isSome (count sides high low : Int) :
    (table? count sides high low).isSome := by
  unfold table?
  split
  · rfl
  · simp [ways?_isSome]

end DiceNotation.Odds
