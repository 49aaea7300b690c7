import DiceNotation.Evaluate
import DiceNotation.Proofs.Formula.Spelling
/-!
# Evaluation does not read positions

The line and column of a node only say where it was read from.  Evaluating a
tree with every position taken away gives the same result and leaves the same
session: the same throws in the same order, the same totals by colour and the
same draws consumed.

The proof follows the evaluator's own recursion.  Every walk over the children
of an erased node (a fold, a map, a loop, a child picked by position) is
rewritten into the same walk over the children themselves, each erased, and
the erased children evaluate alike by the induction.
-/

namespace DiceNotation

namespace Node

@[simp] theorem children_erase (n : Node) : n.erase.children = n.children.map erase := by
  cases n
  simp [erase, children]

@[simp] theorem value_erase (n : Node) : n.erase.value = n.value := by
  cases n
  simp [erase, value]

/-- The children of an erased node, each with its membership, are the erased children. -/
theorem attach_children_erase (n : Node) :
    n.erase.children.attach =
      n.children.attach.map fun c => ⟨c.1.erase, by simpa using List.mem_map_of_mem c.2⟩ := by
  -- the membership proofs mention the list, so the list is generalised before it is rewritten
  have key : ∀ (L : List Node) (hL : L = n.children.map erase),
      L.attach = n.children.attach.map fun c => ⟨c.1.erase, hL ▸ List.mem_map_of_mem c.2⟩ := by
    intro L hL
    subst hL
    exact List.attach_map
  exact key _ (children_erase n)

end Node

namespace Eval

open Node

theorem childAt_map (f : Node → Node) (cs : List Node) (i : Nat) :
    childAt (cs.map f) i = (fun c => ⟨f c.1, List.mem_map_of_mem c.2⟩) <$> childAt cs i := by
  unfold childAt
  split
  · rename_i c h
    split
    · rename_i d hd
      rw [List.getElem?_map, hd] at h
      cases h
      rfl
    · rename_i hd
      rw [List.getElem?_map, hd] at h
      cases h
  · rename_i h
    split
    · rename_i d hd
      rw [List.getElem?_map, hd] at h
      cases h
    · rfl

/-- Picking a child of an erased node is picking the child and erasing it. -/
theorem childAt_erase_bind {β : Type} (n : Node) (i : Nat)
    (k : { c // c ∈ n.erase.children } → Eval β) :
    childAt n.erase.children i >>= k =
      childAt n.children i >>= fun c => k ⟨c.1.erase, by simpa using List.mem_map_of_mem c.2⟩ := by
  have key : ∀ (L : List Node) (hL : L = n.children.map erase) (k : { c // c ∈ L } → Eval β),
      childAt L i >>= k =
        childAt n.children i >>= fun c => k ⟨c.1.erase, hL ▸ List.mem_map_of_mem c.2⟩ := by
    intro L hL k
    subst hL
    rw [childAt_map, bind_map_left]
  exact key _ (children_erase n) k

/-- A tree evaluates as it does with its positions taken away. -/
theorem eval_erase (n : Node) : eval n.erase = eval n := by
  -- the evaluator reaches children and, for a condition, grandchildren
  have hc : ∀ x : { x // x ∈ n.children }, eval x.1.erase = eval x.1 := fun x => eval_erase x.1
  have hg : ∀ (x : { x // x ∈ n.children }) (y : { y // y ∈ x.1.children }),
      eval y.1.erase = eval y.1 := fun x y => eval_erase y.1
  rw [eval, eval]
  unfold evalWith
  simp only [sym_erase, value_erase, children_erase, List.length_map, attach_children_erase,
    List.foldlM_map, List.mapM_map, List.forIn_map, Function.comp_def, childAt_erase_bind, hc, hg]
termination_by n.weight
decreasing_by
  · exact weight_lt_of_child x
  · exact weight_lt_of_grandchild x y

end Eval

theorem Node.evaluate_erase (limits : Limits) (draws : Draws) (n : Node) :
    n.erase.evaluate limits draws = n.evaluate limits draws := by
  simp only [Node.evaluate, Eval.eval_erase]

end DiceNotation
