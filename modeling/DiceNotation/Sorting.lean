/-!
# Natural merge sort with galloping

A list is sorted by a strict order `lt` with the adaptive natural merge sort
that keeps equal items in their order.  The order is only ever asked whether
one item is less than another, and it need not be a total order: with items
that are not comparable at all (a not-a-number total), the result depends on
exactly which questions are asked, so every step below asks them in one fixed
sequence.

* The list is cut into runs from left to right.  A run is the longest stretch
  that never goes down, or that strictly goes down (then it is reversed).  A run
  shorter than the minimum run length is extended to it by binary insertion.
* Each run gets a power, the depth at which its boundary with the next run
  falls in a binary halving of the whole list; runs on the stack of greater
  power than the newest one are merged first.  At the end every run left is
  merged, the shorter neighbour first.
* A merge first skips the items of the first run that are already in place and
  the items of the second run after the last item of the first.  It then merges
  from the left when the first run is the shorter, from the right otherwise.
  When one side wins `gallop` times in a row, the merge switches to galloping:
  it searches for how many items in a row that side wins, and `gallop` adapts to
  how well that pays.

Lists shorter than 64 items form one extended run: they are sorted by binary
insertion after their first natural run.

The sort works on the positions `0, …, n - 1` of the items, compared through
`lt`; the positions are then replaced by their items.
-/

namespace DiceNotation.Sorting

/-- The number of wins in a row that a merge starts galloping with. -/
def minGallop : Nat := 7

/-- A run on the stack of runs still to merge. -/
structure Run where
  /-- Where the run starts. -/
  base : Nat
  /-- How many items it has. -/
  len : Nat
  /-- The depth of its boundary with the next run. -/
  power : Nat
  deriving Repr, DecidableEq, Inhabited

section Searching

variable (lt : Nat → Nat → Bool)

/-- The place for `pivot` among the sorted items `l` to `r` of `a`: after every
item it is not less than. -/
def insertionPlace (a : Array Nat) (pivot l r : Nat) : Nat :=
  if l < r then
    let p := l + (r - l) / 2
    if lt pivot a[p]! then insertionPlace a pivot l p else insertionPlace a pivot (p + 1) r
  else l
termination_by r - l

/-- Sorts the items `lo` to `hi` of `a` by binary insertion, the items from `lo`
up to `start` being sorted already. -/
def binarySort (a : Array Nat) (lo hi start : Nat) : Array Nat :=
  let start := if lo = start then start + 1 else start
  (List.range (hi - start)).foldl (fun a k =>
    let s := start + k
    let pivot := a[s]!
    let l := insertionPlace lt a pivot lo s
    a.extract 0 l ++ #[pivot] ++ a.extract l s ++ a.extract (s + 1) a.size) a

/-- How many items from `k` (before `hi`) continue a run: each less than the one
before it when `down`, none less than the one before it otherwise. -/
def runLength (a : Array Nat) (down : Bool) (k hi : Nat) : Nat :=
  if k < hi then
    if lt a[k]! a[k - 1]! == down then 1 + runLength a down (k + 1) hi else 0
  else 0
termination_by hi - k

/-- The run starting at `lo` (before `hi`): its length, and whether it strictly
goes down. -/
def countRun (a : Array Nat) (lo hi : Nat) : Nat × Bool :=
  if lo + 1 < hi then
    let down := lt a[lo + 1]! a[lo]!
    (2 + runLength lt a down (lo + 2) hi, down)
  else (1, false)

/-- Doubles the offset `ofs` (to `2 * ofs + 1`) while it stays below `maxofs`
and `go` holds at it; gives the last offset where `go` held and the first
where it did not (or the first past `maxofs`). -/
def gallopOut (go : Nat → Bool) (maxofs lastofs ofs : Nat) : Nat × Nat :=
  if ofs < maxofs then
    if go ofs then gallopOut go maxofs ofs (2 * ofs + 1) else (lastofs, ofs)
  else (lastofs, ofs)
termination_by maxofs - ofs

/-- Binary search between `lo` and `hi` for the first place where `before` fails,
`before` holding up to some place and failing after it. -/
def searchBetween (before : Nat → Bool) (lo hi : Nat) : Nat :=
  if lo < hi then
    let m := lo + (hi - lo) / 2
    if before m then searchBetween before (m + 1) hi else searchBetween before lo m
  else lo
termination_by hi - lo

/-- The leftmost place for `key` among the `n` sorted items `at 0, …, at (n - 1)`:
before every item that `key` is not greater than.  The search gallops out from
`hint` and ends with a binary search. -/
def gallopLeft (at_ : Nat → Nat) (key n hint : Nat) : Nat :=
  let (lastofs, ofs) : Int × Nat :=
    if lt (at_ hint) key then
      let maxofs := n - hint
      let (lastofs, ofs) := gallopOut (fun o => lt (at_ (hint + o)) key) maxofs 0 1
      ((lastofs + hint : Nat), min ofs maxofs + hint)
    else
      let maxofs := hint + 1
      let (lastofs, ofs) := gallopOut (fun o => !lt (at_ (hint - o)) key) maxofs 0 1
      ((hint : Int) - min ofs maxofs, hint - lastofs)
  searchBetween (fun m => lt (at_ m) key) (lastofs + 1).toNat ofs

/-- The rightmost place for `key` among the `n` sorted items `at 0, …, at (n - 1)`:
after every item that `key` is not less than.  The search gallops out from
`hint` and ends with a binary search. -/
def gallopRight (at_ : Nat → Nat) (key n hint : Nat) : Nat :=
  let (lastofs, ofs) : Int × Nat :=
    if lt key (at_ hint) then
      let maxofs := hint + 1
      let (lastofs, ofs) := gallopOut (fun o => lt key (at_ (hint - o))) maxofs 0 1
      ((hint : Int) - min ofs maxofs, hint - lastofs)
    else
      let maxofs := n - hint
      let (lastofs, ofs) := gallopOut (fun o => !lt key (at_ (hint + o))) maxofs 0 1
      ((lastofs + hint : Nat), min ofs maxofs + hint)
  searchBetween (fun m => !lt key (at_ m)) (lastofs + 1).toNat ofs

end Searching

/-- Whether a merge is taking one item at a time, with how many times in a row
each run has won, or galloping. -/
inductive Pace where
  | single (aWins bWins : Nat)
  | galloping

section Merging

variable (lt : Nat → Nat → Bool)

/-- A merge from the left in progress: the next items of the runs `a` and `b`,
the items placed so far, and the current galloping threshold. -/
structure LeftMerge where
  i : Nat
  j : Nat
  out : Array Nat
  gallop : Nat

/-- The end of a merge from the left: what is left of either run follows. -/
def LeftMerge.close (a b : Array Nat) (st : LeftMerge) : Array Nat × Nat :=
  (st.out ++ a.extract st.i a.size ++ b.extract st.j b.size, st.gallop)

/-- The end of a merge from the left when one item of `a` is left: it comes
after what is left of `b`. -/
def LeftMerge.closeB (a b : Array Nat) (st : LeftMerge) : Array Nat × Nat :=
  (st.out ++ b.extract st.j b.size ++ a.extract st.i a.size, st.gallop)

/-- Merges from the left, `a` holding at least two items and `b` at least one. -/
def mergeLeftSteps (a b : Array Nat) : Nat → Pace → LeftMerge → Array Nat × Nat
  | 0, _, st => st.close a b
  | fuel + 1, .single aWins bWins, st =>
    if lt b[st.j]! a[st.i]! then
      let st := { st with out := st.out.push b[st.j]!, j := st.j + 1 }
      if b.size - st.j = 0 then st.close a b
      else if st.gallop ≤ bWins + 1 then
        mergeLeftSteps a b fuel .galloping { st with gallop := st.gallop + 1 }
      else mergeLeftSteps a b fuel (.single 0 (bWins + 1)) st
    else
      let st := { st with out := st.out.push a[st.i]!, i := st.i + 1 }
      if a.size - st.i = 1 then st.closeB a b
      else if st.gallop ≤ aWins + 1 then
        mergeLeftSteps a b fuel .galloping { st with gallop := st.gallop + 1 }
      else mergeLeftSteps a b fuel (.single (aWins + 1) 0) st
  | fuel + 1, .galloping, st =>
    let st := { st with gallop := if 1 < st.gallop then st.gallop - 1 else st.gallop }
    let aRun := gallopRight lt (fun x => a[st.i + x]!) b[st.j]! (a.size - st.i) 0
    let st := { st with out := st.out ++ a.extract st.i (st.i + aRun), i := st.i + aRun }
    if 0 < aRun ∧ a.size - st.i = 1 then st.closeB a b
    else if 0 < aRun ∧ a.size - st.i = 0 then st.close a b
    else
      let st := { st with out := st.out.push b[st.j]!, j := st.j + 1 }
      if b.size - st.j = 0 then st.close a b
      else
        let bRun := gallopLeft lt (fun x => b[st.j + x]!) a[st.i]! (b.size - st.j) 0
        let st := { st with out := st.out ++ b.extract st.j (st.j + bRun), j := st.j + bRun }
        if 0 < bRun ∧ b.size - st.j = 0 then st.close a b
        else
          let st := { st with out := st.out.push a[st.i]!, i := st.i + 1 }
          if a.size - st.i = 1 then st.closeB a b
          else if minGallop ≤ aRun ∨ minGallop ≤ bRun then
            mergeLeftSteps a b fuel .galloping st
          else mergeLeftSteps a b fuel (.single 0 0) { st with gallop := st.gallop + 1 }

/-- Merges the run `a` with the run `b` after it, from the left, `a` being the
shorter; gives the merged items and the new galloping threshold. -/
def mergeLeft (a b : Array Nat) (gallop : Nat) : Array Nat × Nat :=
  let st : LeftMerge := { i := 0, j := 1, out := #[b[0]!], gallop }
  if b.size - st.j = 0 then st.close a b
  else if a.size = 1 then st.closeB a b
  else mergeLeftSteps lt a b (a.size + b.size + 1) (.single 0 0) st

/-- A merge from the right in progress: how many items of the runs `a` and `b`
are left (at their fronts), the items placed so far (the last ones), and the
current galloping threshold. -/
structure RightMerge where
  na : Nat
  nb : Nat
  out : List Nat
  gallop : Nat

/-- The end of a merge from the right: what is left of either run comes first. -/
def RightMerge.close (a b : Array Nat) (st : RightMerge) : Array Nat × Nat :=
  ((a.extract 0 st.na).toList ++ (b.extract 0 st.nb).toList ++ st.out |>.toArray, st.gallop)

/-- The end of a merge from the right when one item of `b` is left: it comes
before what is left of `a`. -/
def RightMerge.closeA (a b : Array Nat) (st : RightMerge) : Array Nat × Nat :=
  ((b.extract 0 st.nb).toList ++ (a.extract 0 st.na).toList ++ st.out |>.toArray, st.gallop)

/-- Merges from the right, `a` holding at least one item and `b` at least two. -/
def mergeRightSteps (a b : Array Nat) : Nat → Pace → RightMerge → Array Nat × Nat
  | 0, _, st => st.close a b
  | fuel + 1, .single aWins bWins, st =>
    if lt b[st.nb - 1]! a[st.na - 1]! then
      let st := { st with out := a[st.na - 1]! :: st.out, na := st.na - 1 }
      if st.na = 0 then st.close a b
      else if st.gallop ≤ aWins + 1 then
        mergeRightSteps a b fuel .galloping { st with gallop := st.gallop + 1 }
      else mergeRightSteps a b fuel (.single (aWins + 1) 0) st
    else
      let st := { st with out := b[st.nb - 1]! :: st.out, nb := st.nb - 1 }
      if st.nb = 1 then st.closeA a b
      else if st.gallop ≤ bWins + 1 then
        mergeRightSteps a b fuel .galloping { st with gallop := st.gallop + 1 }
      else mergeRightSteps a b fuel (.single 0 (bWins + 1)) st
  | fuel + 1, .galloping, st =>
    let st := { st with gallop := if 1 < st.gallop then st.gallop - 1 else st.gallop }
    let aRun := st.na - gallopRight lt (fun x => a[x]!) b[st.nb - 1]! st.na (st.na - 1)
    let st := { st with
      out := (a.extract (st.na - aRun) st.na).toList ++ st.out, na := st.na - aRun }
    if 0 < aRun ∧ st.na = 0 then st.close a b
    else
      let st := { st with out := b[st.nb - 1]! :: st.out, nb := st.nb - 1 }
      if st.nb = 1 then st.closeA a b
      else
        let bRun := st.nb - gallopLeft lt (fun x => b[x]!) a[st.na - 1]! st.nb (st.nb - 1)
        let st := { st with
          out := (b.extract (st.nb - bRun) st.nb).toList ++ st.out, nb := st.nb - bRun }
        if 0 < bRun ∧ st.nb = 1 then st.closeA a b
        else if 0 < bRun ∧ st.nb = 0 then st.close a b
        else
          let st := { st with out := a[st.na - 1]! :: st.out, na := st.na - 1 }
          if st.na = 0 then st.close a b
          else if minGallop ≤ aRun ∨ minGallop ≤ bRun then
            mergeRightSteps a b fuel .galloping st
          else mergeRightSteps a b fuel (.single 0 0) { st with gallop := st.gallop + 1 }

/-- Merges the run `a` with the run `b` after it, from the right, `b` being the
shorter; gives the merged items and the new galloping threshold. -/
def mergeRight (a b : Array Nat) (gallop : Nat) : Array Nat × Nat :=
  let st : RightMerge := { na := a.size - 1, nb := b.size, out := [a[a.size - 1]!], gallop }
  if st.na = 0 then st.close a b
  else if b.size = 1 then st.closeA a b
  else mergeRightSteps lt a b (a.size + b.size + 1) (.single 0 0) st

/-- Merges the runs `i` and `i + 1` of the stack, which lie side by side in `a`;
gives the new items, the new stack and the new galloping threshold. -/
def mergeAt (a : Array Nat) (runs : Array Run) (i gallop : Nat) :
    Array Nat × Array Run × Nat :=
  let first := runs[i]!
  let second := runs[i + 1]!
  let runs := (runs.set! i { first with len := first.len + second.len }).eraseIdx! (i + 1)
  let skip := gallopRight lt (fun x => a[first.base + x]!) a[second.base]! first.len 0
  let baseA := first.base + skip
  let na := first.len - skip
  if na = 0 then (a, runs, gallop)
  else
    let nb := gallopLeft lt (fun x => a[second.base + x]!) a[baseA + na - 1]! second.len
      (second.len - 1)
    if nb = 0 then (a, runs, gallop)
    else
      let left := a.extract baseA (baseA + na)
      let right := a.extract second.base (second.base + nb)
      let (merged, gallop) :=
        if na ≤ nb then mergeLeft lt left right gallop else mergeRight lt left right gallop
      (a.extract 0 baseA ++ merged ++ a.extract (second.base + nb) a.size, runs, gallop)

end Merging

/-- The power of the run from `s1` of length `n1` followed by a run of length
`n2`, in a list of length `n`: the first bit where the binary expansions of the
two runs' midpoints, as fractions of `n`, differ. -/
def power (s1 n1 n2 n : Nat) : Nat :=
  go (n + 2) (2 * s1 + n1) (2 * s1 + n1 + n1 + n2) 1
where
  /-- Compares the expansions of `a / n` and `b / n` bit by bit. -/
  go : Nat → Nat → Nat → Nat → Nat
    | 0, _, _, result => result
    | fuel + 1, a, b, result =>
      if n ≤ a then go fuel (2 * (a - n)) (2 * (b - n)) (result + 1)
      else if n ≤ b then result
      else go fuel (2 * a) (2 * b) (result + 1)

/-- The minimum run length for a list of `n` items: `n` itself below 64, and
otherwise a length between 32 and 64 that cuts the list into a power of two of
runs or a little fewer. -/
def minRun (n : Nat) : Nat :=
  go n n 0
where
  /-- Halves `n` until it is below 64, remembering whether a one bit fell off. -/
  go : Nat → Nat → Nat → Nat
    | 0, n, r => n + r
    | fuel + 1, n, r => if 64 ≤ n then go fuel (n / 2) (max r (n % 2)) else n + r

section Sorting

variable (lt : Nat → Nat → Bool)

/-- Merges the newest run's predecessors while their power exceeds `p`. -/
def mergeAbove (p : Nat) : Nat → Array Nat × Array Run × Nat → Array Nat × Array Run × Nat
  | 0, state => state
  | fuel + 1, (a, runs, gallop) =>
    if 1 < runs.size ∧ p < runs[runs.size - 2]!.power then
      mergeAbove p fuel (mergeAt lt a runs (runs.size - 2) gallop)
    else (a, runs, gallop)

/-- Merges every run left on the stack, the shorter neighbour of the middle run first. -/
def mergeAll : Nat → Array Nat × Array Run × Nat → Array Nat
  | 0, (a, _, _) => a
  | fuel + 1, (a, runs, gallop) =>
    if 1 < runs.size then
      let n := runs.size - 2
      let n := if 0 < n ∧ runs[n - 1]!.len < runs[n + 1]!.len then n - 1 else n
      mergeAll fuel (mergeAt lt a runs n gallop)
    else a

/-- Finds the runs from `lo` on, extends the short ones, and merges by power. -/
def sortRuns (total minrun : Nat) : Nat → Nat → Array Nat × Array Run × Nat →
    Array Nat × Array Run × Nat
  | 0, _, state => state
  | fuel + 1, lo, (a, runs, gallop) =>
    if lo < total then
      let remaining := total - lo
      let (n, down) := countRun lt a lo total
      let a := if down then a.extract 0 lo ++ (a.extract lo (lo + n)).reverse ++
        a.extract (lo + n) a.size else a
      let (a, n) :=
        if n < minrun then
          let force := min remaining minrun
          (binarySort lt a lo (lo + force) (lo + n), force)
        else (a, n)
      let (a, runs, gallop) :=
        match runs.back? with
        | some last =>
          let p := power last.base last.len n total
          let (a, runs, gallop) := mergeAbove lt p runs.size (a, runs, gallop)
          (a, runs.modify (runs.size - 1) fun r => { r with power := p }, gallop)
        | none => (a, runs, gallop)
      sortRuns total minrun fuel (lo + n) (a, runs.push { base := lo, len := n, power := 0 }, gallop)
    else (a, runs, gallop)

/-- The positions `0, …, n - 1` sorted by `lt`. -/
def sortPositions (n : Nat) : Array Nat :=
  let a := Array.range n
  if n < 2 then a
  else
    let state := sortRuns lt n (minRun n) (n + 1) 0 (a, #[], minGallop)
    mergeAll lt (n + 1) state

end Sorting

/-- Sorts a list by a strict order, keeping equal items in their order. -/
def sortBy {α : Type} (lt : α → α → Bool) (xs : List α) : List α :=
  let items := xs.toArray
  let ltAt (i j : Nat) : Bool :=
    match items[i]?, items[j]? with
    | some x, some y => lt x y
    | _, _ => false
  (sortPositions ltAt items.size).toList.filterMap (items[·]?)

example : sortBy (fun a b => decide (a < b)) [3, 1, 2, 5, 4] = [1, 2, 3, 4, 5] := by
  decide +kernel

end DiceNotation.Sorting
