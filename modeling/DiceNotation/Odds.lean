import DiceNotation.Binary.Shape
/-!
# The distribution of a throw

How a throw of `count` dice with `sides` faces, of which the `high` highest
and the `low` lowest are dropped, is distributed over its kept totals.

The throws are split by how many dice show the highest face.  Those dice
are the highest of the throw: the first of them fill the highest drops, the
next ones are kept, up to the number of dice kept at all.  The other dice
form a throw with one face fewer and fewer highest drops to make.  Every
state (dice left, highest drops left) that the full throw can reach is
worked out once, from the states with no faces upwards.

The table gives, for each kept total that can occur, its share of all the
ways in percent, as the double nearest to the exact quotient.
-/

namespace DiceNotation.Odds

/-- A state of the count: dice left, and highest drops still to make. -/
abbrev State := Nat × Int

/-- The ways to reach each total, indexed by the total. -/
abbrev Ways := Array Nat

/-- The binomial coefficient `n` choose `k`, for `k ≤ n`. -/
def binomial (n k : Nat) : Nat :=
  (List.range k).foldl (fun acc i => acc * (n - k + i + 1) / (i + 1)) 1

/-- The states one face fewer can reach from a state: `k` dice show the face. -/
def successors (st : State) : List State :=
  (List.range (st.1 + 1)).map fun k => (st.1 - k, max (st.2 - k) 0)

/-- Adds a state to a list of states unless it is there. -/
def addState (xs : List State) (x : State) : List State :=
  if xs.contains x then xs else xs ++ [x]

/-- The states reachable with one face fewer. -/
def nextLayer (layer : List State) : List State :=
  (layer.flatMap successors).foldl addState []

/-- The reachable states with `0, 1, …, faces` faces removed. -/
def layers (start : State) : Nat → List (List State)
  | 0 => [[start]]
  | n + 1 =>
    let earlier := layers start n
    earlier ++ [nextLayer (earlier.getLast?.getD [])]

/-- Adds `mult` times the ways of `rest`, shifted up by `offset`, to `acc`. -/
def addShifted (acc : Ways) (offset mult : Nat) (rest : Ways) : Ways :=
  let size := max acc.size (offset + rest.size)
  let acc := acc ++ Array.replicate (size - acc.size) 0
  (List.range rest.size).foldl (fun a i => a.modify (offset + i) (· + mult * rest[i]!)) acc

/-- The ways of the kept totals from a state with `s` faces, given the table of
the states with `s - 1` faces; `none` if a state needed is missing. -/
def outcomes (prev : List (State × Ways)) (low : Int) (s : Nat) (st : State) : Option Ways :=
  let (c, h) := st
  if c = 0 then some #[1]
  else if s = 0 then some #[]
  else
    (List.range (c + 1)).foldlM (fun acc k => do
      let rest ← prev.lookup (c - k, max (h - k) 0)
      let kept : Int := max (min ((k : Int) - h) ((c : Int) - h - low)) 0
      pure (addShifted acc (kept.toNat * s) (binomial c k) rest)) #[]

/-- The table of the states with `s` faces, those of layer `sides - s`, given
the table `prev` of the states with `s - 1` faces. -/
def layerTable (low : Int) (sides : Nat) (layerList : List (List State))
    (prev : List (State × Ways)) (s : Nat) : Option (List (State × Ways)) :=
  let layer := (layerList[sides - s]?).getD []
  layer.mapM fun st => (fun w => (st, w)) <$> outcomes prev low s st

/-- The tables of all reachable states, face count by face count, ending with `sides` faces. -/
def fill (low : Int) (sides : Nat) (layerList : List (List State)) : Option (List (State × Ways)) :=
  (List.range (sides + 1)).foldlM (layerTable low sides layerList) []

/-- The ways of each kept total of a throw, or `none` if a state needed is missing. -/
def ways? (count sides : Nat) (high low : Int) : Option Ways := do
  let table ← fill low sides (layers (count, high) sides)
  table.lookup (count, high)

/-- The total ways of all kept totals. -/
def Ways.total (w : Ways) : Nat :=
  w.foldl (· + ·) 0

/-- The kept totals with their percentages, in ascending order of total. -/
def percentages (w : Ways) : List (Nat × Float) :=
  let all := w.total
  if all = 0 then []
  else ((List.range w.size).filter fun t => 0 < w[t]!).map fun t =>
    (t, Binary.nearest false (w[t]! * 100) all)

/-- The table of a throw; a negative count or number of sides gives an empty table. -/
def table? (count sides high low : Int) : Option (List (Nat × Float)) :=
  if count < 0 ∨ sides < 0 then some []
  else percentages <$> ways? count.toNat sides.toNat high low

example : binomial 5 2 = 10 ∧ binomial 4 0 = 1 ∧ binomial 6 6 = 1 := by decide
example : (ways? 2 6 0 0).map Array.toList = some [0, 0, 1, 2, 3, 4, 5, 6, 5, 4, 3, 2, 1] := by
  decide +kernel

end DiceNotation.Odds
