import SdkWiring.Diff.Block

/-!
# Shortest differences

A difference with as few removed and added items as possible. The two lists span a grid in which
the difference is a path from one corner to the other; the search goes from both corners at once,
diagonal by diagonal, and splits the grid where the two meet.

* `Diff.meeting?`: where the two searches meet.
* `Diff.shortest`: the blocks of a shortest difference.
-/

namespace SdkWiring.Diff

variable {α : Type} [DecidableEq α]

/-- How many items two lists start with alike. -/
def commonStart : List α → List α → Nat
  | a :: as, b :: bs => if a = b then commonStart as bs + 1 else 0
  | _, _ => 0

/-- How many items two lists end with alike. -/
def commonEnd (as bs : List α) : Nat := commonStart as.reverse bs.reverse

/-- How far a search has come on each diagonal. -/
structure Frontier where
  /-- The number of the middle diagonal in the table. -/
  middle : Nat
  reached : Array Nat

namespace Frontier

/-- The frontier of a search that has not started. -/
def ofSize (middle : Nat) : Frontier := ⟨middle, Array.replicate (2 * middle + 1) 0⟩

/-- How far the search has come on a diagonal. -/
def get (f : Frontier) (diagonal : Int) : Nat :=
  f.reached.getD (f.middle + diagonal).toNat 0

/-- The frontier with a diagonal changed. -/
def set (f : Frontier) (diagonal : Int) (x : Nat) : Frontier :=
  { f with reached := f.reached.setIfInBounds (f.middle + diagonal).toNat x }

/-- Where the search enters a diagonal in round `d`. -/
def enter (f : Frontier) (d : Nat) (diagonal : Int) : Nat :=
  if diagonal = -d ∨ (diagonal ≠ d ∧ f.get (diagonal - 1) < f.get (diagonal + 1)) then
    f.get (diagonal + 1)
  else f.get (diagonal - 1) + 1

end Frontier

/-- The diagonals that a search visits in round `d`. -/
def diagonals (d : Nat) : List Int :=
  (List.range (d + 1)).map fun (i : Nat) => (d : Int) - 2 * (i : Int)

/-- How far a search goes along a diagonal without a change. -/
def slide (as bs : List α) (x : Nat) (diagonal : Int) : Nat :=
  let y := (x : Int) - diagonal
  if x < as.length ∧ 0 ≤ y ∧ y < bs.length then commonStart (as.drop x) (bs.drop y.toNat) else 0

/-- The search from the start in round `d`. It ends with the point where the two searches meet. -/
def forward (as bs : List α) (d : Nat) (back : Frontier) (front : Frontier) :
    Except (Nat × Nat) Frontier :=
  let n := as.length
  let delta : Int := (n : Int) - bs.length
  (diagonals d).foldlM (fun front k =>
    let start := front.enter d k
    let x := start + slide as bs start k
    let front := front.set k x
    if delta % 2 ≠ 0 ∧ (k - delta).natAbs < d ∧ n ≤ x + back.get (-(k - delta)) then
      .error (start, ((start : Int) - k).toNat)
    else .ok front) front

/-- The search from the end in round `d`. It ends with the point where the two searches meet. -/
def backward (as bs : List α) (d : Nat) (front : Frontier) (back : Frontier) :
    Except (Nat × Nat) Frontier :=
  let n := as.length
  let delta : Int := (n : Int) - bs.length
  (diagonals d).foldlM (fun back k =>
    let start := back.enter d k
    let x := start + slide as.reverse bs.reverse start k
    let back := back.set k x
    if delta % 2 = 0 ∧ (k - delta).natAbs ≤ d ∧ n ≤ x + front.get (-(k - delta)) then
      .error (n - x, ((bs.length : Int) - ((x : Int) - k)).toNat)
    else .ok back) back

/-- The point where the two searches meet, in at most so many rounds from round `d` on. -/
def meetingFrom (as bs : List α) : Nat → Nat → Frontier → Frontier → Option (Nat × Nat)
  | 0, _, _, _ => none
  | rounds + 1, d, front, back =>
    match forward as bs d back front with
    | .error point => some point
    | .ok front =>
      match backward as bs d front back with
      | .error point => some point
      | .ok back => meetingFrom as bs rounds (d + 1) front back

/-- Where the two searches meet. -/
def meeting? (as bs : List α) : Option (Nat × Nat) :=
  let rounds := (as.length + bs.length + 1) / 2 + 1
  meetingFrom as bs rounds 0 (.ofSize rounds) (.ofSize rounds)

/-- The blocks of a shortest difference, with at most so many splits within each other. -/
def shortestWithin : Nat → List α → List α → List (Block α)
  | 0, as, bs => Block.ofItems .removed as ++ Block.ofItems .added bs
  | splits + 1, as, bs =>
    let start := commonStart as bs
    let rest := as.drop start
    let rest' := bs.drop start
    let stop := commonEnd rest rest'
    let inner := rest.take (rest.length - stop)
    let inner' := rest'.take (rest'.length - stop)
    let middle :=
      if inner.isEmpty || inner'.isEmpty then
        Block.ofItems .removed inner ++ Block.ofItems .added inner'
      else
        match meeting? inner inner' with
        | none => Block.ofItems .removed inner ++ Block.ofItems .added inner'
        | some (x, y) =>
          shortestWithin splits (inner.take x) (inner'.take y)
            ++ shortestWithin splits (inner.drop x) (inner'.drop y)
    Block.ofItems .kept (as.take start) ++ middle
      ++ Block.ofItems .kept (rest.drop (rest.length - stop))

/-- The blocks of a shortest difference. -/
def shortest (as bs : List α) : List (Block α) :=
  shortestWithin (as.length + bs.length + 1) as bs

end SdkWiring.Diff
