import HttpWorkbench.Sorting.Boundary

/-!
# Merging two runs

Two neighbouring runs are merged from the side of the shorter one, which is held aside. Elements
are taken one at a time until one run has been ahead often enough in a row; then they are taken by
leaps until the leaps get short. How often is enough is the patience, which falls while leaps are
long and rises when they are given up, also from one merge to the next.
-/

namespace HttpWorkbench.Sorting

variable {α ε : Type}

/-- The side from which two runs are merged. -/
inductive Side where
  | front
  | back
  deriving DecidableEq, Repr

/-- Whether an element of the other run is taken before one of the run that is held. -/
def Side.goesFirst (less : α → α → Except ε Bool) : Side → (other held : α) → Except ε Bool
  | .front, y, x => less y x
  | .back, y, x => less x y

/-- How many elements of a row lead it that pass a test, the row written from this side. -/
def Side.leading (test : α → Except ε Bool) (row : List α) : Side → Except ε Nat
  | .front => boundaryFromFront (testAt row test) row.length
  | .back => do
    let count := row.length
    let passes := testAt row test
    let rest ← boundaryFromBack (fun i => (passes (count - 1 - i)).map (! ·)) count
    .ok (count - rest)

/-- Two runs on their way into one, each written from the side of the merge. -/
structure Race (α : Type) where
  /-- What has been taken, the latest first. -/
  taken : List α
  held : List α
  other : List α

namespace Race

/-- Whether the rest is settled: what is left of the other run, then what is left of the one that
is held. -/
def isOver (r : Race α) : Bool :=
  match r.held, r.other with
  | _ :: _ :: _, _ :: _ => false
  | _, _ => true

/-- All elements, from the side of the merge. -/
def result (r : Race α) : List α := r.taken.reverse ++ r.other ++ r.held

/-- Take elements of the run that is held. -/
def takeHeld (r : Race α) (n : Nat) : Race α :=
  ⟨(r.held.take n).reverse ++ r.taken, r.held.drop n, r.other⟩

/-- Take elements of the other run. -/
def takeOther (r : Race α) (n : Nat) : Race α :=
  ⟨(r.other.take n).reverse ++ r.taken, r.held, r.other.drop n⟩

/-- Take the held elements that come before the next of the other run, and then that one. Also how
many there were. -/
def leapHeld (less : α → α → Except ε Bool) (side : Side) (r : Race α) :
    Except ε (Race α × Nat) :=
  match r.other with
  | [] => .ok (r, 0)
  | y :: _ => do
    let n ← side.leading (fun x => (side.goesFirst less y x).map (! ·)) r.held
    let r := r.takeHeld n
    .ok (if r.isOver then r else r.takeOther 1, n)

/-- Take the elements of the other run that come before the next that is held, and then that one.
Also how many there were. -/
def leapOther (less : α → α → Except ε Bool) (side : Side) (r : Race α) :
    Except ε (Race α × Nat) :=
  match r.held with
  | [] => .ok (r, 0)
  | x :: _ => do
    let n ← side.leading (fun y => side.goesFirst less y x) r.other
    let r := r.takeOther n
    .ok (if r.isOver then r else r.takeHeld 1, n)

/-- The patience at the start, and how far a leap has to go to be worth another. -/
def firstPatience : Nat := 7

/-- A leap in each run, and whether one of them was long. -/
def leaps (less : α → α → Except ε Bool) (side : Side) (r : Race α) :
    Except ε (Race α × Bool) := do
  let (first, second) :=
    match side with
    | .front => (leapHeld, leapOther)
    | .back => (leapOther, leapHeld)
  let (r, n) ← first less side r
  if r.isOver then .ok (r, false)
  else
    let (r, m) ← second less side r
    .ok (r, decide (firstPatience ≤ max n m))

/-- How elements are taken. -/
inductive Pace where
  /-- One at a time, with how often in a row each run has been ahead. -/
  | steps (held other : Nat)
  | leaps
  deriving DecidableEq, Repr

/-- Take elements until the rest is settled. Each turn takes one at least, so that as many turns as
there are elements are enough. -/
def run (less : α → α → Except ε Bool) (side : Side) :
    Nat → Pace → (patience : Nat) → Race α → Except ε (List α × Nat)
  | 0, _, patience, r => .ok (r.result, patience)
  | turns + 1, .steps n m, patience, r =>
    match r.isOver, r.held, r.other with
    | false, x :: _, y :: _ => do
      let ahead ← side.goesFirst less y x
      let (r, n, m) := if ahead then (r.takeOther 1, 0, m + 1) else (r.takeHeld 1, n + 1, 0)
      run less side turns (if patience ≤ max n m then .leaps else .steps n m) patience r
    | _, _, _ => .ok (r.result, patience)
  | turns + 1, .leaps, patience, r =>
    if r.isOver then .ok (r.result, patience)
    else do
      let (r, long) ← r.leaps less side
      if r.isOver then .ok (r.result, patience)
      else if long then run less side turns .leaps (max 1 (patience - 1)) r
      else run less side turns (.steps 0 0) (patience + 1) r

end Race

/-- Two runs merged that are known to interlock at both ends, and the patience that is left. -/
def mergeInterlocked (less : α → α → Except ε Bool) (patience : Nat) (first second : List α) :
    Except ε (List α × Nat) :=
  let turns := first.length + second.length
  if first.length ≤ second.length then
    (Race.takeOther ⟨[], first, second⟩ 1).run less .front turns (.steps 0 0) patience
  else do
    let (merged, patience) ←
      (Race.takeOther ⟨[], second.reverse, first.reverse⟩ 1).run less .back turns (.steps 0 0)
        patience
    .ok (merged.reverse, patience)

/-- Two neighbouring runs merged, and the patience that is left. What leads the first run or ends
the second and is in its place already stays there. -/
def mergeRuns (less : α → α → Except ε Bool) (patience : Nat) (first second : List α) :
    Except ε (List α × Nat) :=
  match second with
  | [] => .ok (first, patience)
  | y :: _ => do
    let n ← boundaryFromFront (testAt first fun x => (less y x).map (! ·)) first.length
    match first.getLast?, first.drop n with
    | some x, left@(_ :: _) => do
      let m ← boundaryFromBack (testAt second (less · x)) second.length
      if m = 0 then .ok (first ++ second, patience)
      else
        let (merged, patience) ← mergeInterlocked less patience left (second.take m)
        .ok (first.take n ++ merged ++ second.drop m, patience)
    | _, _ => .ok (first ++ second, patience)

end HttpWorkbench.Sorting
