import HttpWorkbench.Sorting.Merge

/-!
# Sorting by runs

A stable sort. The row is cut into runs: what is in order already, or strictly against it, is
taken as it is or reversed, and a short run is made longer by inserting the elements behind it.
Runs wait on a stack until they are merged with a neighbour; which neighbours are merged when is
decided by how early halving the row, again and again, tells their middles apart.

The comparison may fail and need not be an order, so the order of comparisons is part of the result.
-/

namespace HttpWorkbench.Sorting

variable {α ε : Type}

/-- The elements that go on from `last` in order, or strictly against it; and the rest. -/
def onward (less : α → α → Except ε Bool) (descending : Bool) (last : α) :
    List α → Except ε (List α × List α)
  | [] => .ok ([], [])
  | x :: rest => do
    let before ← less x last
    if before = descending then
      let (more, rest) ← onward less descending x rest
      .ok (x :: more, rest)
    else .ok ([], x :: rest)

/-- The longest run at the head of a row, put in order, and the rest. -/
def headRun (less : α → α → Except ε Bool) : List α → Except ε (List α × List α)
  | x :: y :: rest => do
    let descending ← less y x
    let (more, rest) ← onward less descending y rest
    let run := x :: y :: more
    .ok (if descending then run.reverse else run, rest)
  | row => .ok (row, [])

/-- A run with one more element in its place, behind all that are not greater. -/
def insert (less : α → α → Except ε Bool) (run : List α) (x : α) : Except ε (List α) := do
  let place ← halve (testAt run fun y => (less x y).map (! ·)) 0 run.length
  .ok (run.take place ++ x :: run.drop place)

/-- How long runs are at least: a number below 64 that makes the runs of a row of `count` elements
almost equal in length, and their number almost a power of two. -/
def shortestRun (count : Nat) (odd : Nat := 0) : Nat :=
  if 64 ≤ count then shortestRun (count / 2) (max odd (count % 2)) else count + odd
termination_by count

/-- The run at the head of a row, as long as runs have to be, and the rest. -/
def nextRun (less : α → α → Except ε Bool) (shortest : Nat) (row : List α) :
    Except ε (List α × List α) := do
  let (run, rest) ← headRun less row
  let missing := shortest - run.length
  let run ← (rest.take missing).foldlM (insert less) run
  .ok (run, rest.drop missing)

/-- How many times a row of `count` elements has to be halved to tell two points apart, each given
by twice its place. -/
def halvings (count : Nat) : Nat → (left right : Nat) → Nat
  | 0, _, _ => 0
  | depth + 1, left, right =>
    if count ≤ left then halvings count depth (2 * (left - count)) (2 * (right - count)) + 1
    else if count ≤ right then 1
    else halvings count depth (2 * left) (2 * right) + 1

/-- A run that waits to be merged. -/
structure WaitingRun (α : Type) where
  elements : List α
  /-- The place of its first element in the row. -/
  start : Nat
  /-- The number of halvings that tell its middle from that of the run above it. -/
  power : Nat

/-- Two waiting runs merged into one, and the patience that is left. -/
def WaitingRun.merge (less : α → α → Except ε Bool) (patience : Nat) (first second : WaitingRun α) :
    Except ε (WaitingRun α × Nat) := do
  let (elements, patience) ← mergeRuns less patience first.elements second.elements
  .ok (⟨elements, first.start, 0⟩, patience)

/-- Merge the top of the stack with the runs below it that are nearer to it than `power`. -/
def settle (less : α → α → Except ε Bool) (power : Nat) :
    (patience : Nat) → (top : WaitingRun α) → (below : List (WaitingRun α)) →
      Except ε (List (WaitingRun α) × Nat)
  | patience, top, [] => .ok ([{ top with power }], patience)
  | patience, top, second :: below =>
    if power < second.power then do
      let (top, patience) ← second.merge less patience top
      settle less power patience top below
    else .ok ({ top with power } :: second :: below, patience)

/-- Put a run on the stack. -/
def push (less : α → α → Except ε Bool) (count patience : Nat) (run : WaitingRun α) :
    List (WaitingRun α) → Except ε (List (WaitingRun α) × Nat)
  | [] => .ok ([run], patience)
  | top :: below => do
    let left := 2 * top.start + top.elements.length
    let right := left + top.elements.length + run.elements.length
    let power := halvings count (count.log2 + 2) left right
    let (stack, patience) ← settle less power patience top below
    .ok (run :: stack, patience)

/-- Merge all runs of a stack, the shorter neighbour of the second run first. -/
def mergeAll (less : α → α → Except ε Bool) (patience : Nat) (top : WaitingRun α) :
    (below : List (WaitingRun α)) → Except ε (List α)
  | [] => .ok top.elements
  | [second] => do
    let (top, _) ← second.merge less patience top
    .ok top.elements
  | second :: third :: below => do
    if third.elements.length < top.elements.length then
      let (second, patience) ← third.merge less patience second
      mergeAll less patience top (second :: below)
    else
      let (top, patience) ← second.merge less patience top
      mergeAll less patience top (third :: below)
termination_by below => below.length

/-- Sort the rest of a row onto a stack. Each turn takes an element at least. -/
def sortOnto (less : α → α → Except ε Bool) (count : Nat) :
    (turns : Nat) → (patience : Nat) → List (WaitingRun α) → (rest : List α) → Except ε (List α)
  | turns + 1, patience, stack, rest@(_ :: _) => do
    let (run, more) ← nextRun less (shortestRun count) rest
    let (stack, patience) ← push less count patience ⟨run, count - rest.length, 0⟩ stack
    sortOnto less count turns patience stack more
  | _, patience, stack, _ =>
    match stack with
    | [] => .ok []
    | top :: below => mergeAll less patience top below

/-- The elements in ascending order, equal ones as they stood. -/
def sort (less : α → α → Except ε Bool) (row : List α) : Except ε (List α) :=
  sortOnto less row.length row.length Race.firstPatience [] row

/-- The elements in descending order, equal ones as they stood. -/
def sortDescending (less : α → α → Except ε Bool) (row : List α) : Except ε (List α) := do
  let sorted ← sort less row.reverse
  .ok sorted.reverse

end HttpWorkbench.Sorting
