/-!
# Boundaries

In a row whose first elements pass a test and whose others do not, the boundary is the number of
elements that pass. It is found by halving, or by doubling steps from one end and then by halving.
The tests may fail, and a row may pass and not pass in any pattern, so which places are tested is
part of the result.
-/

namespace HttpWorkbench.Sorting

variable {α ε : Type}

/-- The test of the element at a place; no place beyond the row passes. -/
def testAt (row : List α) (test : α → Except ε Bool) : Nat → Except ε Bool :=
  let row := row.toArray
  fun i =>
    match row[i]? with
    | some x => test x
    | none => .ok false

/-- The boundary between two places, by halving. -/
def halve (test : Nat → Except ε Bool) (low high : Nat) : Except ε Nat :=
  if low < high then do
    let middle := low + (high - low) / 2
    let passes ← test middle
    if passes then halve test (middle + 1) high else halve test low middle
  else .ok low
termination_by high - low

/-- The last place that passes and a place behind the boundary, by steps that double from `step`. -/
def leap (test : Nat → Except ε Bool) (count last step : Nat) : Except ε (Nat × Nat) :=
  if step < count then do
    let passes ← test step
    if passes then leap test count step (2 * step + 1) else .ok (last, step)
  else .ok (last, count)
termination_by count - step

/-- The boundary in a row that is not empty, when it is likely to be near the front. -/
def boundaryFromFront (test : Nat → Except ε Bool) (count : Nat) : Except ε Nat := do
  let passes ← test 0
  if passes then
    let (last, beyond) ← leap test count 0 1
    halve test (last + 1) beyond
  else .ok 0

/-- The boundary in a row that is not empty, when it is likely to be near the back. -/
def boundaryFromBack (test : Nat → Except ε Bool) (count : Nat) : Except ε Nat := do
  let passes ← test (count - 1)
  if passes then .ok count
  else
    let (last, beyond) ← leap (fun i => (test (count - 1 - i)).map (! ·)) count 0 1
    halve test (count - beyond) (count - 1 - last)

end HttpWorkbench.Sorting
