import HttpWorkbench.Sorting.Runs
import HttpWorkbench.Value.Order

/-!
# Sorting by a key

Elements are sorted by a value that each of them has. Texts have an order, so that every stable
sort has the same result; other keys need not have one, and then it counts which of them are
compared, and when.
-/

namespace HttpWorkbench.Value

/-- Whether a text does not come after another. What are not two texts come in any order. -/
def isNotAfter : Value → Value → Bool
  | .str s, .str t => textOrder s t != .gt
  | _, _ => true

/-- The elements by key, the least first, those with equal keys as they stand. -/
def sortBy (key : α → Value) (xs : List α) : Result (List α) :=
  if xs.all fun x => (key x).isText then
    .ok (xs.mergeSort fun a b => (key a).isNotAfter (key b))
  else Sorting.sort (fun a b => (key a).isLess (key b)) xs

/-- The elements by key, the greatest first, those with equal keys as they stand. -/
def sortByDescending (key : α → Value) (xs : List α) : Result (List α) :=
  if xs.all fun x => (key x).isText then
    .ok (xs.mergeSort fun a b => (key b).isNotAfter (key a))
  else Sorting.sortDescending (fun a b => (key a).isLess (key b)) xs

end HttpWorkbench.Value
