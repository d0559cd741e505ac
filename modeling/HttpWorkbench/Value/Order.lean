import HttpWorkbench.Value.Access

/-!
# Order of values

Numbers are ordered by size, texts by code points, lists by their first difference. Values of
kinds that have no order in common make a comparison fail, and a number that is none is
neither less nor greater than any.
-/

namespace HttpWorkbench.Value

/-- Order of two numbers, truth values included. -/
def numberOrder? : Value → Value → Option (Option Ordering)
  | .float x, .float y => some (x.compare? y)
  | .float x, w => w.asInt?.map fun n => x.compareInt? n
  | v, .float y => v.asInt?.map fun n => (y.compareInt? n).map Ordering.swap
  | v, w =>
    match v.asInt?, w.asInt? with
    | some a, some b => some (some (compare a b))
    | _, _ => none

/-- Order of two rows of code points or bytes. -/
def rowOrder : List Nat → List Nat → Ordering
  | [], [] => .eq
  | [], _ :: _ => .lt
  | _ :: _, [] => .gt
  | x :: xs, y :: ys => (compare x y).then (rowOrder xs ys)

/-- Order of two texts, by code points. -/
def textOrder (s t : Text) : Ordering :=
  rowOrder (s.map CodePoint.value) (t.map CodePoint.value)

mutual

/-- Order of two values, for the comparison sign that is named in a failure. -/
def order (relation : Text) : Value → Value → Result (Option Ordering)
  | .list xs, .list ys => orderItems relation xs ys
  | .str s, .str t => .ok (some (textOrder s t))
  | .bytes a, .bytes b => .ok (some (rowOrder (a.map UInt8.toNat) (b.map UInt8.toNat)))
  | v, w =>
    match numberOrder? v w with
    | some o => .ok o
    | none => misused (.unordered relation v.kindName w.kindName)
termination_by structural v => v

/-- Order of two lists: that of the first items that are not the same, else of the lengths. -/
def orderItems (relation : Text) : List Value → List Value → Result (Option Ordering)
  | [], [] => .ok (some .eq)
  | [], _ :: _ => .ok (some .lt)
  | _ :: _, [] => .ok (some .gt)
  | x :: xs, y :: ys => if x.same y then orderItems relation xs ys else x.order relation y
termination_by structural xs => xs

end

/-- Whether the first value is less than the second. -/
def isLess (v w : Value) : Result Bool := do
  let o ← v.order "<" w
  .ok (o == some .lt)

/-- Whether the first value is less than or equal to the second. -/
def isAtMost (v w : Value) : Result Bool := do
  let o ← v.order "<=" w
  .ok (o == some .lt || o == some .eq)

/-- Whether the first value is greater than the second. -/
def isGreater (v w : Value) : Result Bool := do
  let o ← v.order ">" w
  .ok (o == some .gt)

@[simp] theorem isLess_int (a b : Int) : isLess (.int a) (.int b) = .ok (decide (a < b)) := by
  change Except.ok (some (compare a b) == some .lt) = _
  congr 1
  rw [Bool.eq_iff_iff, decide_eq_true_eq, beq_iff_eq, Option.some.injEq, Int.compare_eq_lt]

@[simp] theorem isGreater_int (a b : Int) :
    isGreater (.int a) (.int b) = .ok (decide (b < a)) := by
  change Except.ok (some (compare a b) == some .gt) = _
  congr 1
  rw [Bool.eq_iff_iff, decide_eq_true_eq, beq_iff_eq, Option.some.injEq, Int.compare_eq_gt]

end HttpWorkbench.Value
