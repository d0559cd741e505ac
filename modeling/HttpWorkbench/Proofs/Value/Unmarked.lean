import HttpWorkbench.Proofs.Value.Spread

/-!
# Values up to their marks

What is no number is known by its mark. A document has none: what is read from it as no number has the
mark of documents. So the values that are the same up to marks are spread out alike and written as the
same text.
-/

namespace HttpWorkbench

namespace Value

mutual

/-- The value with the mark of documents on all in it that is no number. -/
def unmarked : Value → Value
  | .float (.nan _) => .float (.nan .document)
  | .list xs => .list (unmarkedItems xs)
  | .map es => .map (unmarkedEntries es)
  | .header k v => .header k.unmarked v.unmarked
  | v => v
termination_by structural v => v

/-- The items of a list with the mark of documents. -/
def unmarkedItems : List Value → List Value
  | [] => []
  | x :: xs => x.unmarked :: unmarkedItems xs
termination_by structural xs => xs

/-- The entries of a map with the mark of documents on their values. -/
def unmarkedEntries : List (Value × Value) → List (Value × Value)
  | [] => []
  | (k, v) :: es => (k, v.unmarked) :: unmarkedEntries es
termination_by structural es => es

end

mutual

/-- Marks can be taken off before or after spreading out. -/
theorem spread_unmarked (depth : Nat) : (v : Value) →
    v.unmarked.spread depth = (v.spread depth).map unmarked
  | .list xs => by
    cases depth with
    | zero => rfl
    | succ depth =>
      rw [unmarked, spread, spread, spreadItems_unmarked depth xs]
      cases spreadItems depth xs <;> rfl
  | .map es => by
    cases depth with
    | zero => rfl
    | succ depth =>
      rw [unmarked, spread, spread, spreadEntries_unmarked depth es]
      cases spreadEntries depth es <;> rfl
  | .header k v => by
    cases depth with
    | zero => rfl
    | succ depth =>
      rw [unmarked, spread, spread, spread_unmarked depth k, spread_unmarked depth v]
      cases k.spread depth <;> cases v.spread depth <;> rfl
  | .float x => by cases x <;> rfl
  | .null | .bool _ | .int _ | .str _ | .bytes _ | .language _ => rfl
termination_by structural v => v

theorem spreadItems_unmarked (depth : Nat) : (xs : List Value) →
    spreadItems depth (unmarkedItems xs) = (spreadItems depth xs).map unmarkedItems
  | [] => rfl
  | x :: xs => by
    rw [unmarkedItems, spreadItems, spreadItems, spread_unmarked depth x,
      spreadItems_unmarked depth xs]
    cases x.spread depth <;> cases spreadItems depth xs <;> rfl
termination_by structural xs => xs

theorem spreadEntries_unmarked (depth : Nat) : (es : List (Value × Value)) →
    spreadEntries depth (unmarkedEntries es) = (spreadEntries depth es).map unmarkedEntries
  | [] => rfl
  | (k, v) :: es => by
    rw [unmarkedEntries, spreadEntries, spreadEntries, spread_unmarked depth v,
      spreadEntries_unmarked depth es]
    cases v.spread depth <;> cases spreadEntries depth es <;> cases k <;> rfl
termination_by structural es => es

end

theorem unmarkedItems_eq (xs : List Value) : unmarkedItems xs = xs.map unmarked := by
  induction xs with
  | nil => rfl
  | cons x xs ih => rw [unmarkedItems, ih, List.map_cons]

theorem unmarkedEntries_eq (es : List (Value × Value)) :
    unmarkedEntries es = es.map fun e => (e.1, e.2.unmarked) := by
  induction es with
  | nil => rfl
  | cons e es ih => rw [unmarkedEntries, ih, List.map_cons]

/-- Named values are stored with their marks or without. -/
theorem storedFields_unmarked (fields : List (Text × Value)) :
    storedFields (fields.map fun f => (f.1, f.2.unmarked)) =
      (storedFields fields).map unmarkedEntries := by
  have hfield (f : Text × Value) :
      (f.2.unmarked.spread storedDepth >>= fun stored => .ok (Value.str f.1, stored)) =
        (f.2.spread storedDepth >>= fun stored => .ok (Value.str f.1, stored)).map
          fun e => (e.1, e.2.unmarked) := by
    rw [spread_unmarked]
    cases f.2.spread storedDepth <;> rfl
  have hmark : unmarkedEntries = List.map fun e => (e.1, e.2.unmarked) := funext unmarkedEntries_eq
  rw [hmark]
  exact mapM_map_eq_map hfield fields

end Value

namespace Json

open Value

mutual

/-- A value is written as the same text with its marks or without. -/
theorem writeValue_unmarked (layout : Layout) (level : Nat) (lead : Text) : (v : Value) →
    writeValue layout level lead v.unmarked = writeValue layout level lead v
  | .list [] => rfl
  | .list (x :: xs) => by
    rw [unmarked, unmarkedItems, writeValue, writeValue, writeValue_unmarked layout _ _ x,
      writeItems_unmarked layout _ xs]
  | .map [] => rfl
  | .map ((k, v) :: es) => by
    rw [unmarked, unmarkedEntries, writeValue, writeValue, writeEntry, writeEntry,
      writeValue_unmarked layout _ _ v, writeEntries_unmarked layout _ es]
  | .float x => by cases x <;> rfl
  | .header _ _ | .null | .bool _ | .int _ | .str _ | .bytes _ | .language _ => rfl
termination_by structural v => v

theorem writeItems_unmarked (layout : Layout) (level : Nat) : (xs : List Value) →
    writeItems layout level (unmarkedItems xs) = writeItems layout level xs
  | [] => rfl
  | x :: xs => by
    rw [unmarkedItems, writeItems, writeItems, writeValue_unmarked layout _ _ x,
      writeItems_unmarked layout _ xs]
termination_by structural xs => xs

theorem writeEntries_unmarked (layout : Layout) (level : Nat) : (es : List (Value × Value)) →
    writeEntries layout level (unmarkedEntries es) = writeEntries layout level es
  | [] => rfl
  | (k, v) :: es => by
    rw [unmarkedEntries, writeEntries, writeEntries, writeEntry, writeEntry,
      writeValue_unmarked layout _ _ v, writeEntries_unmarked layout _ es]
termination_by structural es => es

end

/-- A document has the marks of documents only. -/
theorem IsDocument.unmarked_eq {depth : Nat} {v : Value} (h : IsDocument depth v) :
    v.unmarked = v := by
  induction h with
  | null | bool | int | str => rfl
  | @float _ x hx =>
    cases x with
    | nan mark =>
      cases mark with
      | document => rfl
      | given n => exact absurd rfl (hx n)
    | _ => rfl
  | list _ ih =>
    rw [unmarked, unmarkedItems_eq, List.map_congr_left ih, List.map_id']
  | @map _ fields _ _ _ ih =>
    rw [ofFields, unmarked, unmarkedEntries_eq, List.map_map]
    refine congrArg Value.map (List.map_congr_left fun f hf => ?_)
    exact congrArg (Prod.mk (Value.str f.1)) (ih f hf)

end Json

end HttpWorkbench
