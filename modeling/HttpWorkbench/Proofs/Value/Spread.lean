import HttpWorkbench.Proofs.Json.SameDocument
import HttpWorkbench.Value.Record

/-!
# Spreading out

A value can be spread out exactly if it does not nest too deep and has no header for a key. This
changes nothing in a value that holds no headers. A document holds none: so it is spread out to itself,
as long as it does not nest too deep.
-/

namespace HttpWorkbench

open Json (IsDocument)

namespace Value

/-- Whether the value is a header. -/
def isHeader : Value → Bool
  | .header _ _ => true
  | _ => false

mutual

/-- Whether no map in a value has a header for a key. -/
def hasPlainKeys : Value → Bool
  | .list xs => itemsHavePlainKeys xs
  | .map es => entriesHavePlainKeys es
  | .header k v => k.hasPlainKeys && v.hasPlainKeys
  | _ => true
termination_by structural v => v

/-- Whether no map in the items of a list has a header for a key. -/
def itemsHavePlainKeys : List Value → Bool
  | [] => true
  | x :: xs => x.hasPlainKeys && itemsHavePlainKeys xs
termination_by structural xs => xs

/-- Whether neither a map nor one in its values has a header for a key. -/
def entriesHavePlainKeys : List (Value × Value) → Bool
  | [] => true
  | (k, v) :: es => !k.isHeader && (v.hasPlainKeys && entriesHavePlainKeys es)
termination_by structural es => es

end

mutual

/-- Whether a value holds no header. -/
def isPlain : Value → Bool
  | .list xs => itemsArePlain xs
  | .map es => entriesArePlain es
  | .header _ _ => false
  | _ => true
termination_by structural v => v

/-- Whether the items of a list hold no header. -/
def itemsArePlain : List Value → Bool
  | [] => true
  | x :: xs => x.isPlain && itemsArePlain xs
termination_by structural xs => xs

/-- Whether the entries of a map hold no header. -/
def entriesArePlain : List (Value × Value) → Bool
  | [] => true
  | (k, v) :: es => !k.isHeader && (v.isPlain && entriesArePlain es)
termination_by structural es => es

end

mutual

/-- A value can be spread out exactly if it does not nest too deep and has no header for a key. -/
theorem exists_spread_iff (depth : Nat) : (v : Value) →
    ((∃ w, v.spread depth = .ok w) ↔ v.nesting ≤ depth ∧ v.hasPlainKeys = true)
  | .list xs => by
    cases depth with
    | zero => simp [spread, nesting, misused]
    | succ depth =>
      rw [spread, exists_bind_eq_ok_iff, nesting, Nat.succ_le_succ_iff, hasPlainKeys,
        ← exists_spreadItems_iff depth xs]
      simp
  | .map es => by
    cases depth with
    | zero => simp [spread, nesting, misused]
    | succ depth =>
      rw [spread, exists_bind_eq_ok_iff, nesting, Nat.succ_le_succ_iff, hasPlainKeys,
        ← exists_spreadEntries_iff depth es]
      simp
  | .header k v => by
    cases depth with
    | zero => simp [spread, nesting, misused]
    | succ depth =>
      have hkey := exists_spread_iff depth k
      have hvalue := exists_spread_iff depth v
      rw [spread, exists_bind_eq_ok_iff, nesting, Nat.succ_le_succ_iff, hasPlainKeys,
        Bool.and_eq_true, Nat.max_le, and_and_and_comm, ← hkey, ← hvalue]
      simp [exists_bind_eq_ok_iff]
  | .null | .bool _ | .int _ | .float _ | .str _ | .bytes _ | .language _ =>
    iff_of_true ⟨_, rfl⟩ ⟨Nat.zero_le depth, rfl⟩
termination_by structural v => v

theorem exists_spreadItems_iff (depth : Nat) : (xs : List Value) →
    ((∃ ys, spreadItems depth xs = .ok ys) ↔
      nestingOfItems xs ≤ depth ∧ itemsHavePlainKeys xs = true)
  | [] => iff_of_true ⟨[], rfl⟩ ⟨Nat.zero_le depth, rfl⟩
  | x :: xs => by
    have hfirst := exists_spread_iff depth x
    have hothers := exists_spreadItems_iff depth xs
    rw [spreadItems, exists_bind_eq_ok_iff, nestingOfItems, itemsHavePlainKeys, Bool.and_eq_true,
      Nat.max_le, and_and_and_comm, ← hfirst, ← hothers]
    simp [exists_bind_eq_ok_iff]
termination_by structural xs => xs

theorem exists_spreadEntries_iff (depth : Nat) : (es : List (Value × Value)) →
    ((∃ fs, spreadEntries depth es = .ok fs) ↔
      nestingOfEntries es ≤ depth ∧ entriesHavePlainKeys es = true)
  | [] => iff_of_true ⟨[], rfl⟩ ⟨Nat.zero_le depth, rfl⟩
  | (k, v) :: es => by
    have hfirst := exists_spread_iff depth v
    have hothers := exists_spreadEntries_iff depth es
    rw [spreadEntries, exists_bind_eq_ok_iff, nestingOfEntries, entriesHavePlainKeys]
    cases k with
    | header key value => simp [isHeader, misused]
    | _ =>
      simp only [isHeader, Bool.not_false, Bool.true_and, Bool.and_eq_true]
      rw [Nat.max_le, and_and_and_comm, ← hfirst, ← hothers]
      simp [exists_bind_eq_ok_iff]
termination_by structural es => es

end

mutual

/-- Spreading out changes nothing where there is no header. -/
theorem eq_of_spread {depth : Nat} : (v : Value) → v.isPlain = true →
    {w : Value} → v.spread depth = .ok w → w = v
  | .list xs, hplain, w, h => by
    cases depth with
    | zero => cases h
    | succ depth =>
      obtain ⟨ys, hys, h⟩ := bind_eq_ok_iff.mp h
      rw [← Except.ok.inj h, eq_of_spreadItems xs hplain hys]
  | .map es, hplain, w, h => by
    cases depth with
    | zero => cases h
    | succ depth =>
      obtain ⟨fs, hfs, h⟩ := bind_eq_ok_iff.mp h
      rw [← Except.ok.inj h, eq_of_spreadEntries es hplain hfs]
  | .header _ _, hplain, _, _ => by cases hplain
  | .null, _, _, h | .bool _, _, _, h | .int _, _, _, h | .float _, _, _, h | .str _, _, _, h
  | .bytes _, _, _, h | .language _, _, _, h => (Except.ok.inj h).symm
termination_by structural v => v

theorem eq_of_spreadItems {depth : Nat} : (xs : List Value) → itemsArePlain xs = true →
    {ys : List Value} → spreadItems depth xs = .ok ys → ys = xs
  | [], _, _, h => (Except.ok.inj h).symm
  | x :: xs, hplain, _, h => by
    rw [itemsArePlain, Bool.and_eq_true] at hplain
    obtain ⟨y, hy, h⟩ := bind_eq_ok_iff.mp h
    obtain ⟨ys, hys, h⟩ := bind_eq_ok_iff.mp h
    rw [← Except.ok.inj h, eq_of_spread x hplain.1 hy, eq_of_spreadItems xs hplain.2 hys]
termination_by structural xs => xs

theorem eq_of_spreadEntries {depth : Nat} : (es : List (Value × Value)) →
    entriesArePlain es = true → {fs : List (Value × Value)} → spreadEntries depth es = .ok fs →
    fs = es
  | [], _, _, h => (Except.ok.inj h).symm
  | (k, v) :: es, hplain, _, h => by
    rw [entriesArePlain, Bool.and_eq_true, Bool.and_eq_true] at hplain
    obtain ⟨w, hw, h⟩ := bind_eq_ok_iff.mp h
    cases k with
    | header => cases hplain.1
    | _ =>
      change (spreadEntries depth es >>= fun others => .ok ((_, w) :: others)) = _ at h
      obtain ⟨fs, hfs, h⟩ := bind_eq_ok_iff.mp h
      rw [← Except.ok.inj h, eq_of_spread v hplain.2.1 hw, eq_of_spreadEntries es hplain.2.2 hfs]
termination_by structural es => es

end

mutual

/-- What holds no header has none for a key. -/
theorem hasPlainKeys_of_isPlain : (v : Value) → v.isPlain = true → v.hasPlainKeys = true
  | .list xs, h => itemsHavePlainKeys_of_arePlain xs h
  | .map es, h => entriesHavePlainKeys_of_arePlain es h
  | .header _ _, h => by cases h
  | .null, _ | .bool _, _ | .int _, _ | .float _, _ | .str _, _ | .bytes _, _ | .language _, _ => rfl
termination_by structural v => v

theorem itemsHavePlainKeys_of_arePlain : (xs : List Value) → itemsArePlain xs = true →
    itemsHavePlainKeys xs = true
  | [], _ => rfl
  | x :: xs, h => by
    rw [itemsArePlain, Bool.and_eq_true] at h
    rw [itemsHavePlainKeys, hasPlainKeys_of_isPlain x h.1, itemsHavePlainKeys_of_arePlain xs h.2]
    rfl
termination_by structural xs => xs

theorem entriesHavePlainKeys_of_arePlain : (es : List (Value × Value)) →
    entriesArePlain es = true → entriesHavePlainKeys es = true
  | [], _ => rfl
  | (k, v) :: es, h => by
    rw [entriesArePlain, Bool.and_eq_true, Bool.and_eq_true] at h
    rw [entriesHavePlainKeys, h.1, hasPlainKeys_of_isPlain v h.2.1,
      entriesHavePlainKeys_of_arePlain es h.2.2]
    rfl
termination_by structural es => es

end

theorem itemsArePlain_eq (xs : List Value) : itemsArePlain xs = xs.all isPlain := by
  induction xs with
  | nil => rfl
  | cons x xs ih => rw [itemsArePlain, ih, List.all_cons]

theorem isPlain_ofFields {fields : List (Text × Value)}
    (h : ∀ f ∈ fields, f.2.isPlain = true) : (ofFields fields).isPlain = true := by
  rw [ofFields, isPlain]
  induction fields with
  | nil => rfl
  | cons f fields ih =>
    rw [List.forall_mem_cons] at h
    rw [List.map_cons, entriesArePlain, h.1, ih h.2]
    rfl

/-- Named values can be stored exactly if each of them can be spread out. -/
theorem exists_storedFields_iff {fields : List (Text × Value)} :
    (∃ entries, storedFields fields = .ok entries) ↔
      ∀ f ∈ fields, f.2.nesting ≤ storedDepth ∧ f.2.hasPlainKeys = true := by
  rw [storedFields, exists_mapM_eq_ok_iff]
  refine forall₂_congr fun f _ => ?_
  rw [← exists_spread_iff, exists_bind_eq_ok_iff]
  simp

/-- A named value is found by its name as it is stored. -/
theorem exists_field?_of_storedFields {fields : List (Text × Value)} {entries : List (Value × Value)}
    (h : storedFields fields = .ok entries) (name : Text) {v : Value}
    (hname : Assoc.get? name fields = some v) :
    ∃ w, v.spread storedDepth = .ok w ∧ field? name entries = some w := by
  induction fields generalizing entries with
  | nil => cases hname
  | cons f fields ih =>
    rw [storedFields, List.mapM_cons] at h
    obtain ⟨e, he, h⟩ := bind_eq_ok_iff.mp h
    obtain ⟨others, hothers, h⟩ := bind_eq_ok_iff.mp h
    obtain ⟨w, hw, he⟩ := bind_eq_ok_iff.mp he
    obtain rfl := Except.ok.inj he
    obtain rfl := Except.ok.inj h
    have hkey : (Value.str f.1 == Value.str name) = (f.1 == name) := rfl
    rw [field?, Assoc.get?, hkey]
    rw [Assoc.get?] at hname
    by_cases hf : (f.1 == name) = true
    · rw [if_pos hf] at hname ⊢
      exact ⟨w, Option.some.inj hname ▸ hw, rfl⟩
    · rw [if_neg hf] at hname ⊢
      exact ih hothers hname

/-- A named value without headers is found by its name as it is. -/
theorem field?_of_storedFields {fields : List (Text × Value)} {entries : List (Value × Value)}
    (h : storedFields fields = .ok entries) (name : Text) {v : Value}
    (hname : Assoc.get? name fields = some v) (hplain : v.isPlain = true) :
    field? name entries = some v := by
  obtain ⟨w, hspread, hfield⟩ := exists_field?_of_storedFields h name hname
  rwa [eq_of_spread v hplain hspread] at hfield

end Value

/-- A document holds no header. -/
theorem Json.IsDocument.isPlain {depth : Nat} {v : Value} (h : IsDocument depth v) :
    v.isPlain = true := by
  induction h with
  | list _ ih => rwa [Value.isPlain, Value.itemsArePlain_eq, List.all_eq_true]
  | map _ _ _ ih => exact Value.isPlain_ofFields ih
  | _ => rfl

/-- A document is spread out to itself. -/
theorem Json.IsDocument.spread {depth : Nat} {v : Value} (h : IsDocument depth v) :
    v.spread depth = .ok v := by
  have hkeys := Value.hasPlainKeys_of_isPlain v h.isPlain
  obtain ⟨w, hw⟩ := (Value.exists_spread_iff depth v).mpr ⟨h.nesting_le, hkeys⟩
  rw [hw, Value.eq_of_spread v h.isPlain hw]

/-- A document that is spread out nests no deeper than spreading out reaches. -/
theorem Json.IsDocument.of_spread {d depth : Nat} {v w : Value} (h : IsDocument d v)
    (hspread : v.spread depth = .ok w) : IsDocument depth v :=
  h.of_nesting_le ((Value.exists_spread_iff depth v).mp ⟨w, hspread⟩).1

/-- Named documents that do not nest too deep are stored as they are. -/
theorem storedFields_eq {fields : List (Text × Value)}
    (h : ∀ f ∈ fields, IsDocument Value.storedDepth f.2) :
    Value.storedFields fields = .ok (fields.map fun f => (.str f.1, f.2)) := by
  refine mapM_eq_ok fun f hf => ?_
  change (f.2.spread Value.storedDepth >>= fun stored => .ok (Value.str f.1, stored)) = _
  rw [(h f hf).spread, ok_bind]

/-- Named values of which one cannot be spread out cannot be stored. -/
theorem exists_storedFields_error {fields : List (Text × Value)} {f : Text × Value} (hf : f ∈ fields)
    {failure : Failure} (hspread : f.2.spread Value.storedDepth = .error failure) :
    ∃ failure', Value.storedFields fields = .error failure' := by
  have hstored : (f.2.spread Value.storedDepth >>= fun stored => .ok (Value.str f.1, stored)) =
      .error failure := by rw [hspread, error_bind]
  exact exists_error_of_mem hf hstored

/-- Named documents that are stored do not nest too deep. -/
theorem Json.IsDocument.of_storedFields {depth : Nat} {fields : List (Text × Value)}
    (h : ∀ f ∈ fields, IsDocument depth f.2) {stored : List (Value × Value)}
    (hstored : Value.storedFields fields = .ok stored) :
    ∀ f ∈ fields, IsDocument Value.storedDepth f.2 := by
  intro f hf
  exact (h f hf).of_nesting_le (Value.exists_storedFields_iff.mp ⟨stored, hstored⟩ f hf).1

/-! ## Lists in one another -/

/-- Lists in one another. -/
def nested : Nat → Value
  | 0 => .list []
  | n + 1 => .list [nested n]

theorem isDocument_nested (n : Nat) : IsDocument (n + 1) (nested n) := by
  induction n with
  | zero => exact .noItems
  | succ n ih => exact .list fun x hx => List.mem_singleton.mp hx ▸ ih

/-- Lists in one another that are too many cannot be stored. -/
theorem spread_nested {depth n : Nat} (h : depth ≤ n) :
    (nested n).spread depth = misused .valueTooDeep := by
  induction depth generalizing n with
  | zero => cases n <;> rfl
  | succ depth ih =>
    obtain ⟨n, rfl⟩ : ∃ k, n = k + 1 := ⟨n - 1, by omega⟩
    rw [nested, Value.spread, Value.spreadItems, ih (by omega)]
    rfl

end HttpWorkbench
