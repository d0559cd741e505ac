import HttpWorkbench.Proofs.Json.RoundTrip
import HttpWorkbench.Proofs.Value.Same
import HttpWorkbench.Value.Access

/-!
# Documents that are the same

A document is the same as itself. The keys of its objects are texts, so the parts that it is read as,
as the rows of a table for instance, are parts that nest less.
-/

namespace HttpWorkbench

open Json (IsDocument)

theorem Value.find?_same_str {fields : List (Text × Value)} (hdistinct : (fields.map Prod.fst).Nodup)
    {f : Text × Value} (hf : f ∈ fields) :
    (fields.map fun e => (Value.str e.1, e.2)).find? (fun e => (Value.str f.1).same e.1) =
      some (.str f.1, f.2) := by
  induction fields with
  | nil => cases hf
  | cons g fields ih =>
    rw [List.map_cons, List.nodup_cons] at hdistinct
    rw [List.map_cons]
    rcases List.mem_cons.mp hf with rfl | hf
    · exact List.find?_cons_of_pos (beq_self_eq_true f.1)
    · have hne : f.1 ≠ g.1 := fun h => hdistinct.1 (h ▸ List.mem_map_of_mem hf)
      rw [List.find?_cons_of_neg]
      · exact ih hdistinct.2 hf
      · exact fun h => hne (eq_of_beq h)

theorem Value.sameItems_self {xs : List Value} (h : ∀ x ∈ xs, x.same x = true) :
    Value.sameItems xs xs = true := by
  induction xs with
  | nil => rfl
  | cons x xs ih =>
    rw [List.forall_mem_cons] at h
    rw [sameItems, h.1, ih h.2]
    rfl

theorem Value.sameEntries_of_find? {es fs : List (Value × Value)}
    (h : ∀ e ∈ es, ∃ f, fs.find? (fun f => e.1.same f.1) = some f ∧ e.2.same f.2 = true) :
    Value.sameEntries es fs = true := by
  induction es with
  | nil => rfl
  | cons e es ih =>
    rw [List.forall_mem_cons] at h
    obtain ⟨⟨f, hfind, hsame⟩, hothers⟩ := h
    rw [sameEntries, ih hothers, hfind]
    simp only [hsame, Bool.and_self]

/-- A document is the same as itself. -/
theorem Json.IsDocument.same_self {depth : Nat} {v : Value} (h : IsDocument depth v) :
    v.same v = true := by
  induction h with
  | null => rfl
  | bool | int => exact beq_self_eq_true _
  | float => exact Binary64.same_self _
  | str => exact beq_self_eq_true _
  | list _ ih => exact Value.sameItems_self ih
  | map hdistinct _ _ ih =>
    rw [Value.ofFields, Value.same, Bool.and_eq_true]
    refine ⟨beq_self_eq_true _, Value.sameEntries_of_find? fun e he => ?_⟩
    obtain ⟨f, hf, rfl⟩ := List.mem_map.mp he
    exact ⟨_, Value.find?_same_str hdistinct hf, ih f hf⟩

/-- The parts of an object that is a document. -/
theorem Json.IsDocument.exists_of_ofFields {d : Nat} {fields : List (Text × Value)}
    (h : IsDocument d (.ofFields fields)) :
    ∃ depth, d = depth + 1 ∧ (fields.map Prod.fst).Nodup ∧
      (∀ f ∈ fields, ∀ c ∈ f.1, c.isHalf = false) ∧ ∀ f ∈ fields, IsDocument depth f.2 := by
  generalize hv : Value.ofFields fields = v at h
  cases h with
  | map hdistinct hnames hvalues =>
    have hinjective : Function.Injective fun e : Text × Value => (Value.str e.1, e.2) := by
      intro e f hef
      rw [Prod.mk.injEq, Value.str.injEq] at hef
      exact Prod.ext hef.1 hef.2
    obtain rfl := List.map_injective_iff.mpr hinjective (Value.map.inj hv)
    exact ⟨_, rfl, hdistinct, hnames, hvalues⟩
  | _ => cases hv

/-- Keys of documents are texts, so an item of a document nests no deeper than the document. -/
theorem Json.IsDocument.nesting_le_of_items? {depth : Nat} {v : Value} (h : IsDocument depth v)
    {items : List Value} (hitems : v.items? = some items) {x : Value} (hx : x ∈ items) :
    x.nesting ≤ v.nesting := by
  cases h with
  | str =>
    obtain rfl := Option.some.inj hitems
    obtain ⟨c, -, rfl⟩ := List.mem_map.mp hx
    exact Nat.zero_le _
  | list =>
    obtain rfl := Option.some.inj hitems
    exact (Value.nesting_le_of_mem_items hx).trans (Nat.le_succ _)
  | map =>
    obtain rfl := Option.some.inj hitems
    obtain ⟨e, he, rfl⟩ := List.mem_map.mp hx
    obtain ⟨f, -, rfl⟩ := List.mem_map.mp he
    exact Nat.zero_le _
  | _ => cases hitems

/-- The value of a pair that is read from rows nests no deeper than its row. -/
theorem Value.nesting_le_of_pairsFrom {depth : Nat} {rows : List Value}
    (hrows : ∀ row ∈ rows, IsDocument depth row) {index : Nat} {pairs : List (Value × Value)}
    (h : Value.pairsFrom index rows = .ok pairs) :
    ∀ p ∈ pairs, ∃ row ∈ rows, p.2.nesting ≤ row.nesting := by
  induction rows generalizing index pairs with
  | nil =>
    obtain rfl := Except.ok.inj h
    nofun
  | cons row rows ih =>
    rw [List.forall_mem_cons] at hrows
    rw [Value.pairsFrom] at h
    split at h
    · cases h
    · rename_i key value hitems
      obtain ⟨key', -, h⟩ := bind_eq_ok_iff.mp h
      obtain ⟨more, hmore, h⟩ := bind_eq_ok_iff.mp h
      obtain rfl := Except.ok.inj h
      intro p hp
      rcases List.mem_cons.mp hp with rfl | hp
      · exact ⟨row, List.mem_cons_self, hrows.1.nesting_le_of_items? hitems (by simp)⟩
      · obtain ⟨row', hrow', hle⟩ := ih hrows.2 hmore p hp
        exact ⟨row', List.mem_cons_of_mem row hrow', hle⟩
    · cases h

/-- The values of the table that a document stands for nest less than the document. -/
theorem Json.IsDocument.nesting_lt_of_toDictionary {depth : Nat} {v : Value} (h : IsDocument depth v)
    {table : List (Value × Value)} (htable : (v.orElse (.map [])).toDictionary = .ok table)
    {e : Value × Value} (he : e ∈ table) : e.2.nesting < v.nesting := by
  have htrue : v.isTrue = true := by
    by_contra hfalse
    rw [Value.orElse, if_neg hfalse] at htable
    obtain rfl := Except.ok.inj htable
    cases he
  rw [Value.orElse, if_pos htrue] at htable
  cases h with
  | str =>
    rename_i s hs
    cases s with
    | nil => cases htrue
    | cons c s => cases htable
  | @list depth xs hxs =>
    obtain ⟨rows, hrows, htable⟩ := bind_eq_ok_iff.mp htable
    obtain rfl := Except.ok.inj hrows
    obtain ⟨pairs, hpairs, htable⟩ := bind_eq_ok_iff.mp htable
    obtain rfl := Except.ok.inj htable
    rcases Assoc.mem_putAll_of_beq he with he | ⟨p, hp, hvalue, -⟩
    · cases he
    · obtain ⟨row, hrow, hle⟩ := Value.nesting_le_of_pairsFrom hxs hpairs p hp
      rw [hvalue]
      exact Nat.lt_succ_of_le (hle.trans (Value.nesting_le_of_mem_items hrow))
  | map =>
    obtain rfl := Except.ok.inj htable
    exact Nat.lt_succ_of_le (Value.nesting_le_of_mem_entries he)
  | _ => cases htable

theorem Value.nestingOfItems_le {n : Nat} {xs : List Value} (h : ∀ x ∈ xs, x.nesting ≤ n) :
    Value.nestingOfItems xs ≤ n := by
  induction xs with
  | nil => exact Nat.zero_le n
  | cons x xs ih =>
    rw [List.forall_mem_cons] at h
    exact Nat.max_le.mpr ⟨h.1, ih h.2⟩

theorem Value.nestingOfEntries_le {n : Nat} {es : List (Value × Value)}
    (h : ∀ e ∈ es, e.2.nesting ≤ n) : Value.nestingOfEntries es ≤ n := by
  induction es with
  | nil => exact Nat.zero_le n
  | cons e es ih =>
    rw [List.forall_mem_cons] at h
    exact Nat.max_le.mpr ⟨h.1, ih h.2⟩

/-- A document nests no deeper than it may. -/
theorem Json.IsDocument.nesting_le {depth : Nat} {v : Value} (h : IsDocument depth v) :
    v.nesting ≤ depth := by
  induction h with
  | list _ ih => exact Nat.succ_le_succ (Value.nestingOfItems_le ih)
  | map _ _ _ ih =>
    apply Nat.succ_le_succ
    apply Value.nestingOfEntries_le
    simp only [List.forall_mem_map]
    exact ih
  | _ => exact Nat.zero_le _

/-- A document may nest as deep as it does. -/
theorem Json.IsDocument.of_nesting_le {depth n : Nat} {v : Value} (h : IsDocument depth v)
    (hn : v.nesting ≤ n) : IsDocument n v := by
  induction h generalizing n with
  | null => exact .null
  | bool => exact .bool
  | int h => exact .int h
  | float h => exact .float h
  | str h => exact .str h
  | list _ ih =>
    rw [Value.nesting] at hn
    obtain ⟨k, rfl⟩ : ∃ k, n = k + 1 := ⟨n - 1, by omega⟩
    refine .list fun x hx => ih x hx ?_
    exact (Value.nesting_le_of_mem_items hx).trans (Nat.le_of_succ_le_succ hn)
  | @map _ fields hdistinct hnames _ ih =>
    rw [Value.ofFields, Value.nesting] at hn
    obtain ⟨k, rfl⟩ : ∃ k, n = k + 1 := ⟨n - 1, by omega⟩
    refine .map hdistinct hnames fun f hf => ih f hf ?_
    have hmem : (Value.str f.1, f.2) ∈ fields.map fun e => (Value.str e.1, e.2) :=
      List.mem_map.mpr ⟨f, hf, rfl⟩
    exact (Value.nesting_le_of_mem_entries hmem).trans (Nat.le_of_succ_le_succ hn)

end HttpWorkbench
