import HttpWorkbench.Proofs.Json.DistinctKeys
import HttpWorkbench.Proofs.Value.Same

/-!
# Dictionaries over one another

What is found in a dictionary over which others were put: of a name, the value of the last one that has
it. Keys of any kind can be told apart from names, and putting a dictionary that was itself put together
is putting its parts one after the other.
-/

namespace HttpWorkbench

namespace Assoc

variable {κ ν : Type} [BEq κ] {k l : κ} {v w : ν} {entries pairs : List (κ × ν)}

/-- Only the key itself is the same as the key. -/
def IsExact (k : κ) : Prop := ∀ l, ((l == k) = true ↔ l = k) ∧ ((k == l) = true ↔ l = k)

theorem put_put_of_isExact (hk : IsExact k) (w : ν) (entries : List (κ × ν)) :
    put k v (put k w entries) = put k v entries := by
  have hself : (k == k) = true := (hk k).1.mpr rfl
  induction entries with
  | nil => simp [put, hself]
  | cons e entries ih => by_cases he : (e.1 == k) = true <;> simp [put, he, ih]

/-- A key that is there can be set before or after another one. -/
theorem put_comm (hk : IsExact k) (hne : (k == l) = false) (hthere : contains k entries = true) :
    put k v (put l w entries) = put l w (put k v entries) := by
  induction entries with
  | nil => cases hthere
  | cons e entries ih =>
    obtain ⟨k', u⟩ := e
    by_cases hkey : (k' == k) = true
    · obtain rfl := (hk k').1.mp hkey
      simp [put, hne, hkey]
    · have hrest : contains k entries = true := by simpa [contains, hkey] using hthere
      by_cases hother : (k' == l) = true <;> simp [put, hkey, hother, ih hrest]

theorem putAll_put_comm (hk : IsExact k) (hne : ∀ p ∈ pairs, (k == p.1) = false)
    (hthere : contains k entries = true) :
    putAll (put k v entries) pairs = put k v (putAll entries pairs) := by
  induction pairs generalizing entries with
  | nil => rfl
  | cons p pairs ih =>
    rw [List.forall_mem_cons] at hne
    change putAll (put p.1 p.2 (put k v entries)) pairs = put k v (putAll (put p.1 p.2 entries) pairs)
    rw [← put_comm hk hne.1 hthere, ih hne.2 (contains_put hthere)]

theorem contains_put_self_of_isExact (hk : IsExact k) : contains k (put k v entries) = true := by
  have hself : (k == k) = true := (hk k).1.mpr rfl
  induction entries with
  | nil => simp [put, contains, hself]
  | cons e entries ih =>
    rw [contains] at ih ⊢
    by_cases he : (e.1 == k) = true <;> simp [put, he, ih]

/-- Setting one key puts no other one there. -/
theorem contains_put_of_new (hne : (l == k) = false) (hnew : contains k entries = false) :
    contains k (put l v entries) = false := by
  have hkeys (entries : List (κ × ν)) : contains k entries = (entries.map Prod.fst).any (· == k) := by
    rw [List.any_map]
    rfl
  rw [hkeys] at hnew ⊢
  rw [keys_put]
  split
  · exact hnew
  · rw [List.any_append, hnew, List.any_cons, hne]
    rfl

/-- A key that can be told apart from all others, or is none of the pairs, can be set before or after
the pairs are put. -/
theorem putAll_put (hk : IsExact k ∨ contains k pairs = false) (hpairs : HasDistinctKeys pairs)
    (entries : List (κ × ν)) : putAll entries (put k v pairs) = put k v (putAll entries pairs) := by
  rcases hk with hk | hnew
  · induction pairs generalizing entries with
    | nil => rfl
    | cons p pairs ih =>
      rw [HasDistinctKeys, List.map_cons, List.pairwise_cons, List.forall_mem_map] at hpairs
      by_cases hp : (p.1 == k) = true
      · obtain rfl := (hk p.1).1.mp hp
        rw [put, if_pos hp]
        change putAll (put p.1 v entries) pairs = put p.1 v (putAll (put p.1 p.2 entries) pairs)
        rw [← putAll_put_comm hk hpairs.1 (contains_put_self_of_isExact hk), put_put_of_isExact hk]
      · rw [put, if_neg hp]
        exact ih hpairs.2 (put p.1 p.2 entries)
  · rw [put_of_not_contains hnew, putAll, List.foldl_append]
    rfl

/-- Putting a dictionary that was put over another one is putting the two one after the other. -/
theorem putAll_putAll {lower upper : List (κ × ν)} (hlower : HasDistinctKeys lower)
    (hupper : HasDistinctKeys upper)
    (hkeys : ∀ p ∈ upper, IsExact p.1 ∨ contains p.1 lower = false) (entries : List (κ × ν)) :
    putAll entries (putAll lower upper) = putAll (putAll entries lower) upper := by
  induction upper generalizing lower with
  | nil => rfl
  | cons p upper ih =>
    rw [HasDistinctKeys, List.map_cons, List.pairwise_cons, List.forall_mem_map] at hupper
    rw [List.forall_mem_cons] at hkeys
    change putAll entries (putAll (put p.1 p.2 lower) upper) =
      putAll (put p.1 p.2 (putAll entries lower)) upper
    rw [ih (hlower.put p.1 p.2) hupper.2, putAll_put hkeys.1 hlower]
    exact fun q hq => (hkeys.2 q hq).imp_right (contains_put_of_new (hupper.1 q hq))

/-- Putting pairs leaves the keys that were there in their places. -/
theorem keys_isPrefix_putAll (entries pairs : List (κ × ν)) :
    entries.map Prod.fst <+: (putAll entries pairs).map Prod.fst := by
  induction pairs generalizing entries with
  | nil => exact List.prefix_rfl
  | cons p pairs ih =>
    have hput : entries.map Prod.fst <+: (put p.1 p.2 entries).map Prod.fst := by
      rw [keys_put]
      split
      · exact List.prefix_rfl
      · exact List.prefix_append _ _
    exact hput.trans (ih (put p.1 p.2 entries))

/-- A key that is put is there, if not itself then as one that is the same. -/
theorem exists_key_of_mem_putAll {p : κ × ν} (hp : p ∈ pairs) (entries : List (κ × ν)) :
    ∃ key ∈ (putAll entries pairs).map Prod.fst, key = p.1 ∨ (key == p.1) = true := by
  induction pairs generalizing entries with
  | nil => cases hp
  | cons q pairs ih =>
    rcases List.mem_cons.mp hp with rfl | hp
    · have hthere : ∃ key ∈ (put p.1 p.2 entries).map Prod.fst, key = p.1 ∨ (key == p.1) = true := by
        rw [keys_put]
        split
        · rename_i hcontains
          obtain ⟨e, he, hsame⟩ := List.any_eq_true.mp hcontains
          exact ⟨e.1, List.mem_map_of_mem he, .inr hsame⟩
        · exact ⟨p.1, List.mem_append_right _ (List.mem_singleton_self p.1), .inl rfl⟩
      obtain ⟨key, hkey, hsame⟩ := hthere
      exact ⟨key, (keys_isPrefix_putAll _ pairs).subset hkey, hsame⟩
    · exact ih hp (put q.1 q.2 entries)

/-- Nothing is taken away by putting pairs. -/
theorem putAll_eq_nil_iff : putAll entries pairs = [] ↔ entries = [] ∧ pairs = [] := by
  constructor
  · intro h
    have hkeys : (putAll entries pairs).map Prod.fst = [] := by rw [h, List.map_nil]
    refine ⟨?_, ?_⟩
    · have hfront := keys_isPrefix_putAll entries pairs
      rw [hkeys, List.prefix_nil] at hfront
      exact List.map_eq_nil_iff.mp hfront
    · refine List.eq_nil_iff_forall_not_mem.mpr fun p hp => ?_
      obtain ⟨key, hkey, -⟩ := exists_key_of_mem_putAll hp entries
      rw [hkeys] at hkey
      cases hkey
  · rintro ⟨rfl, rfl⟩
    rfl

/-- Keys can be renamed and values changed before or after pairs are put, when the new names are told
apart as the old ones. -/
theorem putAll_map {κ' ν' : Type} [BEq κ'] {g : κ → κ'} (hg : ∀ a b, (g a == g b) = (a == b))
    (f : ν → ν') (entries pairs : List (κ × ν)) :
    putAll (entries.map fun e => (g e.1, f e.2)) (pairs.map fun e => (g e.1, f e.2)) =
      (putAll entries pairs).map fun e => (g e.1, f e.2) := by
  have hput (k : κ) (v : ν) (entries : List (κ × ν)) :
      put (g k) (f v) (entries.map fun e => (g e.1, f e.2)) =
        (put k v entries).map fun e => (g e.1, f e.2) := by
    induction entries with
    | nil => rfl
    | cons e entries ih =>
      by_cases he : (e.1 == k) = true
      · rw [List.map_cons, put, put, if_pos ((hg e.1 k).trans he), if_pos he, List.map_cons]
      · rw [List.map_cons, put, put, if_neg (by rwa [hg]), if_neg he, List.map_cons, ih]
  induction pairs generalizing entries with
  | nil => rfl
  | cons p pairs ih =>
    change putAll (put (g p.1) (f p.2) _) _ = (putAll (put p.1 p.2 entries) pairs).map _
    rw [hput, ih]

section Filtered

/-- Keys that are the same are kept or dropped together. -/
def Respects (keep : κ → Bool) : Prop := ∀ a b, (a == b) = true → keep a = keep b

theorem respects_of_lawful [LawfulBEq κ] (keep : κ → Bool) : Respects keep :=
  fun _ _ hsame => congrArg keep (eq_of_beq hsame)

variable {keep : κ → Bool} (hkeep : Respects keep)
include hkeep

/-- Dropping other keys does not touch the value at a key. -/
theorem get?_filter (h : keep k = true) :
    get? k (entries.filter fun e => keep e.1) = get? k entries := by
  induction entries with
  | nil => rfl
  | cons e entries ih =>
    by_cases he : keep e.1 = true
    · rw [List.filter_cons_of_pos (by simpa using he), get?, get?, ih]
    · have hne : ¬(e.1 == k) = true := fun hsame => he ((hkeep e.1 k hsame).trans h)
      rw [List.filter_cons_of_neg (by simpa using he), ih, get?, if_neg hne]

/-- Keys can be dropped before or after a value is set. -/
theorem filter_put : (put k v entries).filter (fun e => keep e.1) =
    if keep k then put k v (entries.filter fun e => keep e.1)
    else entries.filter fun e => keep e.1 := by
  induction entries with
  | nil => cases hk : keep k <;> simp [put, hk]
  | cons e entries ih =>
    obtain ⟨k', w⟩ := e
    by_cases he : (k' == k) = true
    · have hsame := hkeep k' k he
      cases hk : keep k <;> simp [put, he, hsame, hk]
    · cases hk : keep k <;> cases hk' : keep k' <;> simp_all [put]

/-- Keys can be dropped before or after pairs are put. -/
theorem filter_putAll (pairs : List (κ × ν)) : (putAll entries pairs).filter (fun e => keep e.1) =
    putAll (entries.filter fun e => keep e.1) (pairs.filter fun e => keep e.1) := by
  induction pairs generalizing entries with
  | nil => rfl
  | cons p pairs ih =>
    change (putAll (put p.1 p.2 entries) pairs).filter _ = _
    rw [ih, filter_put hkeep]
    by_cases hp : keep p.1 = true
    · rw [if_pos hp, List.filter_cons_of_pos (by simpa using hp)]
      rfl
    · rw [if_neg hp, List.filter_cons_of_neg (by simpa using hp)]

end Filtered

end Assoc

namespace Value

variable {name other : Text} {v : Value} {entries : List (Value × Value)}

/-- A text is the same as no other key. -/
theorem isExact_str (name : Text) : Assoc.IsExact (Value.str name) := by
  have hself : (Value.str name == Value.str name) = true := beq_self_eq_true name
  refine fun w => ⟨⟨eq_str_of_same, ?_⟩, eq_str_of_str_same, ?_⟩
  all_goals
    rintro rfl
    exact hself

theorem field?_put_self : field? name (Assoc.put (.str name) v entries) = some v := by
  have hself : (Value.str name == Value.str name) = true := beq_self_eq_true name
  unfold field?
  induction entries with
  | nil => simp [Assoc.put, Assoc.get?, hself]
  | cons e entries ih =>
    by_cases he : (e.1 == Value.str name) = true
    · simp [Assoc.put, Assoc.get?, he]
    · simp [Assoc.put, Assoc.get?, he, ih]

/-- Only a text is the same as a text, so that setting one name leaves the others. -/
theorem field?_put_of_ne {key : Value} (h : key ≠ .str name) :
    field? name (Assoc.put key v entries) = field? name entries := by
  have hne : (key == Value.str name) = false := by
    rw [Bool.eq_false_iff]
    exact fun hsame => h (eq_str_of_same hsame)
  unfold field?
  induction entries with
  | nil => simp [Assoc.put, Assoc.get?, hne]
  | cons e entries ih =>
    by_cases he : (e.1 == key) = true
    · have hkey : (e.1 == Value.str name) = false := by
        rw [Bool.eq_false_iff]
        intro hsame
        rw [eq_str_of_same hsame] at he
        exact h (eq_str_of_str_same he)
      simp [Assoc.put, Assoc.get?, he, hkey]
    · simp [Assoc.put, Assoc.get?, he, ih]

theorem fieldOr_put_self (default : Value) :
    fieldOr name (Assoc.put (.str name) v entries) default = v := by
  rw [fieldOr, field?_put_self, Option.getD_some]

theorem fieldOr_put_of_ne (h : other ≠ name) (default : Value) :
    fieldOr name (Assoc.put (.str other) v entries) default = fieldOr name entries default := by
  rw [fieldOr, field?_put_of_ne (by simpa using h), fieldOr]

/-- Under a name is the value of the dictionary that was put last and has the name. -/
theorem field?_putAll {pairs : List (Value × Value)} (hpairs : Assoc.HasDistinctKeys pairs)
    (name : Text) :
    field? name (Assoc.putAll entries pairs) = (field? name pairs).or (field? name entries) := by
  induction pairs generalizing entries with
  | nil => rfl
  | cons p pairs ih =>
    rw [Assoc.HasDistinctKeys, List.map_cons, List.pairwise_cons, List.forall_mem_map] at hpairs
    change field? name (Assoc.putAll (Assoc.put p.1 p.2 entries) pairs) = _
    rw [ih hpairs.2]
    by_cases hp : p.1 = .str name
    · have hnone : field? name pairs = none := by
        rw [field?, Option.eq_none_iff_forall_ne_some]
        intro v hv
        obtain ⟨e, he, hsame⟩ := List.any_eq_true.mp (Assoc.contains_of_get? hv)
        have hne := hpairs.1 e he
        rw [hp, eq_str_of_same hsame, ← Bool.not_eq_true] at hne
        exact hne (beq_self_eq_true name)
      have hfirst : field? name (p :: pairs) = some p.2 := by
        rw [field?, Assoc.get?, if_pos ((isExact_str name p.1).1.mpr hp)]
      rw [hnone, hfirst, hp, field?_put_self]
      rfl
    · have hrest : field? name (p :: pairs) = field? name pairs := by
        rw [field?, Assoc.get?, if_neg (mt (isExact_str name p.1).1.mp hp), field?]
      rw [hrest, field?_put_of_ne hp]

end Value

end HttpWorkbench
