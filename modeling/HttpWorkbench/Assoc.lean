/-!
# Ordered dictionaries

A dictionary is a list of pairs in the order in which its keys were first put. Putting a key
that is there keeps its place and replaces the value.
-/

namespace HttpWorkbench.Assoc

variable {κ ν : Type} [BEq κ]

/-- The value at a key. -/
def get? (k : κ) : List (κ × ν) → Option ν
  | [] => none
  | (k', v) :: rest => if k' == k then some v else get? k rest

/-- Whether the key is there. -/
def contains (k : κ) (entries : List (κ × ν)) : Bool := entries.any fun e => e.1 == k

/-- Set the value at a key; a new key goes to the end. -/
def put (k : κ) (v : ν) : List (κ × ν) → List (κ × ν)
  | [] => [(k, v)]
  | (k', w) :: rest => if k' == k then (k', v) :: rest else (k', w) :: put k v rest

/-- Remove a key. -/
def erase (k : κ) (entries : List (κ × ν)) : List (κ × ν) := entries.filter fun e => !(e.1 == k)

/-- Put pairs one after the other. -/
def putAll (entries pairs : List (κ × ν)) : List (κ × ν) :=
  pairs.foldl (fun acc e => put e.1 e.2 acc) entries

/-- The dictionary of a list of pairs: each key where it first stood, with its last value. -/
def ofList (pairs : List (κ × ν)) : List (κ × ν) := putAll [] pairs

@[simp] theorem get?_put_self [LawfulBEq κ] (k : κ) (v : ν) (entries : List (κ × ν)) :
    get? k (put k v entries) = some v := by
  induction entries with
  | nil => simp [put, get?]
  | cons e rest ih =>
    obtain ⟨k', w⟩ := e
    by_cases h : (k' == k) = true <;> simp [put, get?, h, ih]

theorem get?_put_of_ne [LawfulBEq κ] {k l : κ} (h : k ≠ l) (v : ν) (entries : List (κ × ν)) :
    get? l (put k v entries) = get? l entries := by
  induction entries with
  | nil => simp [put, get?, h]
  | cons e rest ih =>
    obtain ⟨k', w⟩ := e
    by_cases hk : k' = k
    · subst hk; simp [put, get?, h]
    · simp [put, get?, hk, ih]

section Keys

variable {k l : κ} {v : ν} {entries : List (κ × ν)}

/-- A key that is there has a value, which is that of an entry. -/
theorem exists_get?_of_contains (h : contains k entries = true) :
    ∃ v, get? k entries = some v := by
  induction entries with
  | nil => cases h
  | cons e entries ih =>
    rw [contains, List.any_cons, Bool.or_eq_true] at h
    by_cases he : (e.1 == k) = true
    · exact ⟨e.2, by rw [get?, if_pos he]⟩
    · rw [get?, if_neg he]
      exact ih (h.resolve_left he)

theorem contains_of_get? (h : get? k entries = some v) : contains k entries = true := by
  induction entries with
  | nil => cases h
  | cons e entries ih =>
    rw [contains, List.any_cons, Bool.or_eq_true]
    by_cases he : (e.1 == k) = true
    · exact Or.inl he
    · rw [get?, if_neg he] at h
      exact Or.inr (ih h)

theorem exists_mem_of_get? (h : get? k entries = some v) : ∃ e ∈ entries, e.2 = v := by
  induction entries with
  | nil => cases h
  | cons e entries ih =>
    by_cases he : (e.1 == k) = true
    · rw [get?, if_pos he] at h
      exact ⟨e, List.mem_cons_self, Option.some.inj h⟩
    · rw [get?, if_neg he] at h
      obtain ⟨e', hmem, hv⟩ := ih h
      exact ⟨e', List.mem_cons_of_mem e hmem, hv⟩

/-- Setting a value takes no key away. -/
theorem contains_put (h : contains k entries = true) : contains k (put l v entries) = true := by
  induction entries with
  | nil => cases h
  | cons e entries ih =>
    rw [contains, List.any_cons, Bool.or_eq_true] at h
    by_cases he : (e.1 == l) = true
    · rw [put, if_pos he, contains, List.any_cons, Bool.or_eq_true]
      exact h
    · rw [put, if_neg he, contains, List.any_cons, Bool.or_eq_true]
      exact h.imp_right ih

/-- A key that is not among the first entries is set among the others. -/
theorem put_append_of_new {later : List (κ × ν)} (h : contains k entries = false) :
    put k v (entries ++ later) = entries ++ put k v later := by
  induction entries with
  | nil => rfl
  | cons e entries ih =>
    rw [contains, List.any_cons, Bool.or_eq_false_iff] at h
    rw [List.cons_append, put, if_neg (by simp [h.1]), ih h.2, List.cons_append]

/-- A new key goes to the end. -/
theorem put_of_not_contains (h : contains k entries = false) :
    put k v entries = entries ++ [(k, v)] := by
  have hput : put k v (entries ++ []) = entries ++ put k v [] := put_append_of_new h
  rw [List.append_nil] at hput
  exact hput

/-- Pairs whose keys are not among the first entries are put among the others. -/
theorem putAll_append_of_new {later pairs : List (κ × ν)}
    (h : ∀ p ∈ pairs, contains p.1 entries = false) :
    putAll (entries ++ later) pairs = entries ++ putAll later pairs := by
  induction pairs generalizing later with
  | nil => rfl
  | cons p pairs ih =>
    rw [List.forall_mem_cons] at h
    change putAll (put p.1 p.2 (entries ++ later)) pairs = _
    rw [put_append_of_new h.1, ih h.2]
    rfl

/-- Pairs with new keys, no two of them the same, go to the end in their order. -/
theorem putAll_of_distinct {pairs : List (κ × ν)}
    (hnew : ∀ e ∈ entries, ∀ p ∈ pairs, (e.1 == p.1) = false)
    (hpairs : pairs.Pairwise fun p q => (p.1 == q.1) = false) :
    putAll entries pairs = entries ++ pairs := by
  induction pairs generalizing entries with
  | nil => exact (List.append_nil entries).symm
  | cons p pairs ih =>
    have hcontains : contains p.1 entries = false := by
      rw [contains, List.any_eq_false]
      exact fun e he => by simp [hnew e he p List.mem_cons_self]
    change putAll (put p.1 p.2 entries) pairs = _
    rw [put_of_not_contains hcontains, ih _ hpairs.of_cons, List.append_assoc]
    · rfl
    · intro e he q hq
      rcases List.mem_append.mp he with he | he
      · exact hnew e he q (List.mem_cons_of_mem p hq)
      · rw [List.mem_singleton.mp he]
        exact List.rel_of_pairwise_cons hpairs hq

/-- Pairs with distinct keys are a dictionary as they are. -/
theorem ofList_of_distinct {pairs : List (κ × ν)}
    (hpairs : pairs.Pairwise fun p q => (p.1 == q.1) = false) : ofList pairs = pairs :=
  putAll_of_distinct nofun hpairs

theorem contains_erase_self : contains k (erase k entries) = false := by
  rw [contains, List.any_eq_false]
  intro e he
  simpa using (List.mem_filter.mp he).2

/-- Removing a key that is not there changes nothing. -/
theorem erase_of_not_contains (h : contains k entries = false) : erase k entries = entries := by
  refine List.filter_eq_self.mpr fun e he => ?_
  rw [contains, List.any_eq_false] at h
  simpa using h e he

/-- A value that is not dropped is still at its key. -/
theorem get?_filter_of_value (keep : ν → Bool) (h : get? k entries = some v)
    (hkeep : keep v = true) : get? k (entries.filter fun e => keep e.2) = some v := by
  induction entries with
  | nil => cases h
  | cons e entries ih =>
    by_cases he : (e.1 == k) = true
    · rw [get?, if_pos he] at h
      obtain rfl := Option.some.inj h
      rw [List.filter_cons_of_pos (by simpa using hkeep), get?, if_pos he]
    · rw [get?, if_neg he] at h
      rw [List.filter_cons]
      split
      · rw [get?, if_neg he, ih h]
      · exact ih h

/-- What is in a dictionary after a value was set was there before, or is that value at a key that is
the same. -/
theorem mem_put_of_beq {e : κ × ν} (h : e ∈ put k v entries) :
    e ∈ entries ∨ e.2 = v ∧ (e.1 = k ∨ (e.1 == k) = true) := by
  induction entries with
  | nil =>
    obtain rfl := List.mem_singleton.mp h
    exact Or.inr ⟨rfl, Or.inl rfl⟩
  | cons d entries ih =>
    by_cases hd : (d.1 == k) = true
    · rw [put, if_pos hd, List.mem_cons] at h
      rcases h with rfl | h
      · exact Or.inr ⟨rfl, Or.inr hd⟩
      · exact Or.inl (List.mem_cons_of_mem d h)
    · rw [put, if_neg hd, List.mem_cons] at h
      rcases h with rfl | h
      · exact Or.inl List.mem_cons_self
      · exact (ih h).imp_left (List.mem_cons_of_mem d)

/-- What is in a dictionary after pairs were put was there before, or is the value of a pair at a key
that is the same. -/
theorem mem_putAll_of_beq {pairs : List (κ × ν)} {e : κ × ν} (h : e ∈ putAll entries pairs) :
    e ∈ entries ∨ ∃ p ∈ pairs, e.2 = p.2 ∧ (e.1 = p.1 ∨ (e.1 == p.1) = true) := by
  induction pairs generalizing entries with
  | nil => exact Or.inl h
  | cons p pairs ih =>
    rcases @ih (put p.1 p.2 entries) h with h | ⟨q, hq, hsame⟩
    · exact (mem_put_of_beq h).imp_right fun hsame => ⟨p, List.mem_cons_self, hsame⟩
    · exact Or.inr ⟨q, List.mem_cons_of_mem p hq, hsame⟩

end Keys

section LawfulKeys

variable [LawfulBEq κ] {k l : κ} {v : ν} {entries : List (κ × ν)}

theorem contains_put_self : contains k (put k v entries) = true :=
  contains_of_get? (get?_put_self k v entries)

/-- What is in a dictionary after a value was set was there before, or is that value at its key. -/
theorem mem_put {e : κ × ν} (h : e ∈ put k v entries) : e ∈ entries ∨ e = (k, v) := by
  refine (mem_put_of_beq h).imp_right ?_
  rintro ⟨hvalue, hkey⟩
  exact Prod.ext (hkey.elim id eq_of_beq) hvalue

/-- What is in a dictionary after pairs were put was there before, or is one of them. -/
theorem mem_putAll {pairs : List (κ × ν)} {e : κ × ν} (h : e ∈ putAll entries pairs) :
    e ∈ entries ∨ e ∈ pairs := by
  refine (mem_putAll_of_beq h).imp_right ?_
  rintro ⟨p, hp, hvalue, hkey⟩
  have hpair : e = p := Prod.ext (hkey.elim id eq_of_beq) hvalue
  exact hpair ▸ hp

/-- The value at a key is that of an entry with this key. -/
theorem exists_mem_entry_of_get? (h : get? k entries = some v) :
    ∃ e ∈ entries, e.1 = k ∧ e.2 = v := by
  induction entries with
  | nil => cases h
  | cons e entries ih =>
    by_cases he : e.1 = k
    · rw [get?, if_pos (beq_iff_eq.mpr he)] at h
      exact ⟨e, List.mem_cons_self, he, Option.some.inj h⟩
    · rw [get?, if_neg (by simpa using he)] at h
      obtain ⟨e', hmem, hkey, hv⟩ := ih h
      exact ⟨e', List.mem_cons_of_mem e hmem, hkey, hv⟩

/-- An entry of a dictionary in which no key is there twice holds the value at its key. -/
theorem get?_of_mem (hnodup : (entries.map Prod.fst).Nodup) (h : (k, v) ∈ entries) :
    get? k entries = some v := by
  induction entries with
  | nil => cases h
  | cons e entries ih =>
    rw [List.map_cons, List.nodup_cons] at hnodup
    rcases List.mem_cons.mp h with rfl | h
    · rw [get?, if_pos (beq_self_eq_true k)]
    · have hne : e.1 ≠ k := fun he => hnodup.1 (he ▸ List.mem_map_of_mem h)
      rw [get?, if_neg (by simpa using hne), ih hnodup.2 h]

/-- Setting a value puts no key twice. -/
theorem nodup_put (h : (entries.map Prod.fst).Nodup) : ((put k v entries).map Prod.fst).Nodup := by
  induction entries with
  | nil => exact List.nodup_cons.mpr ⟨List.not_mem_nil, List.nodup_nil⟩
  | cons e entries ih =>
    rw [List.map_cons, List.nodup_cons] at h
    by_cases he : e.1 = k
    · rw [put, if_pos (beq_iff_eq.mpr he)]
      exact List.nodup_cons.mpr h
    · rw [put, if_neg (by simpa using he), List.map_cons]
      refine List.nodup_cons.mpr ⟨fun hmem => ?_, ih h.2⟩
      obtain ⟨e', he', hkey⟩ := List.mem_map.mp hmem
      rcases mem_put he' with he' | rfl
      · exact h.1 (hkey ▸ List.mem_map_of_mem he')
      · exact he hkey.symm

/-- Putting pairs puts no key twice. -/
theorem nodup_putAll (h : (entries.map Prod.fst).Nodup) (pairs : List (κ × ν)) :
    ((putAll entries pairs).map Prod.fst).Nodup := by
  induction pairs generalizing entries with
  | nil => exact h
  | cons p pairs ih => exact ih (nodup_put h)

/-- Pairs of which no key is there twice are a dictionary as they are. -/
theorem ofList_of_nodup {pairs : List (κ × ν)} (h : (pairs.map Prod.fst).Nodup) :
    ofList pairs = pairs := by
  have hpairwise : pairs.Pairwise fun p q => p.1 ≠ q.1 := List.pairwise_map.mp h
  exact ofList_of_distinct (hpairwise.imp fun hne => beq_eq_false_iff_ne.mpr hne)

/-- Removing a key does not touch the values of the others. -/
theorem get?_erase_of_ne (h : k ≠ l) : get? l (erase k entries) = get? l entries := by
  induction entries with
  | nil => rfl
  | cons e entries ih =>
    obtain ⟨k', w⟩ := e
    rw [erase] at ih ⊢
    by_cases hk : k' = k
    · subst hk
      rw [List.filter_cons_of_neg (by simp), ih, get?, if_neg (by simpa using h)]
    · rw [List.filter_cons_of_pos (by simpa using hk), get?, get?, ih]

/-- A key that was removed has no value. -/
theorem get?_erase_self (k : κ) (entries : List (κ × ν)) : get? k (erase k entries) = none := by
  induction entries with
  | nil => rfl
  | cons e entries ih =>
    rw [erase] at ih ⊢
    by_cases he : e.1 = k
    · rw [List.filter_cons_of_neg (by simpa using he), ih]
    · rw [List.filter_cons_of_pos (by simpa using he), get?, if_neg (by simpa using he), ih]

theorem contains_erase_of_ne (h : k ≠ l) (hl : contains l entries = true) :
    contains l (erase k entries) = true := by
  obtain ⟨v, hv⟩ := exists_get?_of_contains hl
  exact contains_of_get? ((get?_erase_of_ne h).trans hv)

/-- What is in a dictionary after a key was removed was there before, under another key. -/
theorem mem_erase {e : κ × ν} (h : e ∈ erase k entries) : e ∈ entries ∧ e.1 ≠ k := by
  rw [erase, List.mem_filter] at h
  exact ⟨h.1, by simpa using h.2⟩

/-- A key that no entry has has no value. -/
theorem get?_eq_none (h : k ∉ entries.map Prod.fst) : get? k entries = none := by
  rw [Option.eq_none_iff_forall_ne_some]
  intro v hv
  obtain ⟨e, he, rfl, -⟩ := exists_mem_entry_of_get? hv
  exact h (List.mem_map_of_mem he)

/-- Pairs with distinct keys give their values, and leave the others. -/
theorem get?_putAll {pairs : List (κ × ν)} (hpairs : (pairs.map Prod.fst).Nodup) :
    get? k (putAll entries pairs) = (get? k pairs).or (get? k entries) := by
  induction pairs generalizing entries with
  | nil => rfl
  | cons p pairs ih =>
    rw [List.map_cons, List.nodup_cons] at hpairs
    change get? k (putAll (put p.1 p.2 entries) pairs) = _
    rw [ih hpairs.2, get?]
    by_cases hp : p.1 = k
    · subst hp
      rw [get?_eq_none hpairs.1, get?_put_self, if_pos (beq_self_eq_true p.1)]
      rfl
    · rw [get?_put_of_ne hp, if_neg (by simpa using hp)]

/-- A value that is dropped can be put in place of one that is dropped. -/
theorem filter_put_of_value (keep : ν → Bool) (hnew : keep v = false)
    (hold : ∀ w, get? k entries = some w → keep w = false) :
    (put k v entries).filter (fun e => keep e.2) = entries.filter fun e => keep e.2 := by
  induction entries with
  | nil => rw [put, List.filter_cons_of_neg (by simp [hnew])]
  | cons e entries ih =>
    obtain ⟨k', w⟩ := e
    by_cases hk : k' = k
    · have hw : keep w = false := hold w (by rw [get?, if_pos (beq_iff_eq.mpr hk)])
      rw [put, if_pos (beq_iff_eq.mpr hk), List.filter_cons_of_neg (by simp [hnew]),
        List.filter_cons_of_neg (by simp [hw])]
    · have hne : ¬(k' == k) = true := by simpa using hk
      have hrest := ih fun w hw => hold w (by rw [get?, if_neg hne, hw])
      rw [put, if_neg hne, List.filter_cons, List.filter_cons, hrest]

/-- Dropping entries puts no key there. -/
theorem get?_filter_eq_none (h : get? k entries = none) (p : κ × ν → Bool) :
    get? k (entries.filter p) = none := by
  cases hget : get? k (entries.filter p) with
  | none => rfl
  | some w =>
    obtain ⟨e, he, rfl, rfl⟩ := exists_mem_entry_of_get? hget
    have hthere : contains e.1 entries = true :=
      List.any_eq_true.mpr ⟨e, (List.mem_filter.mp he).1, beq_self_eq_true e.1⟩
    obtain ⟨w, hw⟩ := exists_get?_of_contains hthere
    rw [hw] at h
    cases h

end LawfulKeys

end HttpWorkbench.Assoc
