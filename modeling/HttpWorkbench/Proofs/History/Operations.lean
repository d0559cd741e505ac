import HttpWorkbench.History.Store
import HttpWorkbench.Proofs.Result

/-!
# What the operations on a history do

One statement for each operation on a history whose limit is an integer. Trimming keeps the newest
entries, a new limit is refused when it is negative, and adding an entry ends in one of three ways:
refused before a number is drawn, refused after it, or recorded at the front.
-/

namespace HttpWorkbench

/-- The arguments of a record are the entries of its table, by name. -/
theorem RecordShape.eq_map_of_arguments {shape : RecordShape} {entries : List (Value × Value)}
    {args : List (Text × Value)} (h : shape.arguments entries = .ok args) :
    entries = args.map fun e => (.str e.1, e.2) := by
  rw [arguments, bind_eq_ok_iff] at h
  obtain ⟨named, hnamed, h⟩ := h
  have hargs : named = args := by
    split at h
    · cases h
    · split at h
      · exact Except.ok.inj h
      · cases h
  rw [← hargs]
  refine eq_map_of_mapM_eq_ok ?_ hnamed
  rintro ⟨k, v⟩ ⟨s, w⟩ hread
  cases k <;> cases hread
  rfl

/-- The entry without its tags. -/
def HistoryEntry.untagged (e : HistoryEntry) : HistoryEntry := { e with tags := .null }

namespace History

/-- How many of the newest entries trimming keeps. -/
def keptCount (limit : Int) (length : Nat) : Nat :=
  if limit < 0 then (length + limit).toNat else limit.toNat

/-- Trimming cuts the entries to the limit and cannot fail. -/
theorem trim_int (h : History) {limit : Int} (hlimit : h.limit = .int limit) :
    h.trim = ({ h with entries := h.entries.take (keptCount limit h.entries.length) }, .ok ()) := by
  rw [trim, hlimit, Value.isGreater_int]
  by_cases hover : limit < h.entries.length
  · rw [decide_eq_true hover]
    rfl
  · have hkept : h.entries.take (keptCount limit h.entries.length) = h.entries := by
      rw [keptCount, if_neg (by omega)]
      exact List.take_of_length_le (by omega)
    rw [decide_eq_false hover, hkept, ← hlimit]

/-- A limit that is not negative is taken over, and the entries are cut to it. -/
theorem setLimit_of_nonneg (h : History) {limit : Int} (hlimit : 0 ≤ limit) :
    h.setLimit (.int limit) =
      ({ h with limit := .int limit, entries := h.entries.take limit.toNat }, .ok ()) := by
  have hkept : keptCount limit h.entries.length = limit.toNat := if_neg (by omega)
  rw [setLimit, Value.isLess_int, decide_eq_false (by omega)]
  change ({ h with limit := .int limit } : History).trim = _
  rw [trim_int { h with limit := .int limit } rfl, hkept]

/-- A negative limit is refused. -/
theorem setLimit_of_neg (h : History) {limit : Int} (hlimit : limit < 0) :
    h.setLimit (.int limit) = (h, misused (.negativeLimit (Value.int limit).text)) := by
  rw [setLimit, Value.isLess_int, decide_eq_true hlimit]

/-- Every number that is drawn is greater than the one before. -/
theorem lt_nextNumber (h : History) (now : Int) : h.lastNumber < h.nextNumber now := by
  rw [nextNumber]
  split <;> omega

/-- Identifiers tell their numbers apart. -/
theorem identifier_injective {m n : Int} (h : identifier m = identifier n) : m = n :=
  intText_injective (List.append_cancel_left h)

/-- The fields that the history assigns to an entry itself. -/
def assignedFields (n now : Int) : List (Value × Value) :=
  [(.str "id", .str (identifier n)), (.str "timestamp", .str (timestamp now))]

/-- Adding an entry is refused before a number is drawn, is refused after it, or records the entry
in front of the others and trims. -/
theorem add_cases (h : History) (fields : List (Value × Value)) (now : Int) {limit : Int}
    (hlimit : h.limit = .int limit) :
    (∃ failure, givenFields fields = .error failure ∧ h.add fields now = (h, .error failure)) ∨
    (∃ given failure, givenFields fields = .ok given ∧
      HistoryEntry.shape.arguments (assignedFields (h.nextNumber now) now ++ given) =
        .error failure ∧
      h.add fields now = ({ h with lastNumber := h.nextNumber now }, .error failure)) ∨
    (∃ given args, givenFields fields = .ok given ∧
      HistoryEntry.shape.arguments (assignedFields (h.nextNumber now) now ++ given) = .ok args ∧
      h.add fields now =
        ({ entries := (HistoryEntry.ofArguments args :: h.entries).take
            (keptCount limit (h.entries.length + 1))
           limit := .int limit
           lastNumber := h.nextNumber now }, .ok (HistoryEntry.ofArguments args))) := by
  cases hgiven : givenFields fields with
  | error failure => exact .inl ⟨failure, rfl, by rw [add, hgiven]⟩
  | ok given =>
    cases hargs : HistoryEntry.shape.arguments
        (assignedFields (h.nextNumber now) now ++ given) with
    | error failure =>
      refine .inr (.inl ⟨given, failure, rfl, hargs, ?_⟩)
      simp only [assignedFields] at hargs
      simp only [add, hgiven, hargs]
    | ok args =>
      refine .inr (.inr ⟨given, args, rfl, hargs, ?_⟩)
      simp only [assignedFields] at hargs
      have htrim := trim_int (⟨HistoryEntry.ofArguments args :: h.entries, .int limit,
        h.nextNumber now⟩ : History) rfl
      simp only [List.length_cons] at htrim
      simp only [add, hgiven, hargs, hlimit, htrim]
      rfl

/-- A recorded entry has the identifier and the timestamp that the history assigns. -/
theorem assigned_of_arguments {n now : Int} {given : List (Value × Value)}
    {args : List (Text × Value)}
    (h : HistoryEntry.shape.arguments (assignedFields n now ++ given) = .ok args) :
    (HistoryEntry.ofArguments args).id = .str (identifier n) ∧
      (HistoryEntry.ofArguments args).timestamp = .str (timestamp now) := by
  have hentries := RecordShape.eq_map_of_arguments h
  cases args with
  | nil => exact absurd hentries (by simp [assignedFields])
  | cons a args =>
    cases args with
    | nil => exact absurd hentries (by simp [assignedFields])
    | cons b args =>
      obtain ⟨name, v⟩ := a
      obtain ⟨name', v'⟩ := b
      simp only [assignedFields, List.cons_append, List.map_cons, List.cons.injEq, Prod.mk.injEq,
        Value.str.injEq] at hentries
      obtain ⟨⟨rfl, rfl⟩, ⟨rfl, rfl⟩, -⟩ := hentries
      exact ⟨rfl, rfl⟩

/-- Dropping an entry between two rows leaves a part of all of them. -/
theorem dropEqual_sublist (found : HistoryEntry) (later earlier : List HistoryEntry) :
    (dropEqual found later earlier).Sublist (earlier ++ found :: later) := by
  induction earlier with
  | nil => exact List.sublist_cons_self found later
  | cons e earlier ih =>
    rw [dropEqual]
    split
    · exact List.sublist_cons_self e _
    · exact ih.cons_cons e

/-- Removing leaves a part of the entries, in their order, and the rest of the history as it is. -/
theorem exists_remove (h : History) (id : Value) :
    ∃ left, left.Sublist h.entries ∧ (h.remove id).2 = { h with entries := left } := by
  rw [remove]
  split
  · exact ⟨h.entries, List.Sublist.refl _, rfl⟩
  · rename_i found later hfound
    refine ⟨_, ?_, rfl⟩
    have hsplit := List.takeWhile_append_dropWhile (p := fun e => !e.id.isEqual id) (l := h.entries)
    rw [hfound] at hsplit
    have hpart := dropEqual_sublist found later (h.entries.takeWhile fun e => !e.id.isEqual id)
    rw [hsplit] at hpart
    exact hpart

/-- A change of the first entry that passes a test, if it alters nothing but tags, leaves the
entries as they were up to their tags. -/
theorem map_untagged_modifyFirst {test : HistoryEntry → Bool}
    {change : HistoryEntry → Result HistoryEntry}
    (hchange : ∀ e e', change e = .ok e' → e'.untagged = e.untagged)
    {entries entries' : List HistoryEntry} (h : modifyFirst test change entries = .ok entries') :
    entries'.map HistoryEntry.untagged = entries.map HistoryEntry.untagged := by
  induction entries generalizing entries' with
  | nil => cases h; rfl
  | cons e rest ih =>
    rw [modifyFirst] at h
    split at h
    · cases he : change e with
      | error failure => rw [he] at h; cases h
      | ok e' =>
        rw [he] at h
        cases h
        rw [List.map_cons, List.map_cons, hchange e e' he]
    · cases hrest : modifyFirst test change rest with
      | error failure => rw [hrest] at h; cases h
      | ok rest' =>
        rw [hrest] at h
        cases h
        rw [List.map_cons, List.map_cons, ih hrest]

/-- Putting a tag on an entry changes nothing but its tags. -/
theorem untagged_of_tag {h h' : History} {id tag : Value} (htag : h.tag id tag = .ok h') :
    h'.entries.map HistoryEntry.untagged = h.entries.map HistoryEntry.untagged ∧
      h'.limit = h.limit ∧ h'.lastNumber = h.lastNumber := by
  rw [History.tag, bind_eq_ok_iff] at htag
  obtain ⟨entries, hentries, htag⟩ := htag
  obtain rfl : { h with entries } = h' := Except.ok.inj htag
  refine ⟨map_untagged_modifyFirst ?_ hentries, rfl, rfl⟩
  intro e e' he
  rw [bind_eq_ok_iff] at he
  obtain ⟨has, -, he⟩ := he
  split at he
  · rw [Except.ok.inj he]
  · split at he
    · obtain rfl := Except.ok.inj he
      rfl
    · cases he

/-- Taking a tag off an entry changes nothing but its tags. -/
theorem untagged_of_untag {h h' : History} {id tag : Value} (htag : h.untag id tag = .ok h') :
    h'.entries.map HistoryEntry.untagged = h.entries.map HistoryEntry.untagged ∧
      h'.limit = h.limit ∧ h'.lastNumber = h.lastNumber := by
  rw [History.untag, bind_eq_ok_iff] at htag
  obtain ⟨entries, hentries, htag⟩ := htag
  obtain rfl : { h with entries } = h' := Except.ok.inj htag
  refine ⟨map_untagged_modifyFirst ?_ hentries, rfl, rfl⟩
  intro e e' he
  rw [bind_eq_ok_iff] at he
  obtain ⟨tags, -, he⟩ := he
  obtain rfl := Except.ok.inj he
  rfl

end History

end HttpWorkbench
