import HttpWorkbench.Proofs.History.Reloaded

/-!
# Limits that histories are loaded with

A history is loaded with a limit that nothing has checked. One that is not negative is how many of
the first entries in the file are kept, and no operation leads beyond it or beyond a later limit. A
negative limit counts from the end of the file, so that entries are left exactly where the file has
more than the limit counts, and then there are more of them than the limit allows.
-/

namespace HttpWorkbench.History

/-- The entries are no more than the limit, and there are none when it is negative. -/
def WithinLimit (h : History) : Prop :=
  ∃ limit : Int, h.limit = .int limit ∧ (h.entries.length : Int) ≤ max 0 limit

/-- Every operation keeps the entries within the limit. -/
theorem WithinLimit.step {r : Run} (hr : r.history.WithinLimit) (now : Int) (operation : Operation) :
    (r.step now operation).history.WithinLimit := by
  obtain ⟨limit, hlimit, hwithin⟩ := hr
  rcases r.step_limit_cases now operation hlimit with
    ⟨hstep, hlength⟩ | ⟨hstep, hlength⟩ | ⟨later, -, hstep, hlength⟩
  · refine ⟨limit, hstep, ?_⟩
    omega
  · -- A negative limit leaves nothing of a single entry.
    refine ⟨limit, hstep, ?_⟩
    rw [keptCount] at hlength
    split at hlength <;> omega
  · exact ⟨later, hstep, le_max_of_le_right hlength⟩

/-- The run of a row of operations on a history. -/
def Run.ofHistory (h : History) (steps : List (Int × Operation)) : Run :=
  steps.foldl (fun r s => r.step s.1 s.2) ⟨h, []⟩

/-- A history within its limit stays there in every run. -/
theorem WithinLimit.run {h : History} (hh : h.WithinLimit) (steps : List (Int × Operation)) :
    (Run.ofHistory h steps).history.WithinLimit :=
  Run.foldl_induction (p := fun r => r.history.WithinLimit) (fun _ now operation hr =>
    hr.step now operation) ⟨h, []⟩ hh steps

/-- What trimming leaves is within the limit unless a negative limit counts less than there is. -/
theorem min_keptCount_eq_iff (limit : Int) (length : Nat) :
    min (keptCount limit length) length = min length (max 0 limit).toNat ↔
      0 ≤ limit ∨ (length : Int) ≤ -limit := by
  rw [keptCount]
  split <;> omega

section Loaded

variable {files : Files} {path : Path} {items : List Value} {entries : List HistoryEntry}

/-- A history is loaded from a list of entries whatever the limit is, and has the first of them, as
many as trimming keeps. These are as many as the limit allows, none for a negative one, and the
history is within its limit after every row of operations, exactly where the limit is not negative
or the list has no more entries than a negative limit counts. -/
theorem load_within_limit_iff
    (hread : files.readDocument path (documentFailures path) = .ok (.list items))
    (hitems : items.mapM HistoryEntry.ofValue = .ok entries) (limit : Int) :
    ∃ h, load files path (.int limit) = .ok h ∧
      h.entries = entries.take (keptCount limit entries.length) ∧
      ((h.entries = entries.take (min entries.length (max 0 limit).toNat) ∧
        ∀ steps, ∃ current : Int, (Run.ofHistory h steps).history.limit = .int current ∧
          ((Run.ofHistory h steps).history.entries.length : Int) ≤ max 0 current) ↔
        0 ≤ limit ∨ (entries.length : Int) ≤ -limit) := by
  refine ⟨_, load_of_readDocument hread hitems limit, rfl, ?_⟩
  rw [← min_keptCount_eq_iff]
  constructor
  · rintro ⟨hentries, -⟩
    have hlength := congrArg List.length hentries
    rw [List.length_take, List.length_take] at hlength
    omega
  · intro hkept
    have hentries : entries.take (keptCount limit entries.length) =
        entries.take (min entries.length (max 0 limit).toNat) := by
      rw [← hkept, ← List.take_take, List.take_length]
    refine ⟨hentries, fun steps => WithinLimit.run ⟨limit, rfl, ?_⟩ steps⟩
    rw [hentries, List.length_take]
    omega

/-- Two entries of a file, newest first. -/
def twoEntries : List HistoryEntry := [bareEntry "https://y" 2 2, bareEntry "https://x" 1 1]

theorem exists_twoEntries_file : ∃ (files : Files) (items : List Value),
    files.readDocument (.ofText "h.json") (documentFailures (.ofText "h.json")) = .ok (.list items) ∧
      items.mapM HistoryEntry.ofValue = .ok twoEntries := by
  have hstorable : ∀ e ∈ twoEntries, e.Storable := by
    rw [twoEntries, List.forall_mem_cons, List.forall_mem_singleton]
    exact ⟨storable_bareEntry (by decide) 2 2, storable_bareEntry (by decide) 1 1⟩
  have hsaved := save_isIn (h := ⟨twoEntries, .int 50, 0⟩) reaches_empty hstorable
  exact ⟨_, _, hsaved.1, mapM_map_eq_ok HistoryEntry.ofValue_document twoEntries⟩

/-- A limit that counts two from the end leaves nothing of two entries, and nothing can be added. -/
theorem load_within_limit_iff_counted_off :
    ∃ (files : Files) (h : History), load files (.ofText "h.json") (.int (-2)) = .ok h ∧
      h.entries = twoEntries.take (min 2 (max 0 (-2 : Int)).toNat) ∧
      ∀ steps, ∃ current : Int, (Run.ofHistory h steps).history.limit = .int current ∧
        ((Run.ofHistory h steps).history.entries.length : Int) ≤ max 0 current := by
  obtain ⟨files, items, hread, hitems⟩ := exists_twoEntries_file
  obtain ⟨h, hload, -, hiff⟩ := load_within_limit_iff hread hitems (-2)
  exact ⟨files, h, hload, hiff.mpr (.inr (by decide))⟩

/-- A limit that counts one from the end leaves the first of two entries, which is more than it
allows. -/
theorem load_keeps_beyond_negative_limit :
    ∃ (files : Files) (items : List Value) (h : History),
      files.readDocument (.ofText "h.json") (documentFailures (.ofText "h.json")) =
        .ok (.list items) ∧
      items.mapM HistoryEntry.ofValue = .ok twoEntries ∧
      load files (.ofText "h.json") (.int (-1)) = .ok h ∧
      h.entries = [bareEntry "https://y" 2 2] ∧
      h.entries ≠ twoEntries.take (min twoEntries.length (max 0 (-1 : Int)).toNat) ∧
      max 0 (-1 : Int) < h.entries.length := by
  obtain ⟨files, items, hread, hitems⟩ := exists_twoEntries_file
  exact ⟨files, items, _, hread, hitems, load_of_readDocument hread hitems (-1), rfl, nofun,
    by decide⟩

end Loaded

end HttpWorkbench.History
