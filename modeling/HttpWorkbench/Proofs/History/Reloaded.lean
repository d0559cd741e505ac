import HttpWorkbench.Proofs.History.Run
import HttpWorkbench.Proofs.Sending.StoredEntry
import Mathlib

/-!
# Histories that go on from a file

A history that is loaded has its entries back, but not the number of its last identifier. What is
added from then on has identifiers of its own, which can be those of loaded entries: an identifier
is there twice exactly where a number is drawn anew. Once a number has been drawn that is greater
than those of the loaded entries, this cannot happen any more, whatever the clock does.
-/

namespace HttpWorkbench.History

namespace Run

section Numbered

variable {entries older : List HistoryEntry} {numbers before : List Int}

/-- Entries in front of older ones, with greater numbers, are numbered together with them. -/
theorem Numbered.append (h : Numbered entries numbers) (holder : Numbered older before)
    (hgt : ∀ n ∈ numbers, ∀ m ∈ before, m < n) : Numbered (entries ++ older) (numbers ++ before) where
  ids := by rw [List.map_append, List.map_append, h.ids, holder.ids]
  decreasing := List.pairwise_append.mpr ⟨h.decreasing, holder.decreasing, hgt⟩
  positive n hn := (List.mem_append.mp hn).elim (h.positive n) (holder.positive n)

/-- A bound on the numbers in the identifiers of numbered entries is one on their numbers. -/
theorem Numbered.forall_lt (h : Numbered entries numbers) {now : Int}
    (hids : ∀ e ∈ entries, ∀ n, e.id = .str (identifier n) → n < now) : ∀ n ∈ numbers, n < now := by
  intro n hn
  have hid : Value.str (identifier n) ∈ entries.map HistoryEntry.id := by
    rw [h.ids]
    exact List.mem_map_of_mem (f := fun n => Value.str (identifier n)) hn
  obtain ⟨e, he, hid⟩ := List.mem_map.mp hid
  exact hids e he n hid

/-- Each of several numbered entries is found by its identifier. -/
theorem Numbered.find?_id (h : Numbered entries numbers) {e : HistoryEntry} (he : e ∈ entries) :
    (entries.find? fun e' => e'.id.isEqual e.id) = some e := by
  obtain ⟨before, after, rfl⟩ := List.append_of_mem he
  have hfirst := h.nodup
  rw [List.map_append, List.map_cons, List.nodup_append] at hfirst
  obtain ⟨-, -, hne⟩ := hfirst
  have hnamed (e' : HistoryEntry) (he' : e' ∈ before ++ e :: after) :
      ∃ n, e'.id = .str (identifier n) := by
    have hid := List.mem_map_of_mem (f := HistoryEntry.id) he'
    rw [h.ids] at hid
    obtain ⟨n, -, hn⟩ := List.mem_map.mp hid
    exact ⟨n, hn.symm⟩
  obtain ⟨n, hn⟩ := hnamed e he
  rw [List.find?_append, List.find?_eq_none.mpr, Option.none_or, List.find?_cons_of_pos]
  · simp [hn]
  · intro e' he' hsame
    obtain ⟨m, hm⟩ := hnamed e' (List.mem_append_left _ he')
    rw [hm, hn, Value.isEqual_str, beq_iff_eq] at hsame
    refine hne e'.id (List.mem_map_of_mem he') e.id List.mem_cons_self ?_
    rw [hm, hn, hsame]

end Numbered

/-- The run of a row of additions to a history, each at a clock reading of its own. -/
def adding (h : History) (additions : List (Int × List (Value × Value))) : Run :=
  additions.foldl (fun r a => r.step a.1 (.add a.2)) ⟨h, []⟩

/-- What holds while entries are added to a history that begins with some older ones. The new
entries stand in front of what is left of the older ones, and their numbers exceed a floor. -/
structure Resumed (older : List HistoryEntry) (floor : Int) (r : Run) : Prop where
  limited : ∃ limit : Int, r.history.limit = .int limit
  parts : ∃ recent left, r.history.entries = recent ++ left ∧ recent.Sublist r.added ∧
    left.Sublist older
  numbered : ∃ numbers, Numbered r.added numbers ∧
    ∀ n ∈ numbers, floor < n ∧ n ≤ r.history.lastNumber
  nonneg : 0 ≤ floor
  reached : floor ≤ r.history.lastNumber

/-- Before anything is added, the number of the last identifier is the floor. -/
theorem resumed_start {h : History} {limit : Int} (hlimit : h.limit = .int limit)
    (hnonneg : 0 ≤ h.lastNumber) : Resumed h.entries h.lastNumber ⟨h, []⟩ where
  limited := ⟨limit, hlimit⟩
  parts := ⟨[], h.entries, rfl, .slnil, .refl _⟩
  numbered := ⟨[], ⟨rfl, .nil, List.forall_mem_nil _⟩, List.forall_mem_nil _⟩
  nonneg := hnonneg
  reached := Int.le_refl _

variable {older : List HistoryEntry} {floor : Int} {r : Run}

/-- An addition keeps the entries apart like this, whether or not it succeeds. -/
theorem Resumed.add (hr : Resumed older floor r) (fields : List (Value × Value)) (now : Int) :
    Resumed older floor (r.step now (.add fields)) := by
  obtain ⟨limit, hlimit⟩ := hr.limited
  obtain ⟨numbers, hnumbers, hbounds⟩ := hr.numbered
  have hlt := r.history.lt_nextNumber now
  have hreached := hr.reached
  have hnonneg := hr.nonneg
  have hgt : ∀ n ∈ numbers, floor < n ∧ n < r.history.nextNumber now := fun n hn => by
    have hn := hbounds n hn
    omega
  rcases step_add_cases r fields now hlimit with hstep | hstep | ⟨e, hid, hstep⟩
  · rw [hstep]
    exact hr
  · rw [hstep]
    refine ⟨hr.limited, hr.parts, ⟨numbers, hnumbers, fun n hn => ?_⟩, hnonneg, ?_⟩
    · exact ⟨(hgt n hn).1, Int.le_of_lt (hgt n hn).2⟩
    · simp only
      omega
  · rw [hstep]
    obtain ⟨recent, left, hentries, hrecent, hleft⟩ := hr.parts
    have htogether := hnumbers.cons hid (fun n hn => (hgt n hn).2) (by omega)
    refine ⟨⟨limit, rfl⟩, ?_, ⟨_, htogether, ?_⟩, hnonneg, ?_⟩
    · rw [hentries, ← List.cons_append, List.take_append]
      exact ⟨_, _, rfl, (List.take_sublist _ _).trans (hrecent.cons_cons _),
        (List.take_sublist _ _).trans hleft⟩
    · exact List.forall_mem_cons.mpr
        ⟨⟨by omega, Int.le_refl _⟩, fun n hn => ⟨(hgt n hn).1, Int.le_of_lt (hgt n hn).2⟩⟩
    · simp only
      omega

/-- After every row of additions, the new entries are in front of what is left of those that the
history began with, with greater numbers than its last one. -/
theorem adding_resumed {h : History} {limit : Int} (hlimit : h.limit = .int limit)
    (hnonneg : 0 ≤ h.lastNumber) (additions : List (Int × List (Value × Value))) :
    Resumed h.entries h.lastNumber (adding h additions) := by
  suffices hall : ∀ r, Resumed h.entries h.lastNumber r →
      Resumed h.entries h.lastNumber (additions.foldl (fun r a => r.step a.1 (.add a.2)) r) from
    hall _ (resumed_start hlimit hnonneg)
  intro r hr
  induction additions generalizing r with
  | nil => exact hr
  | cons a additions ih => exact ih _ (hr.add a.2 a.1)

/-- An identifier is there twice exactly where a new entry has that of an older one. -/
theorem Resumed.nodup_iff (hr : Resumed older floor r) {numbers : List Int}
    (holder : Numbered older numbers) :
    ∃ recent left, r.history.entries = recent ++ left ∧ recent.Sublist r.added ∧
      left.Sublist older ∧ ((r.history.entries.map HistoryEntry.id).Nodup ↔
        ∀ e ∈ recent, ∀ e' ∈ left, e.id ≠ e'.id) := by
  obtain ⟨recent, left, hentries, hrecent, hleft⟩ := hr.parts
  obtain ⟨added, hadded, -⟩ := hr.numbered
  obtain ⟨_, hnew⟩ := hadded.of_sublist (hrecent.map _)
  obtain ⟨_, hold⟩ := holder.of_sublist (hleft.map _)
  refine ⟨recent, left, hentries, hrecent, hleft, ?_⟩
  rw [hentries, List.map_append, List.nodup_append]
  constructor
  · rintro ⟨-, -, hne⟩ e he e' he'
    exact hne _ (List.mem_map_of_mem he) _ (List.mem_map_of_mem he')
  · intro hne
    refine ⟨hnew.nodup, hold.nodup, ?_⟩
    rintro _ hid _ hid'
    obtain ⟨e, he, rfl⟩ := List.mem_map.mp hid
    obtain ⟨e', he', rfl⟩ := List.mem_map.mp hid'
    exact hne e he e' he'

/-- Above the numbers of the older entries, the entries are numbered all together. -/
theorem Resumed.exists_numbered (hr : Resumed older floor r) {numbers : List Int}
    (holder : Numbered older numbers) (hfloor : ∀ n ∈ numbers, n ≤ floor) :
    ∃ all, Numbered r.history.entries all := by
  obtain ⟨recent, left, hentries, hrecent, hleft⟩ := hr.parts
  obtain ⟨added, hadded, hbounds⟩ := hr.numbered
  have hall : Numbered (r.added ++ older) (added ++ numbers) := by
    refine hadded.append holder fun n hn m hm => ?_
    have hn := hbounds n hn
    have hm := hfloor m hm
    omega
  rw [hentries]
  exact hall.of_sublist ((hrecent.append hleft).map _)

/-- The last number does not matter for an addition that draws its number from the clock. -/
theorem adding_cons_of_nextNumber {h : History} {last now : Int} {fields given : List (Value × Value)}
    (hgiven : givenFields fields = .ok given)
    (hnumber : ({ h with lastNumber := last } : History).nextNumber now = h.nextNumber now)
    (rest : List (Int × List (Value × Value))) :
    adding h ((now, fields) :: rest) =
      adding { h with lastNumber := last } ((now, fields) :: rest) := by
  have hadd : ({ h with lastNumber := last } : History).add fields now = h.add fields now := by
    simp only [add, hgiven, hnumber]
  have hstep : step ⟨{ h with lastNumber := last }, []⟩ now (.add fields) =
      step ⟨h, []⟩ now (.add fields) := by
    rw [step, step, hadd]
  rw [adding, adding, List.foldl_cons, List.foldl_cons, hstep]

/-- If the first number is drawn at a clock reading after those of all older entries, the entries
stay numbered all together, whatever the clock does from then on. -/
theorem exists_numbered_adding {h : History} {limit : Int} (hlimit : h.limit = .int limit)
    (hlast : h.lastNumber = 0) {numbers : List Int} (holder : Numbered h.entries numbers) {now : Int}
    {fields given : List (Value × Value)} (hgiven : givenFields fields = .ok given)
    (hlater : ∀ n ∈ numbers, n < now) (rest : List (Int × List (Value × Value))) :
    ∃ all, Numbered (adding h ((now, fields) :: rest)).history.entries all := by
  -- The history might as well have drawn every number before the reading.
  have hnumber : ({ h with lastNumber := max 0 (now - 1) } : History).nextNumber now =
      h.nextNumber now := by
    rw [nextNumber, nextNumber, hlast]
    split <;> split <;> simp only at * <;> omega
  rw [adding_cons_of_nextNumber hgiven hnumber]
  have hresumed := adding_resumed (h := { h with lastNumber := max 0 (now - 1) }) hlimit
    (Int.le_max_left ..) ((now, fields) :: rest)
  refine hresumed.exists_numbered holder fun n hn => ?_
  have hn := hlater n hn
  simp only
  omega

end Run

/-- What was saved is loaded again, cut to a limit. Entries that are added to it have identifiers of
their own and stand in front of what is left of the loaded ones, so that an identifier is there
twice exactly where a new entry has that of a loaded one. If the first number is drawn at a clock
reading after those of all loaded entries, every entry has an identifier of its own and is found by
it, whatever the clock does from then on. -/
theorem ids_after_loading {files : Files} {path : Path} {key : FileKey}
    (hreaches : files.Reaches path key) (limit : Int) (steps : List (Int × Operation))
    (hentries : ∀ e ∈ (Run.ofSteps limit steps).history.entries, e.Storable) (cut : Int) :
    ∃ saved loaded, (Run.ofSteps limit steps).history.save files path = (saved, .ok ()) ∧
      History.load saved path (.int cut) = .ok loaded ∧
      loaded.entries = (Run.ofSteps limit steps).history.entries.take
        (keptCount cut (Run.ofSteps limit steps).history.entries.length) ∧
      ∀ additions, ((Run.adding loaded additions).added.map HistoryEntry.id).Nodup ∧
        (∃ recent left, (Run.adding loaded additions).history.entries = recent ++ left ∧
          recent.Sublist (Run.adding loaded additions).added ∧ left.Sublist loaded.entries ∧
          (((Run.adding loaded additions).history.entries.map HistoryEntry.id).Nodup ↔
            ∀ e ∈ recent, ∀ e' ∈ left, e.id ≠ e'.id)) ∧
        ∀ now fields given rest, additions = (now, fields) :: rest → givenFields fields = .ok given →
          (∀ e ∈ loaded.entries, ∀ n, e.id = .str (identifier n) → n < now) →
          ((Run.adding loaded additions).history.entries.map HistoryEntry.id).Nodup ∧
            ∀ e ∈ (Run.adding loaded additions).history.entries,
              (Run.adding loaded additions).history.get? e.id = some e := by
  have hrun := Run.ofSteps_invariant limit steps
  obtain ⟨all, hall, -⟩ := hrun.numbered
  have hload := (save_isIn hreaches hentries).2.load_int cut
  rw [save_eq hreaches hentries] at hload
  refine ⟨_, _, save_eq hreaches hentries, hload, rfl, fun additions => ?_⟩
  generalize hcut : (Run.ofSteps limit steps).history.entries.take _ = entries
  obtain ⟨numbers, hloaded⟩ : ∃ numbers, Run.Numbered entries numbers := by
    rw [← hcut]
    exact hall.of_sublist (((List.take_sublist _ _).map HistoryEntry.id).trans hrun.ids_sublist)
  have hresumed := Run.adding_resumed (h := ⟨entries, .int cut, 0⟩) rfl (Int.le_refl 0) additions
  obtain ⟨added, hadded, -⟩ := hresumed.numbered
  refine ⟨hadded.nodup, hresumed.nodup_iff hloaded, ?_⟩
  rintro now fields given rest rfl hgiven hlater
  obtain ⟨together, htogether⟩ := Run.exists_numbered_adding (h := ⟨entries, .int cut, 0⟩) rfl rfl
    hloaded hgiven (hloaded.forall_lt hlater) rest
  exact ⟨htogether.nodup, fun e he => htogether.find?_id he⟩

/-- The fields of a request that is recorded without an outcome. -/
def bareFields (url : Text) : List (Value × Value) :=
  [(.str "method", .str "GET"), (.str "url", .str url)]

/-- The entry of such a request, with a number and at a clock reading. -/
def bareEntry (url : Text) (n now : Int) : HistoryEntry where
  id := .str (identifier n)
  method := .str "GET"
  url := .str url
  timestamp := .str (timestamp now)
  headers := .list []
  body := .null
  status := .null
  statusText := .null
  responseTime := .null
  responseBody := .null
  responseHeaders := .map []
  tags := .list []
  error := .null

theorem storable_bareEntry {url : Text} (hurl : Json.IsClean url) (n now : Int) :
    (bareEntry url n now).Storable := by
  simp only [HistoryEntry.Storable, HistoryEntry.fields, bareEntry, List.forall_mem_cons]
  exact ⟨isDocument_text (isClean_identifier n), .str (by decide), isDocument_text hurl,
    isDocument_text (isClean_timestamp now), .noItems, .null, .null, .null, .null, .null, .noFields,
    .noItems, .null, List.forall_mem_nil _⟩

/-- A history with one entry. -/
def bareRun : Run := .ofSteps 50 [(1704067200000, .add (bareFields "https://x"))]

theorem entries_bareRun :
    bareRun.history.entries = [bareEntry "https://x" 1704067200000 1704067200000] := by
  rfl

theorem storable_bareRun : ∀ e ∈ bareRun.history.entries, e.Storable := by
  rw [entries_bareRun, List.forall_mem_singleton]
  exact storable_bareEntry (by decide) _ _

theorem reaches_empty : Files.empty.Reaches (.ofText "h.json") ["h.json"] := ⟨by cbv, .inl (by cbv)⟩

/-- After one addition at a later reading, the clock may go back to that of the loaded entry. -/
theorem ids_after_loading_later :
    ∃ saved loaded, bareRun.history.save .empty (.ofText "h.json") = (saved, .ok ()) ∧
      History.load saved (.ofText "h.json") (.int 50) = .ok loaded ∧
      ((Run.adding loaded [(1704067200001, bareFields "https://y"),
        (1704067200000, bareFields "https://z")]).history.entries.map HistoryEntry.id).Nodup := by
  obtain ⟨saved, loaded, hsave, hload, hentries, hadding⟩ := ids_after_loading reaches_empty 50
    [(1704067200000, .add (bareFields "https://x"))] storable_bareRun 50
  obtain ⟨-, -, hlater⟩ := hadding
    [(1704067200001, bareFields "https://y"), (1704067200000, bareFields "https://z")]
  refine ⟨saved, loaded, hsave, hload, (hlater _ _ _ _ rfl rfl ?_).1⟩
  intro e he n hn
  have hone : loaded.entries = [bareEntry "https://x" 1704067200000 1704067200000] := hentries
  rw [hone, List.mem_singleton] at he
  rw [he] at hn
  have hnumber := identifier_injective (Value.str.inj hn)
  omega

/-- An entry that is added after loading can get the identifier of a loaded one, at the same clock
reading, and is found in its place. -/
theorem loading_repeats_id :
    ∃ saved loaded, bareRun.history.save .empty (.ofText "h.json") = (saved, .ok ()) ∧
      History.load saved (.ofText "h.json") (.int 50) = .ok loaded ∧
      (Run.adding loaded [(1704067200000, bareFields "https://y")]).history.entries =
        [bareEntry "https://y" 1704067200000 1704067200000,
          bareEntry "https://x" 1704067200000 1704067200000] ∧
      ¬((Run.adding loaded [(1704067200000, bareFields "https://y")]).history.entries.map
        HistoryEntry.id).Nodup ∧
      (Run.adding loaded [(1704067200000, bareFields "https://y")]).history.get?
          (bareEntry "https://x" 1704067200000 1704067200000).id =
        some (bareEntry "https://y" 1704067200000 1704067200000) := by
  have hload := (save_isIn reaches_empty storable_bareRun).2.load_int 50
  rw [save_eq reaches_empty storable_bareRun, entries_bareRun] at hload
  refine ⟨_, _, save_eq reaches_empty storable_bareRun, hload, rfl, ?_, ?_⟩
  · intro hnodup
    exact (List.nodup_cons.mp hnodup).1 List.mem_cons_self
  · have hsame : (bareEntry "https://y" 1704067200000 1704067200000).id.isEqual
        (bareEntry "https://x" 1704067200000 1704067200000).id = true := beq_self_eq_true _
    exact List.find?_cons_of_pos hsame

end HttpWorkbench.History
