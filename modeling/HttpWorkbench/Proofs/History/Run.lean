import HttpWorkbench.Proofs.History.Operations
import Mathlib.Data.List.Nodup

/-!
# Runs of a history

A history that starts empty goes through any row of operations, each at a clock reading of its own.
The run remembers every entry that was added. What is in the history is always a part of that, in
the same order, within the limit, and no identifier is given twice, whatever the clock does and
however entries are dropped in between.
-/

namespace HttpWorkbench.History

/-- An operation on a history. -/
inductive Operation where
  | add (fields : List (Value × Value))
  | remove (id : Value)
  | clear
  | setLimit (limit : Int)
  | tag (id tag : Value)
  | untag (id tag : Value)
  | search (query : Value)
  | find (id : Value)
  | sort

/-- A history, and every entry that was ever added to it, newest first. -/
structure Run where
  history : History
  added : List HistoryEntry

namespace Run

/-- A new history with a limit. -/
def start (limit : Int) : Run := ⟨History.new (.int limit), []⟩

/-- The run with an operation at a clock reading. An operation that fails leaves what it had changed
up to there; searching, finding and sorting change nothing. -/
def step (r : Run) (now : Int) : Operation → Run
  | .add fields =>
    match r.history.add fields now with
    | (h, .ok entry) => ⟨h, entry :: r.added⟩
    | (h, .error _) => ⟨h, r.added⟩
  | .remove id => ⟨(r.history.remove id).2, r.added⟩
  | .clear => ⟨r.history.clear, r.added⟩
  | .setLimit limit => ⟨(r.history.setLimit (.int limit)).1, r.added⟩
  | .tag id tag => ⟨(r.history.tag id tag).toOption.getD r.history, r.added⟩
  | .untag id tag => ⟨(r.history.untag id tag).toOption.getD r.history, r.added⟩
  | .search _ | .find _ | .sort => r

/-- The run of a row of operations on a new history. -/
def ofSteps (limit : Int) (steps : List (Int × Operation)) : Run :=
  steps.foldl (fun r s => r.step s.1 s.2) (start limit)

/-- The entries carry the identifiers with these numbers, which are positive and decrease strictly. -/
structure Numbered (entries : List HistoryEntry) (numbers : List Int) : Prop where
  ids : entries.map HistoryEntry.id = numbers.map fun n => .str (identifier n)
  decreasing : numbers.Pairwise (· > ·)
  positive : ∀ n ∈ numbers, 0 < n

/-- What holds all along a run. The last number bounds those of the entries that were added, so that
the next one differs from all of them, also when none of these entries is left. -/
structure Invariant (r : Run) : Prop where
  bounded : ∃ limit : Int, r.history.limit = .int limit ∧
    (r.history.entries.length : Int) ≤ max 0 limit
  kept : (r.history.entries.map HistoryEntry.untagged).Sublist (r.added.map HistoryEntry.untagged)
  numbered : ∃ numbers, Numbered r.added numbers ∧ ∀ n ∈ numbers, n ≤ r.history.lastNumber
  nonneg : 0 ≤ r.history.lastNumber

theorem start_invariant (limit : Int) : (start limit).Invariant where
  bounded := ⟨limit, rfl, Int.le_max_left 0 limit⟩
  kept := List.nil_sublist _
  numbered := ⟨[], ⟨rfl, List.Pairwise.nil, by simp⟩, by simp⟩
  nonneg := Int.le_refl 0

/-- A history with entries dropped at most, up to their tags, and nothing else changed. -/
structure Dropped (h h' : History) : Prop where
  limit : h'.limit = h.limit
  lastNumber : h'.lastNumber = h.lastNumber
  entries : (h'.entries.map HistoryEntry.untagged).Sublist (h.entries.map HistoryEntry.untagged)

theorem Dropped.refl (h : History) : Dropped h h := ⟨rfl, rfl, .refl _⟩

theorem Dropped.length_le {h h' : History} (hdropped : Dropped h h') :
    h'.entries.length ≤ h.entries.length := by
  have hle := hdropped.entries.length_le
  rwa [List.length_map, List.length_map] at hle

/-- An operation on tags is taken over when it succeeds, and then changes nothing but tags. -/
theorem dropped_getD {h : History} {result : Result History}
    (hresult : ∀ h', result = .ok h' →
      h'.entries.map HistoryEntry.untagged = h.entries.map HistoryEntry.untagged ∧
        h'.limit = h.limit ∧ h'.lastNumber = h.lastNumber) :
    Dropped h (result.toOption.getD h) := by
  cases result with
  | error failure => exact .refl h
  | ok h' =>
    obtain ⟨hentries, hlimit, hlast⟩ := hresult h' rfl
    exact ⟨hlimit, hlast, hentries ▸ .refl _⟩

/-- An operation that drops entries at most, or changes their tags, keeps the invariant. -/
theorem Invariant.of_dropped {r : Run} (hr : r.Invariant) {h : History}
    (hdropped : Dropped r.history h) : (⟨h, r.added⟩ : Run).Invariant where
  bounded := by
    obtain ⟨limit, hint, hlength⟩ := hr.bounded
    have hle := hdropped.length_le
    refine ⟨limit, hdropped.limit.trans hint, ?_⟩
    change (h.entries.length : Int) ≤ max 0 limit
    omega
  kept := hdropped.entries.trans hr.kept
  numbered := by rw [hdropped.lastNumber]; exact hr.numbered
  nonneg := by rw [hdropped.lastNumber]; exact hr.nonneg

/-- A number that is drawn and lost keeps the invariant. -/
theorem Invariant.of_drawn {r : Run} (hr : r.Invariant) (now : Int) :
    (⟨{ r.history with lastNumber := r.history.nextNumber now }, r.added⟩ : Run).Invariant where
  bounded := hr.bounded
  kept := hr.kept
  numbered := by
    obtain ⟨numbers, hnumbers, hle⟩ := hr.numbered
    have hlt := r.history.lt_nextNumber now
    refine ⟨numbers, hnumbers, fun n hn => ?_⟩
    have hn := hle n hn
    simp only
    omega
  nonneg := by
    have hlt := r.history.lt_nextNumber now
    have hnonneg := hr.nonneg
    simp only
    omega

/-- Trimming to a limit leaves at most that many entries, if there was one too many at most. -/
theorem length_take_keptCount {limit : Int} {length : Nat} {entries : List HistoryEntry}
    (hentries : entries.length = length + 1) (hlength : (length : Int) ≤ max 0 limit) :
    ((entries.take (keptCount limit (length + 1))).length : Int) ≤ max 0 limit := by
  rw [List.length_take, hentries, keptCount]
  split <;> omega

/-- An entry with a greater number can be put in front of numbered entries. -/
theorem Numbered.cons {entries : List HistoryEntry} {numbers : List Int} (h : Numbered entries numbers)
    {e : HistoryEntry} {n : Int} (hid : e.id = .str (identifier n)) (hgt : ∀ m ∈ numbers, m < n)
    (hpositive : 0 < n) : Numbered (e :: entries) (n :: numbers) where
  ids := by rw [List.map_cons, List.map_cons, h.ids, hid]
  decreasing := List.pairwise_cons.mpr ⟨hgt, h.decreasing⟩
  positive := List.forall_mem_cons.mpr ⟨hpositive, h.positive⟩

/-- An addition changes nothing, draws a number in vain, or records an entry with the number that it
draws. -/
theorem step_add_cases (r : Run) (fields : List (Value × Value)) (now : Int) {limit : Int}
    (hlimit : r.history.limit = .int limit) :
    r.step now (.add fields) = r ∨
    r.step now (.add fields) =
      ⟨{ r.history with lastNumber := r.history.nextNumber now }, r.added⟩ ∨
    ∃ e, e.id = .str (identifier (r.history.nextNumber now)) ∧
      r.step now (.add fields) =
        ⟨⟨(e :: r.history.entries).take (keptCount limit (r.history.entries.length + 1)), .int limit,
          r.history.nextNumber now⟩, e :: r.added⟩ := by
  rw [step]
  rcases add_cases r.history fields now hlimit with
    ⟨failure, -, hadd⟩ | ⟨given, failure, -, -, hadd⟩ | ⟨given, args, -, hargs, hadd⟩
  · rw [hadd]
    exact .inl rfl
  · rw [hadd]
    exact .inr (.inl rfl)
  · rw [hadd]
    exact .inr (.inr ⟨_, (assigned_of_arguments hargs).1, rfl⟩)

/-- An operation drops entries at most, draws a number in vain, records an entry with the number that
it draws, or takes over a limit that is not negative. -/
theorem step_cases (r : Run) (now : Int) (operation : Operation) {limit : Int}
    (hlimit : r.history.limit = .int limit) :
    (∃ h, Dropped r.history h ∧ r.step now operation = ⟨h, r.added⟩) ∨
    r.step now operation =
      ⟨{ r.history with lastNumber := r.history.nextNumber now }, r.added⟩ ∨
    (∃ e, e.id = .str (identifier (r.history.nextNumber now)) ∧
      r.step now operation =
        ⟨⟨(e :: r.history.entries).take (keptCount limit (r.history.entries.length + 1)), .int limit,
          r.history.nextNumber now⟩, e :: r.added⟩) ∨
    ∃ later : Int, 0 ≤ later ∧
      r.step now operation =
        ⟨{ r.history with limit := .int later, entries := r.history.entries.take later.toNat },
          r.added⟩ := by
  have hsame : Dropped r.history r.history := .refl _
  cases operation with
  | add fields =>
    rcases step_add_cases r fields now hlimit with hstep | hstep | hstep
    · exact .inl ⟨_, hsame, hstep⟩
    · exact .inr (.inl hstep)
    · exact .inr (.inr (.inl hstep))
  | remove id =>
    obtain ⟨left, hleft, hremove⟩ := r.history.exists_remove id
    rw [step, hremove]
    exact .inl ⟨{ r.history with entries := left }, ⟨rfl, rfl, hleft.map _⟩, rfl⟩
  | clear => exact .inl ⟨r.history.clear, ⟨rfl, rfl, List.nil_sublist _⟩, rfl⟩
  | setLimit later =>
    by_cases hneg : later < 0
    · rw [step, setLimit_of_neg _ hneg]
      exact .inl ⟨_, hsame, rfl⟩
    · rw [step, setLimit_of_nonneg _ (Int.not_lt.mp hneg)]
      exact .inr (.inr (.inr ⟨later, Int.not_lt.mp hneg, rfl⟩))
  | tag id tag => exact .inl ⟨_, dropped_getD fun _ => untagged_of_tag, rfl⟩
  | untag id tag => exact .inl ⟨_, dropped_getD fun _ => untagged_of_untag, rfl⟩
  | search _ | find _ | sort => exact .inl ⟨_, hsame, rfl⟩

/-- An operation keeps the limit and lets the entries become no more, or puts one more in front and
trims them to the limit, or takes over a limit that is not negative and keeps to it. -/
theorem step_limit_cases (r : Run) (now : Int) (operation : Operation) {limit : Int}
    (hlimit : r.history.limit = .int limit) :
    ((r.step now operation).history.limit = .int limit ∧
      (r.step now operation).history.entries.length ≤ r.history.entries.length) ∨
    ((r.step now operation).history.limit = .int limit ∧
      (r.step now operation).history.entries.length ≤
        keptCount limit (r.history.entries.length + 1)) ∨
    ∃ later : Int, 0 ≤ later ∧ (r.step now operation).history.limit = .int later ∧
      ((r.step now operation).history.entries.length : Int) ≤ later := by
  rcases step_cases r now operation hlimit with
    ⟨h, hdropped, hstep⟩ | hstep | ⟨e, -, hstep⟩ | ⟨later, hnonneg, hstep⟩
  · rw [hstep]
    exact .inl ⟨hdropped.limit.trans hlimit, hdropped.length_le⟩
  · rw [hstep]
    exact .inl ⟨hlimit, Nat.le_refl _⟩
  · rw [hstep]
    exact .inr (.inl ⟨rfl, List.length_take_le _ _⟩)
  · rw [hstep]
    refine .inr (.inr ⟨later, hnonneg, rfl, ?_⟩)
    have hlength := List.length_take_le later.toNat r.history.entries
    simp only
    omega

/-- An entry that is recorded with the number that is drawn keeps the invariant. -/
theorem Invariant.of_recorded {r : Run} (hr : r.Invariant) (now : Int) {limit : Int}
    (hlimit : r.history.limit = .int limit) {e : HistoryEntry}
    (hid : e.id = .str (identifier (r.history.nextNumber now))) :
    (⟨⟨(e :: r.history.entries).take (keptCount limit (r.history.entries.length + 1)), .int limit,
      r.history.nextNumber now⟩, e :: r.added⟩ : Run).Invariant := by
  obtain ⟨_, hsame, hlength⟩ := hr.bounded
  obtain rfl : limit = _ := Value.int.inj (hlimit.symm.trans hsame)
  obtain ⟨numbers, hnumbers, hle⟩ := hr.numbered
  have hlt := r.history.lt_nextNumber now
  have hnonneg := hr.nonneg
  have hgt : ∀ n ∈ numbers, n < r.history.nextNumber now := fun n hn => by
    have hn := hle n hn
    omega
  refine ⟨⟨limit, rfl, length_take_keptCount (List.length_cons ..) hlength⟩,
    ((List.take_sublist _ _).map _).trans (hr.kept.cons_cons _),
    ⟨r.history.nextNumber now :: numbers, hnumbers.cons hid hgt (by omega), ?_⟩, ?_⟩
  · exact List.forall_mem_cons.mpr ⟨Int.le_refl _, fun n hn => Int.le_of_lt (hgt n hn)⟩
  · simp only
    omega

/-- A new limit that is not negative keeps the invariant. -/
theorem Invariant.of_limited {r : Run} (hr : r.Invariant) {later : Int} (hnonneg : 0 ≤ later) :
    (⟨{ r.history with limit := .int later, entries := r.history.entries.take later.toNat },
      r.added⟩ : Run).Invariant where
  bounded := by
    refine ⟨later, rfl, ?_⟩
    simp only [List.length_take]
    omega
  kept := ((List.take_sublist _ _).map _).trans hr.kept
  numbered := hr.numbered
  nonneg := hr.nonneg

/-- Every operation keeps the invariant. -/
theorem step_invariant {r : Run} (hr : r.Invariant) (now : Int) (operation : Operation) :
    (r.step now operation).Invariant := by
  obtain ⟨limit, hlimit, -⟩ := hr.bounded
  rcases step_cases r now operation hlimit with
    ⟨h, hdropped, hstep⟩ | hstep | ⟨e, hid, hstep⟩ | ⟨later, hnonneg, hstep⟩
  · exact hstep ▸ hr.of_dropped hdropped
  · exact hstep ▸ hr.of_drawn now
  · exact hstep ▸ hr.of_recorded now hlimit hid
  · exact hstep ▸ hr.of_limited hnonneg

/-- What every operation keeps holds after a row of operations if it holds before. -/
theorem foldl_induction {p : Run → Prop} (hstep : ∀ r now operation, p r → p (r.step now operation))
    (r : Run) (hr : p r) (steps : List (Int × Operation)) :
    p (steps.foldl (fun r s => r.step s.1 s.2) r) := by
  induction steps generalizing r with
  | nil => exact hr
  | cons s steps ih => exact ih _ (hstep r s.1 s.2 hr)

/-- The invariant holds after every row of operations. -/
theorem ofSteps_invariant (limit : Int) (steps : List (Int × Operation)) :
    (ofSteps limit steps).Invariant :=
  foldl_induction (p := Invariant) (fun _ now operation hr => step_invariant hr now operation)
    (start limit) (start_invariant limit) steps

/-- Numbered entries have identifiers of their own. -/
theorem Numbered.nodup {entries : List HistoryEntry} {numbers : List Int}
    (h : Numbered entries numbers) : (entries.map HistoryEntry.id).Nodup := by
  rw [h.ids]
  refine List.Nodup.map ?_ (h.decreasing.imp fun hgt => (Int.ne_of_lt hgt).symm)
  intro m n hmn
  exact identifier_injective (Value.str.inj hmn)

/-- A part of numbered entries is numbered. -/
theorem Numbered.of_sublist {entries kept : List HistoryEntry} {numbers : List Int}
    (h : Numbered entries numbers)
    (hkept : (kept.map HistoryEntry.id).Sublist (entries.map HistoryEntry.id)) :
    ∃ part, Numbered kept part := by
  rw [h.ids, List.sublist_map_iff] at hkept
  obtain ⟨part, hpart, hids⟩ := hkept
  exact ⟨part, hids, h.decreasing.sublist hpart, fun n hn => h.positive n (hpart.subset hn)⟩

/-- The identifiers of what is left are part of all that were given. -/
theorem Invariant.ids_sublist {r : Run} (hr : r.Invariant) :
    (r.history.entries.map HistoryEntry.id).Sublist (r.added.map HistoryEntry.id) := by
  have h := hr.kept.map HistoryEntry.id
  rw [List.map_map, List.map_map] at h
  exact h

end Run

/-- At every point of every run, the entries are within the limit and in reverse order of addition,
their identifiers carry positive numbers that decrease strictly, and all identifiers that were ever
given are distinct. -/
theorem entries_of_run (limit : Int) (steps : List (Int × Operation)) :
    (∃ current : Int, (Run.ofSteps limit steps).history.limit = .int current ∧
      ((Run.ofSteps limit steps).history.entries.length : Int) ≤ max 0 current) ∧
    ((Run.ofSteps limit steps).history.entries.map HistoryEntry.untagged).Sublist
      ((Run.ofSteps limit steps).added.map HistoryEntry.untagged) ∧
    (∃ numbers : List Int,
      (Run.ofSteps limit steps).history.entries.map HistoryEntry.id =
        numbers.map (fun n => .str ("hist_" ++ intText n)) ∧
      numbers.Pairwise (· > ·) ∧ ∀ n ∈ numbers, 0 < n) ∧
    ((Run.ofSteps limit steps).history.entries.map HistoryEntry.id).Nodup ∧
    ((Run.ofSteps limit steps).added.map HistoryEntry.id).Nodup := by
  have hrun := Run.ofSteps_invariant limit steps
  obtain ⟨all, hall, -⟩ := hrun.numbered
  obtain ⟨numbers, hnumbers⟩ := hall.of_sublist hrun.ids_sublist
  exact ⟨hrun.bounded, hrun.kept, ⟨numbers, hnumbers.ids, hnumbers.decreasing, hnumbers.positive⟩,
    hnumbers.nodup, hall.nodup⟩

end HttpWorkbench.History
