import HttpWorkbench.Proofs.Clock.Chronology
import HttpWorkbench.Proofs.History.Operations

/-!
# The sorted view is chronological

Entries are added to a new history, each at a clock reading of its own, and a log keeps the readings.
The view by timestamp has the entries of the history by their readings, latest first, and those with
one reading as the history has them, newest first. A clock that never goes back adds the entries in
this order, so that the view is the history itself.
-/

namespace HttpWorkbench.History

/-! ## Sorting by clock readings -/

section Dated

variable {α : Type}

/-- Elements with clock readings, the latest first, those with one reading as they stand. -/
def latestFirst (dated : List (Int × α)) : List (Int × α) :=
  dated.mergeSort fun a b => b.1 ≤ a.1

/-- In this order of two elements, the second is not later than the first. -/
theorem latest_trans (a b c : Int × α) (hab : decide (b.1 ≤ a.1) = true)
    (hbc : decide (c.1 ≤ b.1) = true) : decide (c.1 ≤ a.1) = true := by
  rw [decide_eq_true_eq] at *
  omega

theorem latest_total (a b : Int × α) : (decide (b.1 ≤ a.1) || decide (a.1 ≤ b.1)) = true := by
  rw [Bool.or_eq_true, decide_eq_true_eq, decide_eq_true_eq]
  omega

theorem pairwise_latestFirst (dated : List (Int × α)) :
    (latestFirst dated).Pairwise fun a b => b.1 ≤ a.1 :=
  (List.pairwise_mergeSort latest_trans latest_total dated).imp of_decide_eq_true

/-- Elements with one reading stay as they stand. -/
theorem filter_latestFirst (dated : List (Int × α)) (reading : Int) :
    (latestFirst dated).filter (·.1 = reading) = dated.filter (·.1 = reading) := by
  have hordered : (dated.filter (·.1 = reading)).Pairwise fun a b => decide (b.1 ≤ a.1) = true := by
    rw [List.pairwise_filter]
    refine List.pairwise_of_forall fun a b ha hb => ?_
    rw [decide_eq_true_eq] at *
    omega
  have hsub := List.sublist_mergeSort latest_trans latest_total hordered List.filter_sublist
  have hfiltered := hsub.filter (·.1 = reading)
  rw [List.filter_filter] at hfiltered
  simp only [Bool.and_self] at hfiltered
  refine (hfiltered.eq_of_length ?_).symm
  exact ((List.mergeSort_perm dated _).filter _).length_eq.symm

end Dated

/-! ## Additions at clock readings -/

/-- A history, and the entries that were added to it, newest first, with the clock readings of their
additions. -/
structure Log where
  history : History
  added : List (Int × HistoryEntry)

namespace Log

/-- The log of a new history. -/
def start (limit : Int) : Log := ⟨.new (.int limit), []⟩

/-- The log after an addition at a clock reading, which may be refused. -/
def add (log : Log) (now : Int) (fields : List (Value × Value)) : Log :=
  match log.history.add fields now with
  | (h, .ok entry) => ⟨h, (now, entry) :: log.added⟩
  | (h, .error _) => ⟨h, log.added⟩

/-- The log of a row of additions to a new history. -/
def ofAdditions (limit : Int) (additions : List (Int × List (Value × Value))) : Log :=
  additions.foldl (fun log a => log.add a.1 a.2) (start limit)

/-- What holds all along: trimming leaves the newest of the added entries, which carry the timestamps
of their readings, and the readings are some of those so far. -/
structure Invariant (log : Log) (readings : List Int) : Prop where
  limited : ∃ limit : Int, log.history.limit = .int limit
  newest : log.history.entries <+: log.added.map Prod.snd
  stamped : ∀ a ∈ log.added, a.2.timestamp = .str (timestamp a.1)
  read : (log.added.map Prod.fst).Sublist readings.reverse

theorem start_invariant (limit : Int) : (start limit).Invariant [] where
  limited := ⟨limit, rfl⟩
  newest := List.prefix_rfl
  stamped := List.forall_mem_nil _
  read := .slnil

/-- An addition keeps the invariant, whether or not it is refused. -/
theorem Invariant.add {log : Log} {readings : List Int} (h : log.Invariant readings) (now : Int)
    (fields : List (Value × Value)) : (log.add now fields).Invariant (readings ++ [now]) := by
  obtain ⟨limit, hlimit⟩ := h.limited
  have hreverse : (readings ++ [now]).reverse = now :: readings.reverse := List.reverse_concat ..
  have hread := hreverse ▸ h.read.trans (List.sublist_cons_self now _)
  rw [Log.add]
  rcases add_cases log.history fields now hlimit with
    ⟨failure, -, hadd⟩ | ⟨given, failure, -, -, hadd⟩ | ⟨given, args, -, hargs, hadd⟩
  · rw [hadd]
    exact ⟨h.limited, h.newest, h.stamped, hread⟩
  · rw [hadd]
    exact ⟨h.limited, h.newest, h.stamped, hread⟩
  · rw [hadd]
    refine ⟨⟨limit, rfl⟩, ?_, ?_, ?_⟩
    · exact (List.take_prefix _ _).trans (List.cons_prefix_cons.mpr ⟨rfl, h.newest⟩)
    · exact List.forall_mem_cons.mpr ⟨(assigned_of_arguments hargs).2, h.stamped⟩
    · exact hreverse ▸ h.read.cons_cons now

/-- The invariant holds after every row of additions. -/
theorem ofAdditions_invariant (limit : Int) (additions : List (Int × List (Value × Value))) :
    (ofAdditions limit additions).Invariant (additions.map Prod.fst) := by
  suffices hall : ∀ (log : Log) (readings : List Int), log.Invariant readings →
      (additions.foldl (fun log a => log.add a.1 a.2) log).Invariant
        (readings ++ additions.map Prod.fst) from
    hall _ [] (start_invariant limit)
  intro log readings hlog
  induction additions generalizing log readings with
  | nil => rwa [List.map_nil, List.append_nil]
  | cons a additions ih =>
    rw [List.map_cons, List.append_cons]
    exact ih _ _ (hlog.add a.1 a.2)

end Log

/-! ## The view by timestamp -/

/-- Timestamps of readings before the year 10000 are compared as the readings. -/
theorem isNotAfter_timestamp {m n : Int} (hm : 0 ≤ m ∧ m < endOfYears) (hn : 0 ≤ n ∧ n < endOfYears) :
    (Value.str (timestamp m)).isNotAfter (.str (timestamp n)) = decide (m ≤ n) := by
  rw [Value.isNotAfter, textOrder_timestamp hm hn, Bool.eq_iff_iff, bne_iff_ne, ne_eq,
    Int.compare_eq_gt, decide_eq_true_eq, not_lt]

/-- The view of entries that carry the timestamps of readings is by these readings. -/
theorem sorted_eq_latestFirst {h : History} {dated : List (Int × HistoryEntry)}
    (hentries : h.entries = dated.map Prod.snd)
    (hstamped : ∀ a ∈ dated, a.2.timestamp = .str (timestamp a.1))
    (hclock : ∀ a ∈ dated, 0 ≤ a.1 ∧ a.1 < endOfYears) :
    h.sorted = .ok ((latestFirst dated).map Prod.snd) := by
  have htext : h.entries.all (fun e => e.timestamp.isText) = true := by
    rw [hentries, List.all_eq_true]
    intro e he
    obtain ⟨a, ha, rfl⟩ := List.mem_map.mp he
    rw [hstamped a ha]
    rfl
  have hmap := List.map_mergeSort (r := fun a b : Int × HistoryEntry => decide (b.1 ≤ a.1))
    (s := fun e e' => e'.timestamp.isNotAfter e.timestamp) (f := Prod.snd) (l := dated)
    fun a ha b hb => by
      rw [hstamped a ha, hstamped b hb, isNotAfter_timestamp (hclock b hb) (hclock a ha)]
  rw [sorted, Value.sortByDescending, if_pos htext, hentries, latestFirst, hmap]

/-- After every row of additions at clock readings from 1970 to the end of the year 9999, the entries
are the newest of those that were added, and the view by timestamp has them by their clock readings,
latest first, those with one reading newest first. If the clock never went back, the view is the
history. -/
theorem sorted_of_additions (limit : Int) (additions : List (Int × List (Value × Value)))
    (hclock : ∀ a ∈ additions, 0 ≤ a.1 ∧ a.1 < endOfYears) :
    ∃ dated sorted : List (Int × HistoryEntry),
      dated <+: (Log.ofAdditions limit additions).added ∧
      (Log.ofAdditions limit additions).history.entries = dated.map Prod.snd ∧
      (Log.ofAdditions limit additions).history.sorted = .ok (sorted.map Prod.snd) ∧
      sorted.Perm dated ∧
      sorted.Pairwise (fun a b => b.1 ≤ a.1) ∧
      (∀ reading, sorted.filter (·.1 = reading) = dated.filter (·.1 = reading)) ∧
      ((additions.map Prod.fst).Pairwise (· ≤ ·) →
        (Log.ofAdditions limit additions).history.sorted =
          .ok (Log.ofAdditions limit additions).history.entries) := by
  have hlog := Log.ofAdditions_invariant limit additions
  generalize Log.ofAdditions limit additions = log at hlog
  obtain ⟨dated, hdated, hentries⟩ : ∃ dated, dated <+: log.added ∧
      log.history.entries = dated.map Prod.snd := by
    have hnewest := List.prefix_iff_eq_take.mp hlog.newest
    rw [← List.map_take] at hnewest
    exact ⟨_, List.take_prefix _ _, hnewest⟩
  have hread : (dated.map Prod.fst).Sublist (additions.map Prod.fst).reverse :=
    (hdated.sublist.map Prod.fst).trans hlog.read
  have hreadings : ∀ a ∈ dated, 0 ≤ a.1 ∧ a.1 < endOfYears := by
    intro a ha
    have hmem := List.mem_reverse.mp (hread.subset (List.mem_map_of_mem ha))
    obtain ⟨b, hb, hba⟩ := List.mem_map.mp hmem
    exact hba ▸ hclock b hb
  have hsorted := sorted_eq_latestFirst hentries (fun a ha => hlog.stamped a (hdated.subset ha))
    hreadings
  refine ⟨dated, latestFirst dated, hdated, hentries, hsorted, List.mergeSort_perm dated _,
    pairwise_latestFirst dated, filter_latestFirst dated, fun hforward => ?_⟩
  have hordered : dated.Pairwise fun a b => decide (b.1 ≤ a.1) = true := by
    have hbackward := (List.pairwise_reverse.mpr hforward).sublist hread
    exact (List.pairwise_map.mp hbackward).imp decide_eq_true
  rw [hsorted, hentries, latestFirst, List.mergeSort_of_pairwise hordered]

/-- Three additions, the second of them at a reading before the others. -/
def goingBack : List (Int × List (Value × Value)) :=
  [(1704067200000, [(.str "method", .str "GET"), (.str "url", .str "https://a")]),
    (1704067199999, [(.str "method", .str "GET"), (.str "url", .str "https://b")]),
    (1704067200000, [(.str "method", .str "GET"), (.str "url", .str "https://c")])]

/-- The entry of the earlier reading comes last, though its timestamp is the longest, and the other
two stay as the history has them. -/
theorem sorted_of_additions_back :
    ∃ sorted : List (Int × HistoryEntry),
      (Log.ofAdditions 50 goingBack).history.sorted = .ok (sorted.map Prod.snd) ∧
      sorted.map Prod.fst = [1704067200000, 1704067200000, 1704067199999] ∧
      (sorted.filter (·.1 = 1704067200000)).map (·.2.url) = [.str "https://c", .str "https://a"] := by
  obtain ⟨dated, sorted, hdated, hentries, hsorted, hperm, hordered, hsame, -⟩ :=
    sorted_of_additions 50 goingBack (by decide)
  have hall : dated = (Log.ofAdditions 50 goingBack).added := by
    have hlength := congrArg List.length hentries
    rw [List.length_map] at hlength
    exact hdated.eq_of_length hlength.symm
  subst hall
  refine ⟨sorted, hsorted, ?_, by rw [hsame]; rfl⟩
  have hreadings : (sorted.map Prod.fst).Perm [1704067200000, 1704067200000, 1704067199999] :=
    (hperm.map Prod.fst).trans (by decide)
  exact hreadings.eq_of_pairwise (fun _ _ _ _ hab hba => Int.le_antisymm hba hab)
    (List.pairwise_map.mpr hordered) (by decide)

end HttpWorkbench.History
