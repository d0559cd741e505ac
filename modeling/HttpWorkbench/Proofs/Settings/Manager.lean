import HttpWorkbench.Proofs.Settings.Merged
import HttpWorkbench.Settings.Manager
import Mathlib

/-!
# Calls of a settings manager

A call makes layers and tables of its own and puts entries into no others, so that whatever was held
before is as it was. The settings that it gives are those of the layers as they are held when it is
made, and earlier calls do not show in them.
-/

namespace HttpWorkbench.Settings

/-- Loading merges the layer of the file and the overrides over the defaults. -/
theorem load_eq (files : Files) (upper : List (Value × Value)) (file : Value) :
    load files (.map upper) file =
      fileLayer files file >>= fun lower => ofLayers (merged lower upper) := by
  have hbase : default.ownEntries ++ [(.str "custom", .map [])] = named defaults := rfl
  unfold load fileLayer
  rw [hbase]
  cases file.isTrue with
  | false => cases upper <;> rfl
  | true =>
    cases Path.ofValue file with
    | error failure => rfl
    | ok path => cases hlayer : readLayer files path <;> cases upper <;> simp [hlayer] <;> rfl

namespace Memory

variable {m m' m'' : Memory} {number : Nat}

/-! ## What is held stays -/

/-- What is held in one memory is held in the other, under the same numbers. -/
structure IsKept (m m' : Memory) : Prop where
  layers : m.layers <+: m'.layers
  tables : m.tables <+: m'.tables

namespace IsKept

theorem refl (m : Memory) : m.IsKept m := ⟨List.prefix_rfl, List.prefix_rfl⟩

theorem trans (h : m.IsKept m') (h' : m'.IsKept m'') : m.IsKept m'' :=
  ⟨h.layers.trans h'.layers, h.tables.trans h'.tables⟩

theorem newLayer (h : m.IsKept m') (entries : List (Value × Slot)) : m.IsKept (m'.newLayer entries) :=
  ⟨h.layers.trans (List.prefix_append _ _), h.tables⟩

theorem newTable (h : m.IsKept m') (entries : List (Value × Value)) : m.IsKept (m'.newTable entries) :=
  ⟨h.layers, h.tables.trans (List.prefix_append _ _)⟩

/-- What is set behind the end of a list is not in the list. -/
theorem isPrefix_set {α : Type} {xs ys : List α} (h : xs <+: ys) {n : Nat} (hn : xs.length ≤ n) (y : α) :
    xs <+: ys.set n y := by
  obtain ⟨zs, rfl⟩ := h
  rw [List.set_append_right _ _ hn]
  exact List.prefix_append _ _

theorem updateLayer (h : m.IsKept m') (hnew : m.layers.length ≤ number) (pairs : List (Value × Slot)) :
    m.IsKept (m'.updateLayer number pairs) := ⟨isPrefix_set h.layers hnew _, h.tables⟩

theorem updateTable (h : m.IsKept m') (hnew : m.tables.length ≤ number) (pairs : List (Value × Value)) :
    m.IsKept (m'.updateTable number pairs) := ⟨h.layers, isPrefix_set h.tables hnew _⟩

theorem getD_eq {α : Type} {xs ys : List α} (h : xs <+: ys) {n : Nat} (hn : n < xs.length) (other : α) :
    ys.getD n other = xs.getD n other := by
  obtain ⟨zs, rfl⟩ := h
  rw [List.getD_eq_getElem?_getD, List.getElem?_append_left hn, List.getD_eq_getElem?_getD]

theorem layer_eq (h : m.IsKept m') (hheld : number < m.layers.length) : m'.layer number = m.layer number :=
  getD_eq h.layers hheld []

theorem table_eq (h : m.IsKept m') (hheld : number < m.tables.length) : m'.table number = m.table number :=
  getD_eq h.tables hheld []

end IsKept

theorem isKept_copyDefaults (m : Memory) (manager : Nat) : m.IsKept (m.copyDefaults manager) :=
  (((IsKept.refl m).newLayer _).newTable _).updateLayer le_rfl _

theorem IsKept.overlay (h : m.IsKept m') (hnew : m.layers.length ≤ number) (file : List (Value × Value))
    (overrides : Option Nat) : m.IsKept (m'.overlay number file overrides) := by
  cases overrides with
  | none => exact h.updateLayer hnew _
  | some _ => exact (h.updateLayer hnew _).updateLayer hnew _

theorem isKept_settings (m : Memory) (base : Nat) : m.IsKept (m.settings base).1 := by
  unfold settings
  simp only
  split
  · exact .refl m
  · split
    · exact .refl m
    · exact ((IsKept.refl m).newTable _).updateTable le_rfl _

/-- A call leaves what is held as it is. -/
theorem isKept_getSettings (m : Memory) (files : Files) (manager : Nat) (overrides : Option Nat)
    (file : Value) : m.IsKept (m.getSettings files manager overrides file).1 := by
  have hcopy := isKept_copyDefaults m manager
  unfold getSettings
  simp only
  split
  · exact hcopy
  · exact (hcopy.overlay le_rfl _ _).trans (isKept_settings _ _)

/-- What a call is given, and the files as it finds them. -/
structure Call where
  files : Files
  manager : Nat
  overrides : Option Nat
  file : Value

/-- The memory after calls, one after the other. -/
def run (m : Memory) (calls : List Call) : Memory :=
  calls.foldl (fun m call => (m.getSettings call.files call.manager call.overrides call.file).1) m

/-- Calls leave what is held as it is. -/
theorem isKept_run (m : Memory) (calls : List Call) : m.IsKept (m.run calls) := by
  induction calls generalizing m with
  | nil => exact .refl m
  | cons call calls ih =>
    exact (isKept_getSettings m call.files call.manager call.overrides call.file).trans (ih _)

/-! ## What is read -/

/-- A custom table in the slot is held. -/
def IsHeld (m : Memory) : Slot → Prop
  | .value _ => True
  | .table number => number < m.tables.length

instance : (slot : Slot) → Decidable (m.IsHeld slot)
  | .value _ => inferInstanceAs (Decidable True)
  | .table number => inferInstanceAs (Decidable (number < m.tables.length))

/-- The custom tables among the entries are held. -/
def HoldsTables (m : Memory) (entries : List (Value × Slot)) : Prop := ∀ e ∈ entries, m.IsHeld e.2

instance (entries : List (Value × Slot)) : Decidable (m.HoldsTables entries) :=
  inferInstanceAs (Decidable (∀ e ∈ entries, m.IsHeld e.2))

theorem HoldsTables.putAll {entries pairs : List (Value × Slot)} (h : m.HoldsTables entries)
    (hpairs : m.HoldsTables pairs) : m.HoldsTables (Assoc.putAll entries pairs) := by
  intro e he
  rcases Assoc.mem_putAll_of_beq he with he | ⟨p, hp, hvalue, -⟩
  · exact h e he
  · rw [hvalue]
    exact hpairs p hp

theorem IsHeld.of_isKept {slot : Slot} (h : m.IsHeld slot) (hkept : m.IsKept m') : m'.IsHeld slot := by
  cases slot with
  | value v => exact trivial
  | table number => exact Nat.lt_of_lt_of_le h hkept.tables.length_le

theorem IsHeld.read_eq {slot : Slot} (h : m.IsHeld slot) (hkept : m.IsKept m') :
    m'.read slot = m.read slot := by
  cases slot with
  | value v => rfl
  | table number => rw [read, read, hkept.table_eq h]

theorem HoldsTables.of_isKept {entries : List (Value × Slot)} (h : m.HoldsTables entries)
    (hkept : m.IsKept m') : m'.HoldsTables entries := fun e he => (h e he).of_isKept hkept

/-- What is held reads the same. -/
theorem HoldsTables.readAll_eq {entries : List (Value × Slot)} (h : m.HoldsTables entries)
    (hkept : m.IsKept m') : m'.readAll entries = m.readAll entries :=
  List.map_congr_left fun e he => by rw [(h e he).read_eq hkept]

theorem readAll_putAll (m : Memory) (entries pairs : List (Value × Slot)) :
    m.readAll (Assoc.putAll entries pairs) = Assoc.putAll (m.readAll entries) (m.readAll pairs) :=
  (Assoc.putAll_map (g := id) (fun _ _ => rfl) m.read entries pairs).symm

theorem readAll_filter (m : Memory) (keep : Value → Bool) (entries : List (Value × Slot)) :
    (m.readAll entries).filter (fun e => keep e.1) = m.readAll (entries.filter fun e => keep e.1) :=
  List.filter_map ..

/-- A layer that is set is read as it was set. -/
theorem layer_updateLayer (hheld : number < m.layers.length) (pairs : List (Value × Slot)) :
    (m.updateLayer number pairs).layer number = Assoc.putAll (m.layer number) pairs := by
  rw [updateLayer, layer, List.getD_eq_getElem?_getD, List.getElem?_set_self hheld]
  rfl

/-- Entries that are put into a layer are read over those that were in it. -/
theorem readAll_updateLayer (hheld : number < m.layers.length) (h : m.HoldsTables (m.layer number))
    {pairs : List (Value × Slot)} (hpairs : m.HoldsTables pairs) :
    (m.updateLayer number pairs).HoldsTables ((m.updateLayer number pairs).layer number) ∧
      (m.updateLayer number pairs).readAll ((m.updateLayer number pairs).layer number) =
        Assoc.putAll (m.readAll (m.layer number)) (m.readAll pairs) := by
  rw [layer_updateLayer hheld]
  exact ⟨h.putAll hpairs, readAll_putAll (m.updateLayer number pairs) _ _⟩

theorem table_updateTable (hheld : number < m.tables.length) (pairs : List (Value × Value)) :
    (m.updateTable number pairs).table number = Assoc.putAll (m.table number) pairs := by
  rw [updateTable, table, List.getD_eq_getElem?_getD, List.getElem?_set_self hheld]
  rfl

theorem HoldsTables.filter {entries : List (Value × Slot)} (h : m.HoldsTables entries)
    (p : Value × Slot → Bool) : m.HoldsTables (entries.filter p) :=
  fun e he => h e (List.mem_filter.mp he).1

/-- The settings that a layer in memory describes are those of its entries as they are read. -/
theorem settings_eq {base : Nat} (h : m.HoldsTables (m.layer base)) :
    (m.settings base).2 = ofLayers (m.readAll (m.layer base)) := by
  generalize hlayer : m.layer base = entries at h
  have hempty (entries : List (Value × Slot)) : (m.readAll entries).isEmpty = entries.isEmpty :=
    List.isEmpty_map
  simp only [settings, ofLayers, hlayer, readAll_filter m isKnown, readAll_filter m (fun k => !isKnown k),
    hempty]
  split
  · rfl
  · cases hcustom : ((Value.fieldOr "custom" (m.readAll (entries.filter fun e => isKnown e.1)) .null).orElse
        (.map [])).toDictionary with
    | error failure => rfl
    | ok custom =>
      -- The copy is a new table, so that what is known reads as before.
      generalize hnew : (m.newTable custom).updateTable m.tables.length
        (m.readAll (entries.filter fun e => !isKnown e.1)) = m'
      have hkept : m.IsKept m' := hnew ▸ ((IsKept.refl m).newTable custom).updateTable le_rfl _
      have htable : m'.table m.tables.length =
          Assoc.putAll custom (m.readAll (entries.filter fun e => !isKnown e.1)) := by
        have hcopy : (m.newTable custom).table m.tables.length = custom := by
          simp [newTable, table]
        rw [← hnew, table_updateTable (by simp [newTable]), hcopy]
      have hread : m'.readAll (Assoc.put (.str "custom") (.table m.tables.length)
          (entries.filter fun e => isKnown e.1)) =
          Assoc.put (.str "custom") (.map (m'.table m.tables.length))
            (m.readAll (entries.filter fun e => isKnown e.1)) := by
        rw [← (h.filter _).readAll_eq hkept]
        exact readAll_putAll m' _ [(.str "custom", .table m.tables.length)]
      rw [ok_bind, ← htable, ← hread]
      subst hnew
      rfl

/-! ## Calls -/

/-- The manager is started: the defaults are in its layer, with some custom table. -/
def HoldsDefaults (m : Memory) (manager : Nat) : Prop :=
  manager < m.layers.length ∧ ∃ custom, m.layer manager = defaultLayer custom

theorem holdsDefaults_startManager (m : Memory) : m.startManager.HoldsDefaults m.layers.length := by
  refine ⟨by simp [startManager, newLayer, newTable], .table m.tables.length, ?_⟩
  simp [startManager, newLayer, newTable, layer]

theorem HoldsDefaults.of_isKept {manager : Nat} (h : m.HoldsDefaults manager) (hkept : m.IsKept m') :
    m'.HoldsDefaults manager := by
  obtain ⟨hheld, custom, hlayer⟩ := h
  exact ⟨hheld.trans_le hkept.layers.length_le, custom, (hkept.layer_eq hheld).trans hlayer⟩

/-- What a caller hands over: nothing, or a layer that is held together with its custom table. -/
def Hands (m : Memory) (overrides : Option Nat) (upper : List (Value × Value)) : Prop :=
  match overrides with
  | none => upper = []
  | some number => number < m.layers.length ∧ m.HoldsTables (m.layer number) ∧
      m.readAll (m.layer number) = upper

theorem Hands.of_isKept {overrides : Option Nat} {upper : List (Value × Value)}
    (h : m.Hands overrides upper) (hkept : m.IsKept m') : m'.Hands overrides upper := by
  cases overrides with
  | none => exact h
  | some number =>
    obtain ⟨hheld, htables, hread⟩ := h
    rw [Hands, hkept.layer_eq hheld]
    exact ⟨hheld.trans_le hkept.layers.length_le, htables.of_isKept hkept,
      (htables.readAll_eq hkept).trans hread⟩

/-- The copy of the defaults has an empty custom table of its own, whatever is in the manager's. -/
theorem readAll_copyDefaults {manager : Nat} (h : m.HoldsDefaults manager) :
    (m.copyDefaults manager).HoldsTables ((m.copyDefaults manager).layer m.layers.length) ∧
      (m.copyDefaults manager).readAll ((m.copyDefaults manager).layer m.layers.length) =
        named defaults := by
  obtain ⟨hheld, custom, hlayer⟩ := h
  have hcopy : (m.copyDefaults manager).layer m.layers.length =
      defaultLayer (.table m.tables.length) := by
    rw [copyDefaults, layer_updateLayer (by simp [newLayer, newTable])]
    have hnew : ((m.newLayer (m.layer manager)).newTable []).layer m.layers.length =
        defaultLayer custom := by
      rw [← hlayer]
      simp [newLayer, newTable, layer]
    rw [hnew]
    rfl
  have htable : (m.copyDefaults manager).table m.tables.length = [] := by
    simp [copyDefaults, updateLayer, newLayer, newTable, table]
  rw [hcopy]
  constructor
  · intro e he
    rcases List.mem_append.mp he with he | he
    · obtain ⟨f, -, rfl⟩ := List.mem_map.mp he
      exact trivial
    · obtain rfl := List.mem_singleton.mp he
      simp [IsHeld, copyDefaults, updateLayer, newLayer, newTable]
  · have hcustom : (m.copyDefaults manager).read (.table m.tables.length) = .map [] := by
      rw [read, htable]
    rw [readAll, defaultLayer, List.map_append, List.map_map, List.map_singleton, hcustom]
    rfl

/-- The layer of a call reads as the layers that it is given, over the defaults. -/
theorem readAll_overlay {manager : Nat} (hdefaults : m.HoldsDefaults manager)
    {overrides : Option Nat} {upper : List (Value × Value)} (hupper : m.Hands overrides upper)
    (lower : List (Value × Value)) {called : Memory}
    (hcalled : (m.copyDefaults manager).overlay m.layers.length lower overrides = called) :
    called.HoldsTables (called.layer m.layers.length) ∧
      called.readAll (called.layer m.layers.length) = merged lower upper := by
  obtain ⟨hheld, hread⟩ := readAll_copyDefaults hdefaults
  have hkept := isKept_copyDefaults m manager
  have hbase : m.layers.length < (m.copyDefaults manager).layers.length := by
    simp [copyDefaults, updateLayer, newLayer, newTable]
  generalize m.copyDefaults manager = copy at *
  have hfile : copy.HoldsTables (lower.map fun e => (e.1, .value e.2)) := by
    intro e he
    obtain ⟨f, -, rfl⟩ := List.mem_map.mp he
    exact trivial
  have hfileRead : copy.readAll (lower.map fun e => (e.1, .value e.2)) = lower := by
    rw [readAll, List.map_map]
    exact List.map_id lower
  obtain ⟨hlowerHeld, hlowerRead⟩ := readAll_updateLayer hbase hheld hfile
  rw [hread, hfileRead] at hlowerRead
  have hlowerKept : m.IsKept (copy.updateLayer m.layers.length (lower.map fun e => (e.1, .value e.2))) :=
    hkept.updateLayer le_rfl _
  have hlowerBase : m.layers.length <
      (copy.updateLayer m.layers.length (lower.map fun e => (e.1, .value e.2))).layers.length := by
    simpa [updateLayer] using hbase
  unfold overlay at hcalled
  simp only at hcalled
  generalize copy.updateLayer m.layers.length (lower.map fun e => (e.1, .value e.2)) = overlaid at *
  cases overrides with
  | none =>
    obtain rfl : upper = [] := hupper
    obtain rfl : overlaid = called := hcalled
    exact ⟨hlowerHeld, hlowerRead⟩
  | some number =>
    obtain ⟨-, htables, hupperRead⟩ := hupper.of_isKept hlowerKept
    obtain rfl : overlaid.updateLayer m.layers.length (overlaid.layer number) = called := hcalled
    obtain ⟨hupperHeld, hmerged⟩ := readAll_updateLayer hlowerBase hlowerHeld htables
    rw [hlowerRead, hupperRead] at hmerged
    exact ⟨hupperHeld, hmerged⟩

/-- A call gives the settings of the layers that it is given. -/
theorem getSettings_eq {manager : Nat} (hdefaults : m.HoldsDefaults manager)
    {overrides : Option Nat} {upper : List (Value × Value)} (hupper : m.Hands overrides upper)
    (files : Files) (file : Value) :
    (m.getSettings files manager overrides file).2 = load files (.map upper) file := by
  rw [load_eq]
  unfold getSettings
  cases fileLayer files file with
  | error failure => rfl
  | ok lower =>
    obtain ⟨hheld, hread⟩ := readAll_overlay hdefaults hupper lower rfl
    rw [ok_bind, ← hread]
    exact settings_eq hheld

end Memory

/-! ## The settings of a call -/

/-- The file that is named holds the layer: it is one of JSON, and its text is read as an object. No file
gives no entries. -/
def GivesLayer (files : Files) (file : Value) (lower : List (Value × Value)) : Prop :=
  (file.isTrue = false ∧ lower = []) ∨
    ∃ path content text, Path.ofValue file = .ok path ∧ Text.lower path.suffix = ".json" ∧
      files.openFile path = .ok content ∧ content.lines = .ok text ∧ Json.read text = .ok (.map lower)

section

variable {files : Files} {file : Value} {lower : List (Value × Value)}

theorem GivesLayer.isData (h : GivesLayer files file lower) : Json.IsData (.map lower) := by
  rcases h with ⟨-, rfl⟩ | ⟨path, content, text, -, -, -, -, hread⟩
  · exact .map Assoc.hasDistinctKeys_nil (List.forall_mem_nil _) (List.forall_mem_nil _)
  · exact Json.isData_read hread

theorem GivesLayer.fileLayer_eq (h : GivesLayer files file lower) : fileLayer files file = .ok lower := by
  rcases h with ⟨hfile, rfl⟩ | ⟨path, content, text, hpath, hsuffix, hopen, hlines, hread⟩
  · rw [fileLayer, hfile]
    rfl
  · have htrue : file.isTrue = true := by
      cases file with
      | str s =>
        cases s with
        | nil =>
          obtain rfl := Except.ok.inj hpath
          exact absurd hsuffix (by decide)
        | cons c s => rfl
      | _ => cases hpath
    have hdocument : files.readDocument path (documentFailures path) = .ok (.map lower) := by
      simp only [Files.readDocument, hopen, hlines, hread, Except.mapError, ok_bind]
    rw [fileLayer, if_pos htrue, hpath, ok_bind, readLayer,
      Files.pathExists_of_readDocument hdocument, ok_bind, hsuffix, hdocument]
    rfl

end

/-- The settings of a file and of a caller's layer over the defaults: every setting is the last one
given, the custom table is the last one given and overlaid with all other entries, and a manager gives
these settings whatever calls were made before. -/
theorem getSettings_merges {m : Memory} {manager : Nat} (hmanager : m.HoldsDefaults manager)
    {files : Files} {file : Value} {lower : List (Value × Value)} (hlower : GivesLayer files file lower)
    (hlowerCustom : HasCustomTable lower) {overrides : Option Nat} {upper : List (Value × Value)}
    (hupper : m.Hands overrides upper) (hdistinct : Assoc.HasDistinctKeys upper)
    (hupperCustom : HasCustomTable upper) :
    ∃ s, IsMergeOf lower upper s ∧
      (∀ given, given = .map upper ∨ given = .null ∧ upper = [] → load files given file = .ok s) ∧
      ∀ calls, ((m.run calls).getSettings files manager overrides file).2 = .ok s := by
  have hdata := hlower.isData
  obtain ⟨s, hs, hmerge⟩ := exists_ofLayers_merged hdata.keys hdistinct hdata.exists_name hlowerCustom
    hupperCustom
  have hload : load files (.map upper) file = .ok s := by
    rw [load_eq, hlower.fileLayer_eq, ok_bind, hs]
  refine ⟨s, hmerge, ?_, fun calls => ?_⟩
  · rintro given (rfl | ⟨rfl, rfl⟩)
    · exact hload
    · exact hload
  · have hkept := m.isKept_run calls
    rw [Memory.getSettings_eq (hmanager.of_isKept hkept) (hupper.of_isKept hkept), hload]

/-- A manager that was started, and a caller with a layer and a custom table. -/
def startedMemory : Memory :=
  ((Memory.startManager ⟨[], []⟩).newTable [(.str "a", .int 9)]).newLayer
    [(.str "z", .value (.int 5)), (.str "custom", .table 1), (.int 7, .value .null),
      (.str "timeout_ms", .value (.int 500))]

/-- A text of settings with a custom table and with entries that are no settings. -/
def layeredText : Text :=
  "\x7b\"custom\": \x7b\"a\": 1, \"b\": 2\x7d, \"b\": 3, \"z\": 4, \"log_level\": \"INFO\"\x7d"

/-- A file with the text. -/
def layeredFiles : Files := Files.empty.put ["c.json"] (.file (.text layeredText))

/-- The caller's custom table counts, the entries of both layers overlay it, and a second call gives what
the first one gave. -/
theorem getSettings_merges_tables :
    ∃ s, load layeredFiles (.map (startedMemory.readAll (startedMemory.layer 1))) (.str "c.json") = .ok s ∧
      s.timeout = .int 500 ∧ s.logLevel = .str "INFO" ∧
      s.custom = .map [(.str "a", .int 9), (.str "b", .int 3), (.str "z", .int 5), (.int 7, .null)] ∧
      ((startedMemory.run [⟨layeredFiles, 0, some 1, .str "c.json"⟩]).getSettings layeredFiles 0 (some 1)
        (.str "c.json")).2 = .ok s := by
  have hfile : GivesLayer layeredFiles (.str "c.json")
      [(.str "custom", .map [(.str "a", .int 1), (.str "b", .int 2)]), (.str "b", .int 3),
        (.str "z", .int 4), (.str "log_level", .str "INFO")] :=
    .inr ⟨.ofText "c.json", .text layeredText, layeredText, rfl, by decide, by cbv, by cbv, by cbv⟩
  have hmanager : startedMemory.HoldsDefaults 0 :=
    (Memory.holdsDefaults_startManager ⟨[], []⟩).of_isKept
      (((Memory.IsKept.refl _).newTable _).newLayer _)
  have hhands : startedMemory.Hands (some 1) (startedMemory.readAll (startedMemory.layer 1)) :=
    ⟨by decide, by decide, rfl⟩
  have hlowerCustom : HasCustomTable [(.str "custom", .map [(.str "a", .int 1), (.str "b", .int 2)]),
      (.str "b", .int 3), (.str "z", .int 4), (.str "log_level", .str "INFO")] :=
    fun v hv => .inr ⟨_, (Option.some.inj hv).symm⟩
  have hupperCustom : HasCustomTable (startedMemory.readAll (startedMemory.layer 1)) :=
    fun v hv => .inr ⟨_, (Option.some.inj hv).symm⟩
  obtain ⟨s, hmerge, hload, hcalls⟩ :=
    getSettings_merges hmanager hfile hlowerCustom hhands (by decide) hupperCustom
  have hown (n : Nat) := congrArg (fun fields => fields[n]?) hmerge.own
  refine ⟨s, hload _ (.inl rfl), ?_, ?_, ?_, hcalls _⟩
  · exact (Prod.mk.inj (Option.some.inj (hown 0))).2
  · exact (Prod.mk.inj (Option.some.inj (hown 6))).2
  · rw [hmerge.custom]
    rfl

end HttpWorkbench.Settings
