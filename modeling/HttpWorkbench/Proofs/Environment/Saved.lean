import HttpWorkbench.Proofs.Environment.Reachable
import HttpWorkbench.Proofs.Storage.Files
import HttpWorkbench.Proofs.Value.Encodable
import Mathlib

/-!
# Stores that are loaded as they were saved

A store whose names, variables and values are texts is saved, and loading gives the same tables in
the same order. The selection is kept unless the selected name is empty: a store can select such a
table, but loading takes an empty name for none.
-/

namespace HttpWorkbench

open Json (IsDocument)

namespace EnvironmentStore

/-- No table and no variable is there twice. -/
structure IsDistinct (tables : List (Value × VariableTable)) : Prop where
  names : Assoc.HasDistinctKeys tables
  bindings : ∀ t ∈ tables, Assoc.HasDistinctKeys t.2

/-- A store that is reached with dictionaries for tables, which have no key twice. What is loaded has
none twice whatever the file holds. -/
inductive ReachedWithDictionaries : EnvironmentStore → Prop
  | make {environments active : Value} {store : EnvironmentStore}
      (hkeys : environments.HasDistinctKeys) (h : make environments active = .ok store) :
      ReachedWithDictionaries store
  | load {files : Files} {path : Path} {store : EnvironmentStore}
      (h : load files path = .ok store) : ReachedWithDictionaries store
  | add {store store' : EnvironmentStore} (hstore : ReachedWithDictionaries store) {name : Text}
      {bindings : Value} (hkeys : bindings.HasDistinctKeys)
      (h : store.add (.str name) bindings = .ok store') : ReachedWithDictionaries store'
  | remove {store store' : EnvironmentStore} (hstore : ReachedWithDictionaries store) {name : Text}
      {removed : Bool} (h : store.remove (.str name) = .ok (removed, store')) :
      ReachedWithDictionaries store'
  | activate {store store' : EnvironmentStore} (hstore : ReachedWithDictionaries store)
      {name : Option Text} (h : store.activate (.ofText? name) = .ok store') :
      ReachedWithDictionaries store'
  | setVariable {store store' : EnvironmentStore} (hstore : ReachedWithDictionaries store)
      {key value : Value} {environment : Option Text}
      (h : store.setVariable key value (.ofText? environment) = .ok store') :
      ReachedWithDictionaries store'
  | removeVariable {store store' : EnvironmentStore} (hstore : ReachedWithDictionaries store)
      {key : Value} {environment : Option Text} {removed : Bool}
      (h : store.removeVariable key (.ofText? environment) = .ok (removed, store')) :
      ReachedWithDictionaries store'

theorem ReachedWithDictionaries.reachable {store : EnvironmentStore}
    (h : store.ReachedWithDictionaries) : store.Reachable := by
  induction h with
  | make _ h => exact .make h
  | load h => exact .load h
  | add _ _ h ih => exact .add ih h
  | remove _ h ih => exact .remove ih h
  | activate _ h ih => exact .activate ih h
  | setVariable _ h ih => exact .setVariable ih h
  | removeVariable _ h ih => exact .removeVariable ih h

section Steps

variable {store store' : EnvironmentStore}

/-- Tables that are made one by one keep their names. -/
theorem tables_of_entries {entries : List (Value × Value)} {tables : List (Value × VariableTable)}
    (h : (entries.mapM fun (name, bindings) => do
      let bindings ← bindings.toDictionary
      .ok (name, bindings)) = .ok tables) :
    tables.map Prod.fst = entries.map Prod.fst ∧
      ∀ t ∈ tables, ∃ e ∈ entries, e.2.toDictionary = .ok t.2 := by
  constructor
  · refine map_eq_map_of_mapM_eq_ok (fun e t ht => ?_) h
    obtain ⟨bindings, -, ht⟩ := bind_eq_ok_iff.mp ht
    obtain rfl : (e.1, bindings) = t := Except.ok.inj ht
    rfl
  · intro t ht
    obtain ⟨e, he, ht⟩ := exists_of_mem_mapM h ht
    obtain ⟨bindings, hbindings, ht⟩ := bind_eq_ok_iff.mp ht
    obtain rfl : (e.1, bindings) = t := Except.ok.inj ht
    exact ⟨e, he, hbindings⟩

/-- Tables that are made of a value have distinct names, and their variables too. -/
theorem isDistinct_tablesOfValue {environments : Value} (hkeys : environments.HasDistinctKeys)
    {tables : List (Value × VariableTable)} (h : tablesOfValue environments = .ok tables) :
    IsDistinct tables := by
  obtain ⟨entries, hentries, h⟩ := bind_eq_ok_iff.mp h
  have hgiven : (environments.orElse (.map [])).HasDistinctKeys := by
    rw [Value.orElse]
    split
    · exact hkeys
    · exact .map Assoc.hasDistinctKeys_nil (List.forall_mem_nil _)
  have hmap : (Value.map entries).HasDistinctKeys := by
    cases hvalue : environments.orElse (.map []) with
    | map given =>
      rw [hvalue] at hentries hgiven
      obtain rfl := Except.ok.inj hentries
      exact hgiven
    | _ =>
      rw [hvalue] at hentries
      cases hentries
  obtain ⟨hnames, hbindings⟩ := tables_of_entries h
  constructor
  · rw [Assoc.HasDistinctKeys, hnames]
    exact hmap.keys
  · intro t ht
    obtain ⟨e, he, hdictionary⟩ := hbindings t ht
    exact (hmap.value he).toDictionary hdictionary

/-- Selecting changes no table. -/
theorem environments_activate {name : Value} (h : store.activate name = .ok store') :
    store'.environments = store.environments := by
  unfold activate at h
  split at h
  · rw [← Except.ok.inj h]
  · obtain ⟨table, -, h⟩ := bind_eq_ok_iff.mp h
    rw [← Except.ok.inj h]

theorem isDistinct_make {environments active : Value} (hkeys : environments.HasDistinctKeys)
    (h : EnvironmentStore.make environments active = .ok store) : IsDistinct store.environments := by
  obtain ⟨tables, htables, h⟩ := bind_eq_ok_iff.mp h
  have hmade := isDistinct_tablesOfValue hkeys htables
  cases active with
  | null =>
    obtain rfl := Except.ok.inj h
    exact hmade
  | _ =>
    rw [environments_activate h]
    exact hmade

theorem isDistinct_ofDocument {data : Value} (hkeys : data.HasDistinctKeys) {path : Path}
    (h : ofDocument data path = .ok store) : IsDistinct store.environments := by
  unfold ofDocument at h
  simp only at h
  split at h
  · obtain ⟨entries, hentries, h⟩ := bind_eq_ok_iff.mp h
    obtain rfl := Except.ok.inj hentries
    obtain ⟨made, hmade, h⟩ := bind_eq_ok_iff.mp h
    have hdistinct := isDistinct_make (hkeys.fieldOr "environments") hmade
    split at h
    · rw [environments_activate h]
      exact hdistinct
    · obtain rfl := Except.ok.inj h
      exact hdistinct
  · cases h

/-- What is loaded has distinct names, whatever the file holds. -/
theorem isDistinct_load {files : Files} {path : Path} (h : load files path = .ok store) :
    IsDistinct store.environments := by
  obtain ⟨there, -, h⟩ := bind_eq_ok_iff.mp h
  split at h
  · obtain ⟨data, hdata, h⟩ := bind_eq_ok_iff.mp h
    exact isDistinct_ofDocument (Files.isData_readDocument hdata).hasDistinctKeys h
  · obtain rfl := Except.ok.inj h
    exact ⟨Assoc.hasDistinctKeys_nil, List.forall_mem_nil _⟩

/-- A table that has distinct variables can be put under any name. -/
theorem IsDistinct.put {tables : List (Value × VariableTable)} (htables : IsDistinct tables)
    (name : Value) {table : VariableTable} (htable : Assoc.HasDistinctKeys table) :
    IsDistinct (Assoc.put name table tables) where
  names := htables.names.put name table
  bindings t ht := by
    rcases Assoc.mem_put_of_beq ht with ht | ⟨hvalue, -⟩
    · exact htables.bindings t ht
    · rw [hvalue]
      exact htable

/-- The variables of a table are distinct. -/
theorem IsDistinct.table (hstore : IsDistinct store.environments) {name : Value}
    {table : VariableTable} (h : store.table name = .ok table) : Assoc.HasDistinctKeys table := by
  obtain ⟨-, hget⟩ := table_eq_ok_iff.mp h
  obtain ⟨e, he, rfl⟩ := Assoc.exists_mem_of_get? hget
  exact hstore.bindings e he

theorem IsDistinct.add (hstore : IsDistinct store.environments) {name bindings : Value}
    (hkeys : bindings.HasDistinctKeys) (h : store.add name bindings = .ok store') :
    IsDistinct store'.environments := by
  obtain ⟨key, table, htable, rfl⟩ := exists_of_add h
  apply hstore.put key
  rw [Value.orElse] at htable
  split at htable
  · exact hkeys.toDictionary htable
  · obtain rfl := Except.ok.inj htable
    exact Assoc.hasDistinctKeys_nil

theorem IsDistinct.remove (hstore : IsDistinct store.environments) {name : Value} {removed : Bool}
    (h : store.remove name = .ok (removed, store')) : IsDistinct store'.environments := by
  rcases remove_cases h with rfl | ⟨key, -, rfl⟩
  · exact hstore
  · exact ⟨hstore.names.erase key, fun t ht => hstore.bindings t (List.mem_of_mem_filter ht)⟩

theorem IsDistinct.setVariable (hstore : IsDistinct store.environments)
    {key value environment : Value} (h : store.setVariable key value environment = .ok store') :
    IsDistinct store'.environments := by
  obtain ⟨name, table, key', -, htable, -, rfl⟩ := exists_of_setVariable h
  exact hstore.put name ((hstore.table htable).put key' value)

theorem IsDistinct.removeVariable (hstore : IsDistinct store.environments)
    {key environment : Value} {removed : Bool}
    (h : store.removeVariable key environment = .ok (removed, store')) :
    IsDistinct store'.environments := by
  obtain ⟨name, table, -, htable, ⟨-, rfl⟩ | ⟨key', -, rfl⟩⟩ := exists_of_removeVariable h
  · exact hstore
  · exact hstore.put name ((hstore.table htable).erase key')

end Steps

/-- In every store that is reached with dictionaries, no table and no variable is there twice. -/
theorem ReachedWithDictionaries.isDistinct {store : EnvironmentStore}
    (h : store.ReachedWithDictionaries) : IsDistinct store.environments := by
  induction h with
  | make hkeys h => exact isDistinct_make hkeys h
  | load h => exact isDistinct_load h
  | add _ hkeys h ih => exact ih.add hkeys h
  | remove _ h ih => exact ih.remove h
  | activate _ h ih => exact (environments_activate h).symm ▸ ih
  | setVariable _ h ih => exact ih.setVariable h
  | removeVariable _ h ih => exact ih.removeVariable h

/-! ## Saving and loading -/

/-- All names, variables and values are texts that can be encoded. -/
def HoldsTexts (store : EnvironmentStore) : Prop :=
  ∀ e ∈ store.environments, e.1.IsEncodableText ∧
    ∀ b ∈ e.2, b.1.IsEncodableText ∧ b.2.IsEncodableText

section

variable {store : EnvironmentStore} {files : Files} {path : Path} {key : FileKey}

/-- The selected name is a text, as the name of its table is. -/
theorem HoldsTexts.active (htexts : store.HoldsTexts) (hthere : store.SelectedThere) {name : Value}
    (hactive : store.active = some name) : name.IsEncodableText := by
  obtain ⟨-, hcontains⟩ := hthere name hactive
  obtain ⟨e, he, hsame⟩ := List.any_eq_true.mp hcontains
  obtain ⟨⟨s, hs, hclean⟩, -⟩ := htexts e he
  rw [hs] at hsame
  exact ⟨s, Value.eq_str_of_str_same hsame, hclean⟩

/-- Tables as the value that stands for them in a document. -/
def tablesValue (tables : List (Value × VariableTable)) : Value :=
  .map (tables.map fun t => (t.1, .map t.2))

theorem toValue_eq (store : EnvironmentStore) :
    store.toValue = .ofFields [("active", store.active.getD .null),
      ("environments", tablesValue store.environments)] := rfl

/-- Tables of texts that are distinct make a document. -/
theorem HoldsTexts.isDocument_tablesValue (htexts : store.HoldsTexts)
    (hdistinct : IsDistinct store.environments) : IsDocument 2 (tablesValue store.environments) := by
  apply Json.isDocument_map
  · rw [Assoc.HasDistinctKeys, List.map_map]
    exact hdistinct.names
  · rw [List.forall_mem_map]
    exact fun e he => (htexts e he).1
  · rw [List.forall_mem_map]
    intro e he
    obtain ⟨-, hbindings⟩ := htexts e he
    apply Json.isDocument_map (hdistinct.bindings e he)
    · exact fun b hb => (hbindings b hb).1
    · exact fun b hb => Json.isDocument_of_isEncodableText (hbindings b hb).2 0

/-- A store of texts has a document. -/
theorem HoldsTexts.isDocument (htexts : store.HoldsTexts) (hdistinct : IsDistinct store.environments)
    (hthere : store.SelectedThere) : IsDocument 3 store.toValue := by
  have hactive : IsDocument 2 (store.active.getD .null) := by
    cases h : store.active with
    | none => exact .null
    | some name => exact Json.isDocument_of_isEncodableText (htexts.active hthere h) 2
  have hnames : Json.AreNames ["active", "environments"] := by decide
  rw [toValue_eq]
  refine .named hnames ?_
  simp only [List.forall_mem_cons]
  exact ⟨hactive, htexts.isDocument_tablesValue hdistinct, List.forall_mem_nil _⟩

/-- Tables are taken from a document as they are there. -/
theorem tablesOfValue_tablesValue (tables : List (Value × VariableTable)) :
    tablesOfValue (tablesValue tables) = .ok tables := by
  have hor : (tablesValue tables).orElse (.map []) = tablesValue tables := by
    cases tables <;> rfl
  rw [tablesOfValue, hor, tablesValue, Value.entriesFor, ok_bind]
  apply mapM_map_eq_ok
  intro t
  rfl

/-- A table that is there can be selected. -/
theorem activate_of_table {name : Value} (hname : name ≠ .null) {bindings : VariableTable}
    (htable : store.table name = .ok bindings) :
    store.activate name = .ok { store with active := some name } := by
  unfold activate
  split
  · exact absurd rfl hname
  · rw [htable, ok_bind]

/-- The document of a store stands for the store, with nothing selected if the selected name does not
count. -/
theorem ofDocument_toValue (hthere : store.SelectedThere) (path : Path) :
    ofDocument store.toValue path =
      .ok { store with active := store.active.filter Value.isTrue } := by
  have hmake : make (tablesValue store.environments) .null = .ok ⟨store.environments, none⟩ := by
    rw [make, tablesOfValue_tablesValue]
    rfl
  have hdocument : ofDocument store.toValue path =
      make (tablesValue store.environments) .null >>= fun made =>
        if (store.active.getD .null).isTrue then made.activate (store.active.getD .null)
        else .ok made := rfl
  rw [hdocument, hmake, ok_bind]
  cases hactive : store.active with
  | none => rfl
  | some name =>
    simp only [Option.getD_some, Option.filter_some]
    split
    · rename_i hcounts
      obtain ⟨hkey, hcontains⟩ := hthere name hactive
      obtain ⟨bindings, hget⟩ := Assoc.exists_get?_of_contains hcontains
      have hnull : name ≠ .null := by
        rintro rfl
        cases hcounts
      exact activate_of_table hnull (table_eq_ok_iff.mpr ⟨hkey, hget⟩)
    · rfl

/-- A store of texts is saved, and its tables and the selected name, unless it is empty, are loaded
again. -/
theorem load_save_eq (h : store.ReachedWithDictionaries) (htexts : store.HoldsTexts)
    (hreaches : files.Reaches path key) :
    ∃ saved, save files path store = (saved, .ok ()) ∧
      load saved path = .ok { store with active := store.active.filter Value.isTrue } := by
  have hthere := h.reachable.selectedThere
  have hdocument := htexts.isDocument h.isDistinct hthere
  have hlocate := hreaches.locate_put (.text (Json.write .file store.toValue).text)
  have hread := Files.readDocument_of_written hreaches.given hlocate hdocument (by decide)
    (documentFailures path)
  refine ⟨_, hreaches.writeDocument_eq hdocument (by decide) (documentFailures path), ?_⟩
  rw [load, Files.pathExists_of_file hreaches.given hlocate, ok_bind, if_pos rfl, hread, ok_bind,
    ofDocument_toValue hthere]

/-- The only selected text that does not count is the empty one. -/
theorem HoldsTexts.filter_active_iff (htexts : store.HoldsTexts) (hthere : store.SelectedThere) :
    store.active.filter Value.isTrue = store.active ↔ store.active ≠ some (.str "") := by
  cases hactive : store.active with
  | none => simp
  | some name =>
    obtain ⟨s, rfl, -⟩ := htexts.active hthere hactive
    have hempty : (Text.ofString "" : Text) = [] := rfl
    cases s with
    | nil => simp [Value.isTrue, hempty]
    | cons c s => simp [Value.isTrue, hempty]

/-- A store that is reached with dictionaries and holds texts is saved, and what is loaded from there
has the same tables in the same order. It is the store itself, with the same table selected, unless
the selected name is empty: then nothing is selected in what is loaded. -/
theorem load_save_iff_selected (h : store.ReachedWithDictionaries) (htexts : store.HoldsTexts)
    (hreaches : files.Reaches path key) :
    ∃ saved loaded, save files path store = (saved, .ok ()) ∧ load saved path = .ok loaded ∧
      loaded.environments = store.environments ∧
      (loaded = store ↔ store.active ≠ some (.str "")) ∧
      (store.active = some (.str "") → loaded.active = none) := by
  obtain ⟨saved, hsave, hload⟩ := load_save_eq h htexts hreaches
  have hkept := htexts.filter_active_iff h.reachable.selectedThere
  refine ⟨saved, _, hsave, hload, rfl, ?_, ?_⟩
  · rw [← hkept]
    constructor
    · intro hsame
      exact congrArg active hsame
    · intro hsame
      rw [hsame]
  · intro hempty
    rw [hempty]
    rfl

/-- A file can be made in an empty working directory. -/
theorem reaches_environments : Files.empty.Reaches (.ofText "e.json") ["e.json"] :=
  ⟨by cbv, .inl (by cbv)⟩

end

/-- A table with an empty name, and one with a quote and a line break in its name and with a variable
that is empty. -/
def oddTables : List (Value × VariableTable) :=
  [(.str "", [(.str "A", .str "1")]), (.str "\"\n", [(.str "", .str "")])]

/-- Both tables, with one of them selected, are made of dictionaries, and hold texts. -/
theorem oddTables_reached (name : Text)
    (h : make (tablesValue oddTables) (.str name) = .ok ⟨oddTables, some (.str name)⟩) :
    ReachedWithDictionaries ⟨oddTables, some (.str name)⟩ ∧
      HoldsTexts ⟨oddTables, some (.str name)⟩ := by
  have hsingle (s : Text) : (Value.str s).HasDistinctKeys := .single (by simp) (by simp)
  have htable (key value : Text) : (Value.map [(.str key, .str value)]).HasDistinctKeys :=
    .map (List.pairwise_singleton _ _) (List.forall_mem_singleton.mpr (hsingle value))
  constructor
  · refine .make (.map (by decide) ?_) h
    simp only [oddTables, List.map_cons, List.map_nil, List.forall_mem_cons]
    exact ⟨htable "A" "1", htable "" "", List.forall_mem_nil _⟩
  · have htext {s : Text} (hs : ∀ c ∈ s, c.isHalf = false) : (Value.str s).IsEncodableText :=
      ⟨s, rfl, hs⟩
    simp only [HoldsTexts, oddTables, List.forall_mem_cons]
    refine ⟨⟨htext (by decide), ⟨htext (by decide), htext (by decide)⟩, List.forall_mem_nil _⟩,
      ⟨htext (by decide), ⟨htext (by decide), htext (by decide)⟩, List.forall_mem_nil _⟩,
      List.forall_mem_nil _⟩

/-- A selected table with a quote and a line break in its name is selected again. -/
theorem load_save_quoted_name :
    ∃ saved, save .empty (.ofText "e.json") ⟨oddTables, some (.str "\"\n")⟩ = (saved, .ok ()) ∧
      load saved (.ofText "e.json") = .ok ⟨oddTables, some (.str "\"\n")⟩ := by
  obtain ⟨hreached, htexts⟩ := oddTables_reached "\"\n" rfl
  obtain ⟨saved, loaded, hsave, hload, -, hkept, -⟩ :=
    load_save_iff_selected hreached htexts reaches_environments
  obtain rfl := hkept.mpr (by simp; decide)
  exact ⟨saved, hsave, hload⟩

/-- A selected table with an empty name is selected no more after loading, and its variables are
substituted no more. -/
theorem load_save_empty_name :
    ReachedWithDictionaries ⟨oddTables, some (.str "")⟩ ∧ HoldsTexts ⟨oddTables, some (.str "")⟩ ∧
      ∃ saved, save .empty (.ofText "e.json") ⟨oddTables, some (.str "")⟩ = (saved, .ok ()) ∧
      load saved (.ofText "e.json") = .ok ⟨oddTables, none⟩ ∧
      resolve ⟨oddTables, some (.str "")⟩ (.str "\x7b\x7bA\x7d\x7d") = .ok (.str "1") ∧
      resolve ⟨oddTables, none⟩ (.str "\x7b\x7bA\x7d\x7d") = .ok (.str "\x7b\x7bA\x7d\x7d") := by
  obtain ⟨hreached, htexts⟩ := oddTables_reached "" rfl
  obtain ⟨saved, hsave, hload⟩ := load_save_eq hreached htexts reaches_environments
  exact ⟨hreached, htexts, saved, hsave, hload, by cbv, by cbv⟩

end EnvironmentStore

end HttpWorkbench
