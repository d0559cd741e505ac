import HttpWorkbench.Environment.Document
import HttpWorkbench.Proofs.Result
import HttpWorkbench.Proofs.Value.Same

/-!
# Stores that can be reached

A store comes from tables and a selected name, or from a file, and goes through operations that name
tables by texts. Whatever they are, the selected table is there: removing it selects none, and every
other operation leaves it in place. So the selected variables can always be read.
-/

namespace HttpWorkbench

namespace EnvironmentStore

/-- A store made of tables or read from a file, after any row of operations with texts for the names
of tables that succeeded. An operation that fails leaves the store as it was. -/
inductive Reachable : EnvironmentStore → Prop
  | make {environments active : Value} {store : EnvironmentStore}
      (h : make environments active = .ok store) : Reachable store
  | load {files : Files} {path : Path} {store : EnvironmentStore}
      (h : load files path = .ok store) : Reachable store
  | add {store store' : EnvironmentStore} (hstore : Reachable store) {name : Text}
      {bindings : Value} (h : store.add (.str name) bindings = .ok store') : Reachable store'
  | remove {store store' : EnvironmentStore} (hstore : Reachable store) {name : Text}
      {removed : Bool} (h : store.remove (.str name) = .ok (removed, store')) : Reachable store'
  | activate {store store' : EnvironmentStore} (hstore : Reachable store) {name : Option Text}
      (h : store.activate (.ofText? name) = .ok store') : Reachable store'
  | setVariable {store store' : EnvironmentStore} (hstore : Reachable store) {key value : Value}
      {environment : Option Text}
      (h : store.setVariable key value (.ofText? environment) = .ok store') : Reachable store'
  | removeVariable {store store' : EnvironmentStore} (hstore : Reachable store) {key : Value}
      {environment : Option Text} {removed : Bool}
      (h : store.removeVariable key (.ofText? environment) = .ok (removed, store')) :
      Reachable store'

/-- The selected name, if there is one, is a key of the tables. -/
def SelectedThere (store : EnvironmentStore) : Prop :=
  ∀ name, store.active = some name →
    name.isKey = true ∧ Assoc.contains name store.environments = true

/-- All variables have texts for values. -/
def HasTextValues (store : EnvironmentStore) : Prop :=
  ∀ e ∈ store.environments, ∀ b ∈ e.2, ∃ value, b.2 = .str value

theorem table_eq_ok_iff {store : EnvironmentStore} {name : Value} {bindings : VariableTable} :
    store.table name = .ok bindings ↔
      name.isKey = true ∧ Assoc.get? name store.environments = some bindings := by
  unfold table Value.asKey
  by_cases hkey : name.isKey = true
  · cases hget : Assoc.get? name store.environments <;> simp [hkey, hget]
  · simp [hkey, misused]

/-! ## What the operations do -/

/-- A store with a table under a name, new or in place of the one there. -/
def withTable (store : EnvironmentStore) (name : Value) (bindings : VariableTable) :
    EnvironmentStore :=
  { store with environments := Assoc.put name bindings store.environments }

section Operations

variable {store store' : EnvironmentStore}

/-- Adding puts the given variables under the name. -/
theorem exists_of_add {name bindings : Value} (h : store.add name bindings = .ok store') :
    ∃ key table, (bindings.orElse (.map [])).toDictionary = .ok table ∧
      store' = store.withTable key table := by
  obtain ⟨table, htable, h⟩ := bind_eq_ok_iff.mp h
  obtain ⟨key, -, h⟩ := bind_eq_ok_iff.mp h
  exact ⟨key, table, htable, (Except.ok.inj h).symm⟩

/-- Removing drops the table with the name, and the selection if it was selected, or there is no such
table. -/
theorem remove_cases {name : Value} {removed : Bool} (h : store.remove name = .ok (removed, store')) :
    store' = store ∨ ∃ key, name.asKey = .ok key ∧ store' =
      { environments := Assoc.erase key store.environments
        active := if store.active.any (·.isEqual key) then none else store.active } := by
  obtain ⟨key, hkey, h⟩ := bind_eq_ok_iff.mp h
  split at h
  · exact .inr ⟨key, hkey, (congrArg Prod.snd (Except.ok.inj h)).symm⟩
  · exact .inl (congrArg Prod.snd (Except.ok.inj h)).symm

/-- Setting a variable puts it into the table that is meant. -/
theorem exists_of_setVariable {key value environment : Value}
    (h : store.setVariable key value environment = .ok store') :
    ∃ name table key', store.target environment = .ok name ∧ store.table name = .ok table ∧
      key.asKey = .ok key' ∧ store' = store.withTable name (Assoc.put key' value table) := by
  obtain ⟨name, htarget, h⟩ := bind_eq_ok_iff.mp h
  obtain ⟨table, htable, h⟩ := bind_eq_ok_iff.mp h
  obtain ⟨key', hkey, h⟩ := bind_eq_ok_iff.mp h
  exact ⟨name, table, key', htarget, htable, hkey, (Except.ok.inj h).symm⟩

/-- Removing a variable takes it out of the table that is meant, unless that is empty. -/
theorem exists_of_removeVariable {key environment : Value} {removed : Bool}
    (h : store.removeVariable key environment = .ok (removed, store')) :
    ∃ name table, store.target environment = .ok name ∧ store.table name = .ok table ∧
      (table = [] ∧ store' = store ∨
        ∃ key', key.asKey = .ok key' ∧ store' = store.withTable name (Assoc.erase key' table)) := by
  obtain ⟨name, htarget, h⟩ := bind_eq_ok_iff.mp h
  obtain ⟨table, htable, h⟩ := bind_eq_ok_iff.mp h
  refine ⟨name, table, htarget, htable, ?_⟩
  split at h
  · rename_i hempty
    exact .inl ⟨List.isEmpty_iff.mp hempty, (congrArg Prod.snd (Except.ok.inj h)).symm⟩
  · obtain ⟨key', hkey, h⟩ := bind_eq_ok_iff.mp h
    exact .inr ⟨key', hkey, (congrArg Prod.snd (Except.ok.inj h)).symm⟩

end Operations

/-! ## The selected table -/

/-- What activation selects is there. -/
theorem selectedThere_activate {store store' : EnvironmentStore} {name : Value}
    (h : store.activate name = .ok store') : store'.SelectedThere := by
  unfold activate at h
  split at h
  · obtain rfl := Except.ok.inj h
    intro name hname
    cases hname
  · obtain ⟨bindings, htable, hactive⟩ := bind_eq_ok_iff.mp h
    obtain rfl := Except.ok.inj hactive
    obtain ⟨hkey, hget⟩ := table_eq_ok_iff.mp htable
    intro selected hselected
    obtain rfl := Option.some.inj hselected
    exact ⟨hkey, Assoc.contains_of_get? hget⟩

/-- A table more, or another in place of one, leaves the selected one there. -/
theorem SelectedThere.withTable {store : EnvironmentStore} (hstore : store.SelectedThere)
    (name : Value) (bindings : VariableTable) : (store.withTable name bindings).SelectedThere := by
  intro selected hselected
  obtain ⟨hkey, hthere⟩ := hstore selected hselected
  exact ⟨hkey, Assoc.contains_put hthere⟩

/-- A new store selects nothing, or what it was told to select. -/
theorem selectedThere_make {environments active : Value} {store : EnvironmentStore}
    (h : EnvironmentStore.make environments active = .ok store) : store.SelectedThere := by
  obtain ⟨tables, -, h⟩ := bind_eq_ok_iff.mp h
  cases active with
  | null =>
    obtain rfl := Except.ok.inj h
    intro name hname
    cases hname
  | _ => exact selectedThere_activate h

theorem selectedThere_ofDocument {data : Value} {path : Path} {store : EnvironmentStore}
    (h : ofDocument data path = .ok store) : store.SelectedThere := by
  unfold ofDocument at h
  simp only at h
  split at h
  · obtain ⟨entries, -, h⟩ := bind_eq_ok_iff.mp h
    obtain ⟨made, hmade, h⟩ := bind_eq_ok_iff.mp h
    split at h
    · exact selectedThere_activate h
    · obtain rfl := Except.ok.inj h
      exact selectedThere_make hmade
  · cases h

theorem selectedThere_load {files : Files} {path : Path} {store : EnvironmentStore}
    (h : load files path = .ok store) : store.SelectedThere := by
  obtain ⟨there, -, h⟩ := bind_eq_ok_iff.mp h
  split at h
  · obtain ⟨data, -, h⟩ := bind_eq_ok_iff.mp h
    exact selectedThere_ofDocument h
  · obtain rfl := Except.ok.inj h
    intro name hname
    cases hname

/-- Removing the selected table selects none; removing another one leaves the selected one there. -/
theorem SelectedThere.remove {store store' : EnvironmentStore} (hstore : store.SelectedThere)
    {name : Text} {removed : Bool} (h : store.remove (.str name) = .ok (removed, store')) :
    store'.SelectedThere := by
  rcases remove_cases h with rfl | ⟨key, hkey, rfl⟩
  · exact hstore
  · obtain rfl : .str name = key := Except.ok.inj hkey
    intro selected hselected
    simp only at hselected
    split at hselected
    · cases hselected
    · obtain ⟨hselectedKey, hthere⟩ := hstore selected hselected
      refine ⟨hselectedKey, ?_⟩
      obtain ⟨e, he, hsame⟩ := List.any_eq_true.mp hthere
      refine List.any_eq_true.mpr ⟨e, List.mem_filter.mpr ⟨he, ?_⟩, hsame⟩
      -- the entry of the selected name is not the removed one, or the selection would be gone
      rw [Bool.not_eq_true', Bool.eq_false_iff]
      intro hremoved
      have hentry : e.1 = .str name := Value.eq_str_of_same hremoved
      rw [hentry] at hsame
      obtain rfl : selected = .str name := Value.eq_str_of_str_same hsame
      simp_all [Value.isEqual, Value.same]

theorem SelectedThere.add {store store' : EnvironmentStore} (hstore : store.SelectedThere)
    {name bindings : Value} (h : store.add name bindings = .ok store') : store'.SelectedThere := by
  obtain ⟨key, table, -, rfl⟩ := exists_of_add h
  exact hstore.withTable key table

theorem SelectedThere.setVariable {store store' : EnvironmentStore} (hstore : store.SelectedThere)
    {key value environment : Value} (h : store.setVariable key value environment = .ok store') :
    store'.SelectedThere := by
  obtain ⟨name, table, key', -, -, -, rfl⟩ := exists_of_setVariable h
  exact hstore.withTable name _

theorem SelectedThere.removeVariable {store store' : EnvironmentStore}
    (hstore : store.SelectedThere) {key environment : Value} {removed : Bool}
    (h : store.removeVariable key environment = .ok (removed, store')) : store'.SelectedThere := by
  obtain ⟨name, table, -, -, ⟨-, rfl⟩ | ⟨key', -, rfl⟩⟩ := exists_of_removeVariable h
  · exact hstore
  · exact hstore.withTable name _

/-- In every store that can be reached, the selected table is there. -/
theorem Reachable.selectedThere {store : EnvironmentStore} (h : store.Reachable) :
    store.SelectedThere := by
  induction h with
  | make h => exact selectedThere_make h
  | load h => exact selectedThere_load h
  | add _ h ih => exact ih.add h
  | remove _ h ih => exact ih.remove h
  | activate _ h _ => exact selectedThere_activate h
  | setVariable _ h ih => exact ih.setVariable h
  | removeVariable _ h ih => exact ih.removeVariable h

/-- The selected variables of a store that can be reached can be read: they are those of the
selected table, and none when none is selected. -/
theorem Reachable.exists_bindings {store : EnvironmentStore} (h : store.Reachable) :
    ∃ table, store.bindings .null = .ok table ∧
      ((store.active = none ∧ table = []) ∨ ∃ e ∈ store.environments, e.2 = table) := by
  unfold bindings
  cases hactive : store.active with
  | none => exact ⟨[], rfl, Or.inl ⟨rfl, rfl⟩⟩
  | some name =>
    obtain ⟨hkey, hthere⟩ := h.selectedThere name hactive
    obtain ⟨table, hget⟩ := Assoc.exists_get?_of_contains hthere
    exact ⟨table, table_eq_ok_iff.mpr ⟨hkey, hget⟩, Or.inr (Assoc.exists_mem_of_get? hget)⟩

/-- What holds of every variable holds of the selected ones. -/
theorem Reachable.exists_bindings_forall {store : EnvironmentStore} (h : store.Reachable)
    {p : Value × Value → Prop} (hall : ∀ e ∈ store.environments, ∀ b ∈ e.2, p b) :
    ∃ table, store.bindings .null = .ok table ∧ ∀ b ∈ table, p b := by
  obtain ⟨table, hbindings, ⟨-, rfl⟩ | ⟨e, he, rfl⟩⟩ := h.exists_bindings
  · exact ⟨[], hbindings, nofun⟩
  · exact ⟨e.2, hbindings, hall e he⟩

end EnvironmentStore

end HttpWorkbench
