import HttpWorkbench.Proofs.Environment.Reachable
import HttpWorkbench.Proofs.Failing

/-!
# Runs of a store

A store that is made or loaded goes through any row of operations, some of which fail. The selection
always leads to a table, so the selected variables can be read. An operation that fails changes
nothing; it fails because a table that it is about is not there, or because of what a value is. And a
variable is set or removed without touching anything else.
-/

namespace HttpWorkbench

namespace Assoc

variable {κ ν : Type} [BEq κ] {k : κ} {v : ν} {entries : List (κ × ν)}

/-- Setting the value at a key that is there changes one entry in its place. -/
theorem exists_put_eq (h : contains k entries = true) :
    ∃ front e back, entries = front ++ e :: back ∧ (∀ d ∈ front, (d.1 == k) = false) ∧
      (e.1 == k) = true ∧ ∀ v, put k v entries = front ++ (e.1, v) :: back := by
  induction entries with
  | nil => cases h
  | cons e entries ih =>
    by_cases he : (e.1 == k) = true
    · exact ⟨[], e, entries, rfl, nofun, he, fun v => by rw [put, if_pos he]; rfl⟩
    · rw [contains, List.any_cons, Bool.or_eq_true] at h
      obtain ⟨front, e', back, hentries, hfront, he', hput⟩ := ih (h.resolve_left he)
      refine ⟨e :: front, e', back, by rw [hentries]; rfl, ?_, he', fun v => ?_⟩
      · exact List.forall_mem_cons.mpr ⟨Bool.eq_false_iff.mpr he, hfront⟩
      · rw [put, if_neg he, hput]
        rfl

/-- The first entry with a key is the one that is found. -/
theorem get?_append_cons {front back : List (κ × ν)} {k' : κ}
    (hfront : ∀ d ∈ front, (d.1 == k) = false) (hk : (k' == k) = true) :
    get? k (front ++ (k', v) :: back) = some v := by
  induction front with
  | nil => rw [List.nil_append, get?, if_pos hk]
  | cons d front ih =>
    rw [List.forall_mem_cons] at hfront
    rw [List.cons_append, get?, if_neg (Bool.eq_false_iff.mp hfront.1), ih hfront.2]

/-- A key that is the same as itself has the value that was set. -/
theorem get?_put_of_beq (hk : (k == k) = true) : get? k (put k v entries) = some v := by
  induction entries with
  | nil => rw [put, get?, if_pos hk]
  | cons e entries ih =>
    by_cases he : (e.1 == k) = true
    · rw [put, if_pos he, get?, if_pos he]
    · rw [put, if_neg he, get?, if_neg he, ih]

/-- Apart from the key, a dictionary is the same after its value was set. -/
theorem erase_put (hk : (k == k) = true) : erase k (put k v entries) = erase k entries := by
  induction entries with
  | nil => simp [put, erase, hk]
  | cons e entries ih =>
    by_cases he : (e.1 == k) = true
    · simp [put, erase, he]
    · rw [erase] at ih ⊢
      simp [put, he, ih, erase]

theorem erase_erase : erase k (erase k entries) = erase k entries := by simp [erase]

/-- A key that was removed is not found. -/
theorem get?_erase_eq_none : get? k (erase k entries) = none := by
  induction entries with
  | nil => rfl
  | cons e entries ih =>
    by_cases he : (e.1 == k) = true
    · simpa [erase, he] using ih
    · simpa [erase, he, get?] using ih

end Assoc

namespace EnvironmentStore

/-- An operation on a store, with texts for names, keys and values. -/
inductive Operation where
  | add (name : Text) (bindings : Value)
  | remove (name : Text)
  | activate (name : Option Text)
  | setVariable (key value : Text) (environment : Option Text)
  | removeVariable (key : Text) (environment : Option Text)
  | bindings (environment : Option Text)
  | resolve (text : Text)

/-- The store that an operation gives. Reading gives the same store. -/
def run (store : EnvironmentStore) : Operation → Result EnvironmentStore
  | .add name bindings => store.add (.str name) bindings
  | .remove name => (store.remove (.str name)).map Prod.snd
  | .activate name => store.activate (.ofText? name)
  | .setVariable key value environment =>
    store.setVariable (.str key) (.str value) (.ofText? environment)
  | .removeVariable key environment =>
    (store.removeVariable (.str key) (.ofText? environment)).map Prod.snd
  | .bindings environment => (store.bindings (.ofText? environment)).map fun _ => store
  | .resolve text => (store.resolve (.str text)).map fun _ => store

/-- The store after an operation, which is the one before if the operation fails. -/
def step (store : EnvironmentStore) (operation : Operation) : EnvironmentStore :=
  (store.run operation).toOption.getD store

/-- The store after a row of operations. -/
def after (store : EnvironmentStore) (operations : List Operation) : EnvironmentStore :=
  operations.foldl step store

/-- A table is there under the name. -/
def HasTable (store : EnvironmentStore) (name : Value) : Prop :=
  name.isKey = true ∧ Assoc.contains name store.environments = true

/-- The name of the table that is meant: the one given, or the selected one. -/
def meant? (store : EnvironmentStore) (environment : Option Text) : Option Value :=
  (environment.map .str).or store.active

/-- The operation is about a table that is not there. -/
def Lacks (store : EnvironmentStore) : Operation → Prop
  | .activate (some name) | .bindings (some name) => ¬store.HasTable (.str name)
  | .setVariable _ _ environment | .removeVariable _ environment =>
    ∀ name, store.meant? environment = some name → ¬store.HasTable name
  | _ => False

section Runs

variable {store store' : EnvironmentStore} {operation : Operation}

theorem exists_of_map_snd_eq_ok {α β : Type} {x : Result (α × β)} {b : β}
    (h : x.map Prod.snd = .ok b) : ∃ a, x = .ok (a, b) := by
  cases x with
  | error failure => cases h
  | ok r =>
    obtain rfl := Except.ok.inj h
    exact ⟨r.1, rfl⟩

theorem eq_of_map_const_eq_ok {α β : Type} {x : Result α} {b b' : β}
    (h : (x.map fun _ => b) = .ok b') : b = b' := by
  cases x with
  | error failure => cases h
  | ok a => exact Except.ok.inj h

/-- An operation that succeeds leads on. -/
theorem Reachable.of_run (hstore : store.Reachable) (h : store.run operation = .ok store') :
    store'.Reachable := by
  cases operation with
  | add name bindings => exact hstore.add h
  | remove name =>
    obtain ⟨removed, hremove⟩ := exists_of_map_snd_eq_ok h
    exact hstore.remove hremove
  | activate name => exact hstore.activate h
  | setVariable key value environment => exact hstore.setVariable h
  | removeVariable key environment =>
    obtain ⟨removed, hremove⟩ := exists_of_map_snd_eq_ok h
    exact hstore.removeVariable hremove
  | bindings environment => exact eq_of_map_const_eq_ok h ▸ hstore
  | resolve text => exact eq_of_map_const_eq_ok h ▸ hstore

theorem step_of_error {failure : Failure} (h : store.run operation = .error failure) :
    store.step operation = store := by
  rw [step, h]
  rfl

/-- Every operation leads on, whether it succeeds or not. -/
theorem Reachable.step (hstore : store.Reachable) (operation : Operation) :
    (store.step operation).Reachable := by
  cases h : store.run operation with
  | error failure =>
    rw [step_of_error h]
    exact hstore
  | ok store' =>
    rw [EnvironmentStore.step, h]
    exact hstore.of_run h

/-- So does every row of operations. -/
theorem Reachable.after (hstore : store.Reachable) (operations : List Operation) :
    (store.after operations).Reachable := by
  induction operations generalizing store with
  | nil => exact hstore
  | cons operation operations ih => exact ih (hstore.step operation)

end Runs

section Failures

variable {store : EnvironmentStore} {name : Value}

/-- A table that is not there is unknown, and there is no other failure with a name. -/
theorem failsOnly_table (hkey : name.isKey = true) :
    FailsOnly (fun failure => ¬store.HasTable name ∧
      failure = .environment (.unknown name.text)) (store.table name) := by
  unfold table Value.asKey
  rw [if_pos hkey, ok_bind]
  split
  · exact .ok _
  · rename_i hnone
    refine .error ⟨fun hthere => ?_, rfl⟩
    obtain ⟨bindings, hget⟩ := Assoc.exists_get?_of_contains hthere.2
    rw [hnone] at hget
    cases hget

theorem exists_table_of_hasTable (h : store.HasTable name) :
    ∃ bindings, store.table name = .ok bindings := by
  obtain ⟨bindings, hget⟩ := Assoc.exists_get?_of_contains h.2
  exact ⟨bindings, table_eq_ok_iff.mpr ⟨h.1, hget⟩⟩

theorem hasTable_of_table {bindings : VariableTable} (h : store.table name = .ok bindings) :
    store.HasTable name := by
  obtain ⟨hkey, hget⟩ := table_eq_ok_iff.mp h
  exact ⟨hkey, Assoc.contains_of_get? hget⟩

theorem table_of_not_hasTable (hkey : name.isKey = true) (h : ¬store.HasTable name) :
    store.table name = .error (.environment (.unknown name.text)) := by
  cases htable : store.table name with
  | ok bindings => exact absurd (hasTable_of_table htable) h
  | error failure => rw [(failsOnly_table hkey failure htable).2]

theorem target_of_none {environment : Option Text} (h : store.meant? environment = none) :
    store.target (.ofText? environment) = .error (.environment .noneSelected) := by
  cases environment with
  | some name => cases h
  | none =>
    have hactive : store.active = none := h
    simp [Value.ofText?, target, hactive]

theorem target_of_some {environment : Option Text} (h : store.meant? environment = some name) :
    store.target (.ofText? environment) = (store.table name).map fun _ => name := by
  cases environment with
  | some meant =>
    obtain rfl : .str meant = name := Option.some.inj h
    cases htable : store.table (.str meant) <;> simp [target, Value.ofText?, htable, Except.map]
  | none =>
    have hactive : store.active = some name := h
    cases htable : store.table name <;>
      simp [target, Value.ofText?, hactive, htable, Except.map]

/-- What an operation is about is the table that is meant. -/
theorem target_eq_ok_iff {environment : Option Text} :
    store.target (.ofText? environment) = .ok name ↔
      store.meant? environment = some name ∧ store.HasTable name := by
  cases hmeant : store.meant? environment with
  | none => simp [target_of_none hmeant]
  | some meant =>
    rw [target_of_some hmeant]
    constructor
    · intro h
      cases htable : store.table meant with
      | error failure => simp [htable, Except.map] at h
      | ok bindings =>
        simp only [htable, Except.map, Except.ok.injEq] at h
        exact h ▸ ⟨rfl, hasTable_of_table htable⟩
    · rintro ⟨heq, hthere⟩
      obtain rfl := Option.some.inj heq
      obtain ⟨bindings, htable⟩ := exists_table_of_hasTable hthere
      rw [htable]
      rfl

/-- The name of the table that is meant is a key. -/
theorem isKey_of_meant (hstore : store.SelectedThere) {environment : Option Text}
    (h : store.meant? environment = some name) : name.isKey = true := by
  cases environment with
  | some meant =>
    obtain rfl : .str meant = name := Option.some.inj h
    rfl
  | none => exact (hstore name h).1

/-- Without the table that is meant, an operation about it fails. -/
theorem exists_target_eq_error (hstore : store.SelectedThere) {environment : Option Text}
    (h : ∀ name, store.meant? environment = some name → ¬store.HasTable name) :
    ∃ reason, store.target (.ofText? environment) = .error (.environment reason) := by
  cases hmeant : store.meant? environment with
  | none => exact ⟨_, target_of_none hmeant⟩
  | some name =>
    rw [target_of_some hmeant, table_of_not_hasTable (isKey_of_meant hstore hmeant) (h name hmeant)]
    exact ⟨_, rfl⟩

/-- And it fails for no other reason. -/
theorem failsOnly_target (environment : Option Text) :
    FailsOnly (fun _ => ∀ name, store.meant? environment = some name → ¬store.HasTable name)
      (store.target (.ofText? environment)) := by
  intro failure hfailure name hmeant hthere
  rw [target_eq_ok_iff.mpr ⟨hmeant, hthere⟩] at hfailure
  cases hfailure

/-- The selected variables of a store can be read. -/
theorem SelectedThere.exists_bindings (h : store.SelectedThere) :
    ∃ bindings, store.bindings .null = .ok bindings := by
  unfold bindings
  cases hactive : store.active with
  | none => exact ⟨[], rfl⟩
  | some name => exact exists_table_of_hasTable (h name hactive)

/-- A text is resolved unless the value of a variable is no text. -/
theorem failsOnly_resolve (hstore : store.SelectedThere) (text : Text) :
    FailsOnly Failure.IsMisuse (store.resolve (.str text)) := by
  obtain ⟨bindings, hbindings⟩ := hstore.exists_bindings
  unfold resolve
  rw [hbindings]
  split
  · exact .ok _
  · refine (Value.failsOnly_isIn _ _).bind fun mayHold => ?_
    split
    · exact .ok _
    · exact ((Value.failsOnly_joinFrom _ _ _).bind fun parts => .ok _).bind fun resolved => .ok _

/-- An operation fails because of a table that is not there or because of what a value is. -/
theorem failsOnly_run (hstore : store.SelectedThere) (operation : Operation) :
    FailsOnly (fun failure => failure.IsMisuse ∨ store.Lacks operation) (store.run operation) := by
  cases operation with
  | add name bindings =>
    have hadd : FailsOnly Failure.IsMisuse (store.add (.str name) bindings) :=
      (Value.failsOnly_toDictionary _).bind fun table =>
        (Value.failsOnly_asKey _).bind fun key => .ok _
    exact hadd.imp fun failure => .inl
  | remove name =>
    have hremove : FailsOnly Failure.IsMisuse (store.remove (.str name)) := by
      refine (Value.failsOnly_asKey _).bind fun key => ?_
      split <;> exact .ok _
    exact (hremove.map Prod.snd).imp fun failure => .inl
  | activate name =>
    cases name with
    | none => exact .ok _
    | some name =>
      exact ((failsOnly_table rfl).imp fun failure h => .inr h.1).bind fun bindings => .ok _
  | setVariable key value environment =>
    refine ((failsOnly_target environment).imp fun failure => .inr).bind_of_ok fun name hname => ?_
    obtain ⟨bindings, htable⟩ := exists_table_of_hasTable (target_eq_ok_iff.mp hname).2
    rw [htable]
    exact .ok _
  | removeVariable key environment =>
    refine FailsOnly.map (((failsOnly_target environment).imp fun failure => .inr).bind_of_ok
      fun name hname => ?_) Prod.snd
    obtain ⟨bindings, htable⟩ := exists_table_of_hasTable (target_eq_ok_iff.mp hname).2
    rw [htable, ok_bind]
    split
    · exact .ok _
    · exact .ok _
  | bindings environment =>
    cases environment with
    | none =>
      obtain ⟨bindings, hbindings⟩ := hstore.exists_bindings
      rw [run, Value.ofText?, hbindings]
      exact .ok _
    | some name => exact ((failsOnly_table rfl).imp fun failure h => .inr h.1).map _
  | resolve text => exact ((failsOnly_resolve hstore text).imp fun failure => .inl).map _

/-- Without the table that it is about, an operation fails. -/
theorem exists_run_eq_error (hstore : store.SelectedThere) {operation : Operation}
    (h : store.Lacks operation) :
    ∃ reason, store.run operation = .error (.environment reason) := by
  cases operation with
  | activate name =>
    cases name with
    | none => cases h
    | some name =>
      have htable := table_of_not_hasTable rfl h
      exact ⟨.unknown (Value.str name).text, by simp [run, Value.ofText?, activate, htable]⟩
  | setVariable key value environment =>
    obtain ⟨reason, htarget⟩ := exists_target_eq_error hstore h
    exact ⟨reason, by rw [run, setVariable, htarget, error_bind]⟩
  | removeVariable key environment =>
    obtain ⟨reason, htarget⟩ := exists_target_eq_error hstore h
    exact ⟨reason, by rw [run, removeVariable, htarget]; rfl⟩
  | bindings environment =>
    cases environment with
    | none => cases h
    | some name =>
      have htable := table_of_not_hasTable rfl h
      exact ⟨.unknown (Value.str name).text, by
        simp [run, Value.ofText?, bindings, htable, Except.map]⟩
  | _ => cases h

end Failures

section Variables

variable {store store' : EnvironmentStore} {environment : Option Text}

/-- The second store is the first one but, at most, for one variable of the table under a name. -/
structure DiffersAt (name : Value) (key : Text) (store store' : EnvironmentStore) : Prop where
  active : store'.active = store.active
  environments : ∃ front entry table back, store.environments = front ++ entry :: back ∧
    (∀ d ∈ front, (d.1 == name) = false) ∧ (entry.1 == name) = true ∧
    store'.environments = front ++ (entry.1, table) :: back ∧
    Assoc.erase (.str key) table = Assoc.erase (.str key) entry.2

theorem differsAt_self {name : Value} {key : Text} {bindings : VariableTable}
    (hbindings : store.table name = .ok bindings) : DiffersAt name key store store := by
  obtain ⟨front, entry, back, henvironments, hfront, hentry, -⟩ :=
    Assoc.exists_put_eq (hasTable_of_table hbindings).2
  exact ⟨rfl, front, entry, entry.2, back, henvironments, hfront, hentry, henvironments, rfl⟩

/-- The table under a name is replaced by one that differs from it in one variable. -/
theorem differsAt_put {name : Value} {key : Text} {bindings changed : VariableTable}
    (hbindings : store.table name = .ok bindings)
    (hchanged : Assoc.erase (.str key) changed = Assoc.erase (.str key) bindings) :
    DiffersAt name key store (store.withTable name changed) ∧
      (store.withTable name changed).table name = .ok changed := by
  obtain ⟨hkey, hget⟩ := table_eq_ok_iff.mp hbindings
  obtain ⟨front, entry, back, henvironments, hfront, hentry, hput⟩ :=
    Assoc.exists_put_eq (Assoc.contains_of_get? hget)
  have hbindings' : entry.2 = bindings := by
    rw [henvironments, Assoc.get?_append_cons hfront hentry] at hget
    exact Option.some.inj hget
  constructor
  · exact ⟨rfl, front, entry, changed, back, henvironments, hfront, hentry, hput changed,
      hchanged.trans (by rw [hbindings'])⟩
  · refine table_eq_ok_iff.mpr ⟨hkey, ?_⟩
    rw [withTable, hput changed]
    exact Assoc.get?_append_cons hfront hentry

/-- Setting a variable changes that variable of the table that is meant, and nothing else. -/
theorem differsAt_setVariable {key : Text} {value : Value}
    (h : store.setVariable (.str key) value (.ofText? environment) = .ok store') :
    ∃ name, store.meant? environment = some name ∧ DiffersAt name key store store' ∧
      ∃ table, store'.table name = .ok table ∧ Assoc.get? (.str key) table = some value := by
  obtain ⟨name, bindings, key', htarget, hbindings, hkey, rfl⟩ := exists_of_setVariable h
  obtain rfl : .str key = key' := Except.ok.inj hkey
  have hsame : (Value.str key == .str key) = true := beq_self_eq_true key
  obtain ⟨hdiffers, htable⟩ := differsAt_put hbindings (Assoc.erase_put hsame)
  exact ⟨name, (target_eq_ok_iff.mp htarget).1, hdiffers, _, htable, Assoc.get?_put_of_beq hsame⟩

/-- So does removing it. -/
theorem differsAt_removeVariable {key : Text} {removed : Bool}
    (h : store.removeVariable (.str key) (.ofText? environment) = .ok (removed, store')) :
    ∃ name, store.meant? environment = some name ∧ DiffersAt name key store store' ∧
      ∃ table, store'.table name = .ok table ∧ Assoc.get? (.str key) table = none := by
  obtain ⟨name, bindings, htarget, hbindings, hcases⟩ := exists_of_removeVariable h
  have hmeant := (target_eq_ok_iff.mp htarget).1
  obtain ⟨rfl, rfl⟩ | ⟨key', hkey, rfl⟩ := hcases
  · exact ⟨name, hmeant, differsAt_self hbindings, [], hbindings, rfl⟩
  · obtain rfl : .str key = key' := Except.ok.inj hkey
    obtain ⟨hdiffers, htable⟩ := differsAt_put hbindings Assoc.erase_erase
    exact ⟨name, hmeant, hdiffers, _, htable, Assoc.get?_erase_eq_none⟩

end Variables

/-- Whatever operations a store that was made or loaded has gone through, with whatever texts: the
selected name is that of a table, so the selected variables are read and no text fails to be resolved
for a name that is unknown. An operation fails exactly where its table is missing, or else for what a
value is, and then changes nothing. Setting or removing a variable touches no other variable, no
other table and not the selection. -/
theorem selection_kept {start : EnvironmentStore}
    (hstart : (∃ environments active, make environments active = .ok start) ∨
      ∃ files path, load files path = .ok start) (operations : List Operation) :
    (∀ name, (start.after operations).active = some name →
      (start.after operations).HasTable name) ∧
    (∃ table, (start.after operations).bindings .null = .ok table) ∧
    (∀ text name,
      (start.after operations).resolve (.str text) ≠ .error (.environment (.unknown name))) ∧
    (∀ operation failure, (start.after operations).run operation = .error failure →
      (start.after operations).step operation = start.after operations ∧
        (failure.IsMisuse ∨ (start.after operations).Lacks operation)) ∧
    (∀ operation, (start.after operations).Lacks operation →
      ∃ reason, (start.after operations).run operation = .error (.environment reason)) ∧
    (∀ (key value : Text) (environment : Option Text) (store' : EnvironmentStore),
      (start.after operations).setVariable (.str key) (.str value) (.ofText? environment) =
        .ok store' →
      ∃ name, (start.after operations).meant? environment = some name ∧
        DiffersAt name key (start.after operations) store' ∧
        ∃ table, store'.table name = .ok table ∧
          Assoc.get? (.str key) table = some (.str value)) ∧
    (∀ (key : Text) (environment : Option Text) (removed : Bool) (store' : EnvironmentStore),
      (start.after operations).removeVariable (.str key) (.ofText? environment) =
        .ok (removed, store') →
      ∃ name, (start.after operations).meant? environment = some name ∧
        DiffersAt name key (start.after operations) store' ∧
        ∃ table, store'.table name = .ok table ∧ Assoc.get? (.str key) table = none) := by
  have hreachable : start.Reachable := by
    rcases hstart with ⟨environments, active, hmake⟩ | ⟨files, path, hload⟩
    · exact .make hmake
    · exact .load hload
  have hselected := (hreachable.after operations).selectedThere
  refine ⟨hselected, hselected.exists_bindings, fun text name h => ?_, fun operation failure h => ?_,
    fun operation => exists_run_eq_error hselected, fun key value environment store' =>
    differsAt_setVariable, fun key environment removed store' => differsAt_removeVariable⟩
  · obtain ⟨cause, hcause⟩ := failsOnly_resolve hselected text _ h
    cases hcause
  · exact ⟨step_of_error h, failsOnly_run hselected operation failure h⟩

/-- The selected table is replaced and removed, so that setting a variable fails, until the table with
the empty name is selected. -/
theorem selection_kept_removed :
    ∃ start store : EnvironmentStore,
      make (.map [(.str "dev", .map [(.str "A", .str "1")]), (.str "", .map [])]) (.str "dev") =
        .ok start ∧
      start.after [.add "dev" (.map [(.str "B", .str "2")]), .remove "dev",
        .setVariable "A" "1" none, .activate (some "dev"), .activate (some ""),
        .setVariable "C" "3" none] = store ∧
      store.active = some (.str "") ∧ store.HasTable (.str "") ∧
      store.bindings .null = .ok [(.str "C", .str "3")] ∧
      (∃ reason, store.run (.setVariable "A" "1" (some "dev")) = .error (.environment reason)) ∧
      ∃ store', store.setVariable (.str "D") (.str "4") (.ofText? none) = .ok store' ∧
        DiffersAt (.str "") "D" store store' := by
  have hmake : make (.map [(.str "dev", .map [(.str "A", .str "1")]), (.str "", .map [])])
      (.str "dev") =
        .ok ⟨[(.str "dev", [(.str "A", .str "1")]), (.str "", [])], some (.str "dev")⟩ := rfl
  obtain ⟨hselected, -, -, -, hlacks, hset, -⟩ := selection_kept (.inl ⟨_, _, hmake⟩)
    [.add "dev" (.map [(.str "B", .str "2")]), .remove "dev", .setVariable "A" "1" none,
      .activate (some "dev"), .activate (some ""), .setVariable "C" "3" none]
  obtain ⟨name, hname, hdiffers, -⟩ := hset "D" "4" none _ rfl
  obtain rfl : .str "" = name := Option.some.inj hname
  refine ⟨_, _, hmake, rfl, rfl, hselected _ rfl, rfl, hlacks _ ?_, _, rfl, hdiffers⟩
  rintro name hmeant ⟨-, hthere⟩
  obtain rfl : .str "dev" = name := Option.some.inj hmeant
  cases hthere

end EnvironmentStore

end HttpWorkbench
