import HttpWorkbench.CommandLine.RequestInput
import HttpWorkbench.Export.Program
import HttpWorkbench.Proofs.Failing
import HttpWorkbench.Proofs.Request.Parsed

/-!
# What cannot be interrupted

Only an exchange can be stopped by the user. Reading the request and the environments of a command,
resolving the one against the others, and reporting on the program for it end in a result or in a
failure of another kind.
-/

namespace HttpWorkbench

/-- The failure is not that of a user who stopped an exchange. -/
def Failure.IsUninterrupted (failure : Failure) : Prop := ∀ detail, failure ≠ .interrupted detail

open Failure (IsUninterrupted)

theorem Failure.IsMisuse.isUninterrupted {failure : Failure} (h : failure.IsMisuse) :
    failure.IsUninterrupted := by
  obtain ⟨cause, rfl⟩ := h
  exact nofun

/-- A step that can only misuse values is not interrupted. -/
theorem FailsOnly.uninterrupted {α : Type} {x : Result α} (h : FailsOnly Failure.IsMisuse x) :
    FailsOnly IsUninterrupted x := h.imp fun _ => Failure.IsMisuse.isUninterrupted

theorem uninterrupted_misused {α : Type} (cause : Misuse) :
    FailsOnly IsUninterrupted (misused cause : Result α) := (failsOnly_misused cause).uninterrupted

namespace Files

theorem uninterrupted_pathExists (files : Files) (path : Path) :
    FailsOnly IsUninterrupted (files.pathExists path) := by
  unfold pathExists
  split
  · exact .ok _
  · split
    · exact .ok _
    · exact .ok _
    · exact .error nofun
    · exact .ok _

theorem uninterrupted_readDocument (files : Files) (path : Path) {failures : DocumentFailures}
    (hmalformed : ∀ fault, (failures.malformed fault).IsUninterrupted)
    (hunreadable : ∀ fault, (failures.unreadable fault).IsUninterrupted) :
    FailsOnly IsUninterrupted (files.readDocument path failures) := by
  refine FailsOnly.bind (.mapError fun fault _ => ?_) fun content =>
    FailsOnly.bind (.mapError fun fault _ => nofun) fun text => .mapError fun fault _ => ?_
  · cases fault with
    | file fault => exact hunreadable fault
    | _ => exact nofun
  · cases fault with
    | malformed fault => exact hmalformed fault
    | excessive cause => exact nofun

end Files

namespace SavedRequest

theorem uninterrupted_lineText (v : Value) : FailsOnly IsUninterrupted (Json.lineText v) := by
  unfold Json.lineText
  dsimp only
  split
  · exact .ok _
  · rename_i fault _
    cases fault <;> exact .error nofun

theorem uninterrupted_headersOf (source : Text) (given : Value) :
    FailsOnly IsUninterrupted (headersOf source given) := by
  unfold headersOf
  split
  · refine FailsOnly.bind (.mapM fun entry _ => ?_) fun tables =>
      FailsOnly.bind (.mapM fun es _ => ?_) fun pairs => .ok _
    · split
      · exact .ok _
      · exact .error nofun
    · exact (Value.failsOnly_asKey _).uninterrupted.bind fun key => .ok _
  · exact .ok _
  · exact .error nofun

theorem uninterrupted_bodyOf (given : Value) : FailsOnly IsUninterrupted (bodyOf given) := by
  unfold bodyOf
  split
  · exact .ok _
  · exact .ok _
  · exact (uninterrupted_lineText _).bind fun text => .ok _

theorem uninterrupted_ofDocument (data : Value) (source : Text) (supply : Supply) :
    FailsOnly IsUninterrupted (ofDocument data source supply) := by
  cases data with
  | map entries =>
    rw [ofDocument_map]
    split
    · exact (uninterrupted_headersOf _ _).bind fun headers =>
        (uninterrupted_bodyOf _).bind fun body => .ok _
    · exact .error nofun
  | _ => exact .error nofun

theorem uninterrupted_load (files : Files) (path : Path) (supply : Supply) :
    FailsOnly IsUninterrupted (load files path supply) := by
  have hread : FailsOnly IsUninterrupted (files.readDocument path (documentFailures path) >>=
      fun data => ofDocument data path.text supply) :=
    (files.uninterrupted_readDocument path (fun _ _ => Failure.noConfusion)
      fun _ _ => Failure.noConfusion).bind fun data => uninterrupted_ofDocument data path.text supply
  refine (files.uninterrupted_pathExists path).bind fun there => ?_
  cases there with
  | false => exact .error nofun
  | true => exact hread

theorem uninterrupted_ofStream (text source : Text) (supply : Supply) :
    FailsOnly IsUninterrupted (ofStream text source supply) := by
  unfold ofStream
  split
  · exact uninterrupted_ofDocument _ _ _
  · rename_i fault _
    cases fault <;> exact .error nofun

end SavedRequest

namespace EnvironmentStore

theorem uninterrupted_table (store : EnvironmentStore) (name : Value) :
    FailsOnly IsUninterrupted (store.table name) := by
  refine (Value.failsOnly_asKey name).uninterrupted.bind fun key => ?_
  split
  · exact .ok _
  · exact .error nofun

theorem uninterrupted_activate (store : EnvironmentStore) (name : Value) :
    FailsOnly IsUninterrupted (store.activate name) := by
  unfold activate
  split
  · exact .ok _
  · exact (store.uninterrupted_table _).bind fun _ => .ok _

theorem failsOnly_tablesOfValue (environments : Value) :
    FailsOnly Failure.IsMisuse (tablesOfValue environments) :=
  (Value.failsOnly_entriesFor _ _).bind fun _ =>
    .mapM fun _ _ => (Value.failsOnly_toDictionary _).bind fun _ => .ok _

theorem uninterrupted_ofDocument (data : Value) (path : Path) :
    FailsOnly IsUninterrupted (ofDocument data path) := by
  cases data with
  | map entries =>
    refine ((failsOnly_tablesOfValue _).uninterrupted.bind fun tables => .ok _).bind fun store => ?_
    dsimp only
    split
    · exact store.uninterrupted_activate _
    · exact .ok _
  | _ => exact .error nofun

theorem uninterrupted_load (files : Files) (path : Path) :
    FailsOnly IsUninterrupted (load files path) := by
  refine (files.uninterrupted_pathExists path).bind fun there => ?_
  cases there with
  | false => exact .ok _
  | true =>
    exact (files.uninterrupted_readDocument path (fun _ _ => Failure.noConfusion)
      fun _ _ => Failure.noConfusion).bind fun data => uninterrupted_ofDocument data path

theorem uninterrupted_resolve (store : EnvironmentStore) (v : Value) :
    FailsOnly IsUninterrupted (store.resolve v) := by
  have hbindings : FailsOnly IsUninterrupted (store.bindings .null) := by
    unfold bindings
    split
    · exact .ok _
    · exact store.uninterrupted_table _
    · exact store.uninterrupted_table _
  unfold resolve
  split
  · exact .ok v
  · refine (Value.failsOnly_isIn _ _).uninterrupted.bind fun mayHold => ?_
    split
    · exact .ok v
    · refine hbindings.bind fun table => ?_
      split
      · exact ((Value.failsOnly_joinFrom _ _ _).bind fun parts => .ok _).uninterrupted.bind
          fun resolved => .ok _
      · exact uninterrupted_misused _

theorem uninterrupted_resolveRequest (store : EnvironmentStore) (r : SavedRequest) :
    FailsOnly IsUninterrupted (store.resolveRequest r) := by
  have hentries (entries : List (Value × Value)) :
      FailsOnly IsUninterrupted (store.resolveEntries entries) :=
    FailsOnly.bind (.mapM fun e _ => (store.uninterrupted_resolve _).bind fun k =>
      (store.uninterrupted_resolve _).bind fun v => .ok _) fun pairs => .ok _
  refine (store.uninterrupted_resolve _).bind fun url =>
    (Value.failsOnly_entriesFor _ _).uninterrupted.bind fun entries =>
      (hentries entries).bind fun headers => ?_
  split
  · exact .ok _
  · exact (store.uninterrupted_resolve _).bind fun body => .ok _

end EnvironmentStore

namespace Export

theorem failsOnly_headersOfValue (headers : Value) :
    FailsOnly Failure.IsMisuse (Descriptor.headersOfValue headers) := by
  have hparts (v : Value) : FailsOnly Failure.IsMisuse v.twoParts := by
    unfold Value.twoParts
    split
    · exact failsOnly_misused _
    · exact .ok _
    · split
      · exact failsOnly_misused _
      · exact failsOnly_misused _
  unfold Descriptor.headersOfValue
  split
  · exact .ok _
  · split
    · exact .ok _
    · refine (Value.failsOnly_items _).bind fun items => .mapM fun item _ => ?_
      unfold Descriptor.headerOfItem
      split
      · exact .ok _
      · exact .ok _
      · exact (hparts _).bind fun parts => .ok _

theorem uninterrupted_generatorFor (registry : Registry) (language : Value) :
    FailsOnly IsUninterrupted (generatorFor registry language) := by
  have hfind : FailsOnly IsUninterrupted (registry.find language) := by
    unfold Registry.find
    split
    · exact .ok _
    · exact .error nofun
  refine FailsOnly.bind (hfind.bind fun found => ?_) fun shared => .ok _
  dsimp only
  split
  · exact .ok _
  · refine FailsOnly.bind ?_ fun g => .ok _
    unfold GeneratorClass.instantiate
    split
    · exact .ok _
    · exact uninterrupted_misused _

theorem uninterrupted_report (registry : Registry) (r : SavedRequest) (language : Value) :
    FailsOnly IsUninterrupted (report registry (.saved r) language) :=
  ((failsOnly_headersOfValue _).bind fun _ => .ok _).uninterrupted.bind fun _ =>
    (uninterrupted_generatorFor registry language).bind fun _ => .ok _

end Export

namespace CommandLine

theorem uninterrupted_loadingFailure {failure : Failure} (h : failure.IsUninterrupted) :
    (loadingFailure failure).IsUninterrupted := by
  unfold loadingFailure
  split
  · exact nofun
  · exact nofun
  · exact h

theorem uninterrupted_baseRequest (o : RequestOptions) (input : Text) (files : Files)
    (supply : Supply) : FailsOnly IsUninterrupted (baseRequest o input files supply) := by
  unfold baseRequest
  split
  · exact .mapError ((SavedRequest.uninterrupted_load _ _ _).imp fun _ =>
      uninterrupted_loadingFailure)
  · exact .mapError ((SavedRequest.uninterrupted_ofStream _ _ _).imp fun _ =>
      uninterrupted_loadingFailure)
  · exact (((SavedRequest.shape.failsOnly_arguments _).imp fun _ => Failure.IsWrongKind.isMisuse).bind
      fun args => .ok _).uninterrupted
  · exact .error nofun

theorem uninterrupted_override (o : RequestOptions) (r : SavedRequest) :
    FailsOnly IsUninterrupted (override o r) := by
  have hargument (v : Value) : FailsOnly Failure.IsMisuse (HeaderArgument.ofValue v) := by
    unfold HeaderArgument.ofValue
    split
    · exact .ok _
    · exact failsOnly_misused _
    · exact failsOnly_misused _
  have htable : FailsOnly Failure.IsMisuse (HeaderArgument.tableOfValue (.list o.headers)) :=
    (Value.failsOnly_items _).bind fun items =>
      FailsOnly.bind (.mapM fun v _ => hargument v) fun arguments => .ok _
  exact htable.uninterrupted.bind fun table => .ok _

theorem uninterrupted_environmentsIn (o : RequestOptions) (settings : Settings) (files : Files) :
    FailsOnly IsUninterrupted (environmentsIn o settings files) := by
  have hpath (v : Value) : FailsOnly Failure.IsMisuse (Path.ofValue v) := by
    unfold Path.ofValue
    split
    · exact .ok _
    · exact failsOnly_misused _
    · exact failsOnly_misused _
  unfold environmentsIn
  dsimp only
  split
  · exact .ok _
  · refine (hpath _).uninterrupted.bind fun path =>
      (EnvironmentStore.uninterrupted_load files path).bind fun store => ?_
    split
    · exact (store.uninterrupted_activate _).map _
    · exact .ok _

end CommandLine

end HttpWorkbench
