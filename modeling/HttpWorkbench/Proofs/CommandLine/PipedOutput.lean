import HttpWorkbench.CommandLine.Program
import HttpWorkbench.Proofs.CommandLine.Languages
import HttpWorkbench.Proofs.CommandLine.Uninterrupted
import HttpWorkbench.Proofs.Export.Reported

/-!
# Piped output

A program that is exported to the standard output can be piped on: either it is there, with a line
end behind it, or nothing is. Failures, figures and warnings go to the console for diagnostics.
-/

namespace HttpWorkbench.CommandLine

open Export
open CommandLine.Action (Ensures)
open Failure (IsUninterrupted)

/-- The standard output is the text: it was written there, and nothing was shown there. -/
def Session.Outputs (s : Session) (text : Text) : Prop :=
  s.output = text ∧ ∀ d, (.out, d) ∉ s.shown

/-- The step failed before anything came to the standard output, and not because it was stopped. -/
def FailsQuietly (failure : Failure) (s : Session) : Prop :=
  failure.IsUninterrupted ∧ s.Outputs ""

/-! ## Steps that leave the standard output alone -/

section Quiet

variable {text : Text} {E : Failure → Session → Prop}

theorem ensures_diagnostic (d : Display) :
    Ensures (·.Outputs text) (Action.show .err d) (fun _ s => s.Outputs text) E := by
  refine .show fun s hs => ⟨hs.1, fun d hd => ?_⟩
  rcases List.mem_append.mp hd with hd | hd
  · exact hs.2 d hd
  · cases List.mem_singleton.mp hd

theorem ensures_warn (message : Text) :
    Ensures (·.Outputs text) (Action.warn message) (fun _ s => s.Outputs text) E :=
  ensures_diagnostic _

/-- A result that comes without interruption changes nothing. -/
theorem ensures_ofResult {α : Type} {r : Result α} {P : Session → Prop}
    (hP : ∀ s, P s → s.Outputs "") (hr : FailsOnly IsUninterrupted r) :
    Ensures P (Action.ofResult r) (fun x s => r = .ok x ∧ P s) FailsQuietly :=
  .ofResult fun s hs => .of_failsOnly (hr.imp fun _ h => ⟨h, hP s hs⟩) fun _ h => ⟨h, hs⟩

theorem ensures_showFigures (report : Report) :
    Ensures (·.Outputs text) (showFigures report) (fun _ s => s.Outputs text) E :=
  (ensures_warn _).bind fun _ => ensures_diagnostic _

theorem ensures_showWarnings (report : Report) :
    Ensures (·.Outputs text) (showWarnings report) (fun _ s => s.Outputs text) E :=
  (ensures_warn _).bind fun _ => .forM fun _ _ => ensures_warn _

theorem ensures_warnUnsupported (registry : Registry) (language : Value) :
    Ensures (·.Outputs text) (warnUnsupported registry language) (fun _ s => s.Outputs text) E :=
  (ensures_warn _).bind fun _ => ensures_warn _

end Quiet

/-! ## The request of an export -/

/-- The request of an export: the one that is loaded, with what the options override, resolved in the
selected environment if environments are named. -/
def exportedItem (around : Surroundings) (o : RequestOptions) (settings : Settings) (files : Files)
    (supply : Supply) : Result SavedRequest := do
  let (base, _) ← baseRequest o around.input files supply
  let r ← override o base
  let environments ← environmentsIn o settings files
  match environments with
  | some store => store.resolveRequest r
  | none => .ok r

variable {around : Surroundings} {o : ExportOptions} {settings : Settings} {files : Files}
  {supply : Supply}

theorem outputs_start (files : Files) (supply : Supply) : (Session.start files supply).Outputs "" :=
  ⟨rfl, nofun⟩

theorem ensures_describedRequest (around : Surroundings) (o : RequestOptions) (files : Files)
    (supply : Supply) :
    Ensures (· = .start files supply) (describedRequest around o)
      (fun r s => ∃ base later, baseRequest o around.input files supply = .ok (base, later) ∧
        override o base = .ok r ∧ s = .start files later) FailsQuietly := by
  have hquiet (later : Supply) (s : Session) (hs : s = .start files later) : s.Outputs "" :=
    hs ▸ outputs_start files later
  refine .get_bind fun s hs => ?_
  subst hs
  refine .bind (ensures_ofResult (hquiet supply) (uninterrupted_baseRequest _ _ _ _)) ?_
  rintro ⟨base, later⟩
  have hset : Ensures
      (fun s => baseRequest o around.input files supply = .ok (base, later) ∧ s = .start files supply)
      (set { Session.start files supply with supply := later } : Action Unit)
      (fun _ s => baseRequest o around.input files supply = .ok (base, later) ∧
        s = .start files later) FailsQuietly := .set fun _ h => ⟨h.1, rfl⟩
  refine hset.bind fun _ => ?_
  exact (ensures_ofResult (fun s hs => hquiet later s hs.2) (uninterrupted_override o base)).imp
    (fun _ h => h) (fun r s h => ⟨base, later, h.2.1, h.1, h.2.2⟩) fun _ _ h => h

theorem uninterrupted_environmentFailure {failure : Failure} (h : failure.IsUninterrupted) :
    (environmentFailure failure).IsUninterrupted := by
  unfold environmentFailure
  split
  · exact nofun
  · exact h

theorem ensures_loadEnvironments {s₀ : Session} (hs₀ : s₀.Outputs "") (o : RequestOptions)
    (settings : Settings) :
    Ensures (· = s₀) (loadEnvironments o settings)
      (fun environments s => environmentsIn o settings s₀.files = .ok environments ∧ s = s₀)
      FailsQuietly := by
  refine .get_bind fun s hs => ?_
  subst hs
  have hfails : FailsOnly IsUninterrupted
      ((environmentsIn o settings s.files).mapError environmentFailure) :=
    .mapError ((uninterrupted_environmentsIn o settings s.files).imp fun _ =>
      uninterrupted_environmentFailure)
  refine (ensures_ofResult (P := (· = s)) (fun _ h => h ▸ hs₀) hfails).imp (fun _ h => h)
    (fun environments _ h => ⟨?_, h.2⟩) fun _ _ h => h
  cases hin : environmentsIn o settings s.files with
  | ok found =>
    rw [hin] at h
    exact h.1
  | error failure =>
    rw [hin] at h
    cases h.1

theorem ensures_exportedRequest (around : Surroundings) (o : RequestOptions) (settings : Settings)
    (files : Files) (supply : Supply) :
    Ensures (· = .start files supply) (exportedRequest around o settings)
      (fun item s => exportedItem around o settings files supply = .ok item ∧ s.Outputs "")
      FailsQuietly := by
  refine (ensures_describedRequest around o files supply).bind fun r => ?_
  rintro s ⟨base, later, hbase, hr, hs⟩
  subst hs
  have houtputs := outputs_start files later
  -- The request does not change any more, and the environments are found in the same files.
  have hrest : Ensures (· = .start files later)
      (loadEnvironments o settings >>= fun environments =>
        match environments with
        | some store => Action.ofResult (store.resolveRequest r)
        | none => pure r)
      (fun item s => exportedItem around o settings files supply = .ok item ∧ s.Outputs "")
      FailsQuietly := by
    refine (ensures_loadEnvironments houtputs o settings).bind fun environments =>
      .of_and fun henvironments => ?_
    have hitem : exportedItem around o settings files supply =
        environmentsIn o settings files >>= fun environments =>
          match environments with
          | some store => store.resolveRequest r
          | none => .ok r := by
      simp only [exportedItem, hbase, ok_bind, hr]
    have hin : environmentsIn o settings files = .ok environments := henvironments
    rw [hitem, hin, ok_bind]
    cases environments with
    | none => exact .pure fun s hs => ⟨rfl, hs ▸ houtputs⟩
    | some store =>
      exact (ensures_ofResult (P := (· = .start files later)) (fun _ h => h ▸ houtputs)
        (store.uninterrupted_resolveRequest r)).imp (fun _ h => h)
        (fun _ _ h => ⟨h.1, h.2 ▸ houtputs⟩) fun _ _ h => h
  exact hrest _ rfl

/-- What an export comes to: the program is on the standard output and the code is zero, or nothing is
there and the code is one. -/
def Delivers (program : Result Text) (code : Nat) (s : Session) : Prop :=
  (code = 0 ∧ ∃ text, program = .ok text ∧ s.Outputs (text ++ "\n")) ∨ code = 1 ∧ s.Outputs ""

/-- A report without a failure has the program, and one with a failure has its message. -/
theorem report_cases {registry : Registry} {source : Source} {language : Value} {report : Report}
    (h : Export.report registry source language = .ok report) :
    (report.failure = none ∧ Export.program registry source language = .ok report.code) ∨
      ∃ failure message, report.failure = some failure ∧ report.errorMessage = some message := by
  obtain ⟨d, hd, h⟩ := bind_eq_ok_iff.mp h
  obtain ⟨g, hg, h⟩ := bind_eq_ok_iff.mp h
  obtain rfl := Except.ok.inj h
  rcases Report.make_cases g d with ⟨code, hrender, hcode, hfailure⟩ | ⟨failure, _, -, hmake⟩
  · rw [program_eq_render hg hd, hrender, hcode]
    exact .inl ⟨hfailure, rfl⟩
  · rw [hmake]
    exact .inr ⟨failure, _, rfl, rfl⟩

/-- A plain program that goes to no file goes to the standard output as it is. -/
theorem ensures_deliver {E : Failure → Session → Prop} (hplain : o.plain = true)
    (houtput : given? o.output = none) (g : Generator) (code : Text) :
    Ensures (·.Outputs "") (deliver around o g code)
      (fun delivered s => delivered = true ∧ s.Outputs (code ++ "\n")) E := by
  rintro s ⟨houtput', hshown⟩
  have hdeliver : (deliver around o g code).outcome s =
      (.ok true, { s with output := s.output ++ (code ++ "\n") }) := by
    rw [deliver, houtput, hplain]
    rfl
  rw [hdeliver, houtput']
  exact ⟨rfl, rfl, hshown⟩

theorem ensures_exportRequest (hplain : o.plain = true) (houtput : given? o.output = none)
    (r : SavedRequest) (language : Value) :
    Ensures (·.Outputs "") (exportRequest around o r language)
      (Delivers (Export.program around.registry (.saved r) language)) FailsQuietly := by
  refine .bind (ensures_ofResult (fun _ h => h) (uninterrupted_report _ _ _)) fun report =>
    .of_and fun hreport => ?_
  rcases report_cases hreport with ⟨hfailure, hprogram⟩ | ⟨failure, message, hfailure, hmessage⟩
  · have hend : Ensures (·.Outputs (report.code ++ "\n")) (pure 0)
        (Delivers (Export.program around.registry (.saved r) language)) FailsQuietly :=
      .pure fun s hs => .inl ⟨rfl, report.code, hprogram, hs⟩
    rw [hfailure]
    refine .bind (ensures_ofResult (fun _ h => h) (uninterrupted_generatorFor _ _)) fun g =>
      .of_and fun _ => (ensures_deliver hplain houtput g report.code).bind fun delivered =>
        .of_and fun hdelivered => ?_
    rw [if_pos hdelivered]
    exact .ite_bind (ensures_showFigures report) (.ite_bind (ensures_showWarnings report) hend)
  · rw [hfailure, hmessage]
    exact (ensures_warn _).bind fun _ => (ensures_warn _).bind fun _ =>
      .pure fun s hs => .inr ⟨rfl, hs⟩

/-! ## Runs that export -/

/-- The program that an export is to write. -/
def exportedProgram (around : Surroundings) (o : ExportOptions) (settings : Settings) (files : Files)
    (supply : Supply) : Result Text := do
  let item ← exportedItem around o.request settings files supply
  Export.program around.registry (.saved item)
    ((Value.ofText? o.language).orElse settings.defaultLanguage)

theorem ensures_export (hplain : o.plain = true) (houtput : given? o.output = none) :
    Ensures (· = .start files supply)
      (exportedRequest around o.request settings >>= fun r =>
        exportRequest around o r ((Value.ofText? o.language).orElse settings.defaultLanguage))
      (Delivers (exportedProgram around o settings files supply)) FailsQuietly := by
  refine (ensures_exportedRequest around o.request settings files supply).bind fun item =>
    .of_and fun hitem => ?_
  rw [exportedProgram, hitem, ok_bind]
  exact ensures_exportRequest hplain houtput item _

theorem ensures_runExport (hregistry : around.registry = .standard) (hplain : o.plain = true)
    (houtput : given? o.output = none) :
    Ensures (· = .start files supply) (runExport around settings o)
      (Delivers (exportedProgram around o settings files supply)) FailsQuietly := by
  have hstandard : around.registry.IsStandard := hregistry ▸ Registry.standard_isStandard
  obtain ⟨info, hinfo⟩ : ∃ info, supportedInfo around.registry
      ((Value.ofText? o.language).orElse settings.defaultLanguage) = .ok info := by
    rcases supportedInfo_cases hstandard _ with ⟨l, info, aliases, -, hinfo, -⟩ | hnone
    · exact ⟨_, hinfo⟩
    · exact ⟨_, hnone⟩
  rw [runExport, hinfo]
  refine .bind (Q := fun found s => found = info ∧ s = .start files supply)
    (.ofResult fun s hs => ⟨rfl, hs⟩) fun found => .of_and fun hfound => ?_
  cases found with
  | none =>
    refine .bind ((ensures_warnUnsupported _ _).of_before ?_) fun _ => .pure fun s hs => .inr ⟨rfl, hs⟩
    rintro s rfl
    exact outputs_start files supply
  | some described =>
    refine (Ensures.attempt (ensures_export hplain houtput)).bind fun result => ?_
    cases result with
    | ok code => exact .pure fun s hs => hs
    | error failure =>
      cases failure with
      | command reason =>
        exact ((ensures_warn _).of_before fun s hs => hs.2).bind fun _ =>
          .pure fun s hs => .inr ⟨rfl, hs⟩
      | _ => exact .throw fun s hs => hs

/-- Failures that are told leave the standard output empty and end with code one. -/
theorem ensures_guarded {P : Session → Prop} {program : Result Text} {a : Action Nat}
    (ha : Ensures P a (Delivers program) FailsQuietly) :
    Ensures P (guarded a) (Delivers program) FailsQuietly := by
  refine (Ensures.attempt ha).bind fun result => ?_
  cases result with
  | ok code => exact .pure fun s hs => hs
  | error failure =>
    cases failure with
    | command reason | history reason =>
      exact ((ensures_warn _).of_before fun s hs => hs.2).bind fun _ =>
        .pure fun s hs => .inr ⟨rfl, hs⟩
    | interrupted detail => exact fun s hs => absurd rfl (hs.1 detail)
    | _ => exact .throw fun s hs => hs

theorem ensures_carryOut {invocation : Invocation} (hregistry : around.registry = .standard)
    (hcommand : invocation.command = some (.exportProgram o)) (hplain : o.plain = true)
    (houtput : given? o.output = none) :
    Ensures (· = .start files supply) (carryOut around invocation settings)
      (fun ending s => ∃ code, ending = .code code ∧
        Delivers (exportedProgram around o settings files supply) code s) fun _ _ => True := by
  have hrun : Ensures (· = .start files supply) (guarded (runExport around settings o))
      (Delivers (exportedProgram around o settings files supply)) FailsQuietly :=
    ensures_guarded (ensures_runExport hregistry hplain houtput)
  rw [carryOut, hcommand]
  refine .bind (Q := fun _ s => s = .start files supply)
    (.ofResult fun s hs => .of_failsOnly (fun _ _ => trivial) fun _ _ => hs) fun _ => ?_
  exact (hrun.imp (fun _ h => h) (fun _ _ h => h) fun _ _ _ => trivial).bind fun code =>
    .pure fun s hs => ⟨code, rfl, hs⟩

/-- How a plain export ends: with code zero and the program for the request, or with code one. -/
def EndsPlainly (around : Surroundings) (invocation : Invocation) (o : ExportOptions) (files : Files)
    (supply : Supply) (ending : Ending) (s : Session) : Prop :=
  (ending = .code 0 ∧ ∃ settings item text,
    Settings.load files .null (Value.ofText? invocation.settingsFile) = .ok settings ∧
    exportedItem around o.request settings files supply = .ok item ∧
    Export.program around.registry (.saved item)
      ((Value.ofText? o.language).orElse settings.defaultLanguage) = .ok text ∧
    s.Outputs (text ++ "\n")) ∨
  ending = .code 1 ∧ s.Outputs ""

theorem ensures_invoke {invocation : Invocation} (hregistry : around.registry = .standard)
    (hcommand : invocation.command = some (.exportProgram o)) (hplain : o.plain = true)
    (houtput : given? o.output = none) :
    Ensures (· = .start files supply) (invoke around invocation)
      (EndsPlainly around invocation o files supply) fun _ _ => True := by
  refine .get_bind fun s hs => ?_
  subst hs
  cases hsettings : Settings.load files .null (Value.ofText? invocation.settingsFile) with
  | error failure =>
    simp only [Session.start, hsettings]
    cases failure with
    | settings reason =>
      exact ((ensures_warn _).of_before fun s hs => hs ▸ outputs_start files supply).bind fun _ =>
        .pure fun s hs => .inr ⟨rfl, hs⟩
    | _ => exact .throw fun _ _ => trivial
  | ok settings =>
    simp only [Session.start, hsettings]
    refine (ensures_carryOut hregistry hcommand hplain houtput).imp (fun _ h => h)
      (fun ending s h => ?_) fun _ _ h => h
    obtain ⟨code, rfl, ⟨rfl, text, hprogram, hs⟩ | ⟨rfl, hs⟩⟩ := h
    · obtain ⟨item, hitem, htext⟩ := bind_eq_ok_iff.mp hprogram
      exact .inl ⟨rfl, settings, item, text, hsettings, hitem, htext, hs⟩
    · exact .inr ⟨rfl, hs⟩

/-- A run that exports a program plainly, and to no file, ends with code zero and the program and a line
end on the standard output, or with code one and nothing there. The program is that for the request
that was loaded, with what the options override, resolved in the selected environment. -/
theorem plain_export_output (around : Surroundings) (hregistry : around.registry = .standard)
    {arguments : List Text} {invocation : Invocation} {o : ExportOptions}
    (hread : Invocation.read arguments = .ok invocation)
    (hcommand : invocation.command = some (.exportProgram o)) (hplain : o.plain = true)
    (houtput : given? o.output = none) (files : Files) (supply : Supply) {ending : Ending}
    {s : Session} (hrun : run around arguments (.start files supply) = (.ok ending, s)) :
    EndsPlainly around invocation o files supply ending s := by
  have hinvoke : (invoke around invocation).outcome (.start files supply) = (.ok ending, s) := by
    rw [← hrun, run, program, hread]
    rfl
  have hends := ensures_invoke hregistry hcommand hplain houtput (.start files supply) rfl
  rw [hinvoke] at hends
  exact hends

/-- With a header that has no name, and in verbose mode, four things are shown, an empty line and the
figures, a heading and a warning, and none of them on the standard output. -/
theorem plain_export_output_verbose :
    ∃ s, run ⟨.standard, .error .timedOut, "", true⟩
        ["codegen", "-u", "https://x", "-H", ":v", "--plain", "--verbose"] (.start .empty ⟨0, 0⟩) =
        (.ok (.code 0), s) ∧
      s.Outputs "curl -X GET \"https://x\"\n" ∧ s.shown.length = 4 := by
  obtain ⟨s, hrun⟩ : ∃ s, run ⟨.standard, .error .timedOut, "", true⟩
      ["codegen", "-u", "https://x", "-H", ":v", "--plain", "--verbose"] (.start .empty ⟨0, 0⟩) =
      (.ok (.code 0), s) := ⟨_, rfl⟩
  have hwritten : s.output = "curl -X GET \"https://x\"\n" ∧ s.shown.length = 4 := by
    obtain rfl := (Prod.mk.inj hrun).2
    exact ⟨rfl, rfl⟩
  have hread : Invocation.read ["codegen", "-u", "https://x", "-H", ":v", "--plain", "--verbose"] =
      .ok ⟨none, none, some (.exportProgram ⟨⟨none, false, none, some "https://x", [.str ":v"], none,
        none, none⟩, none, none, true, true⟩)⟩ := rfl
  rcases plain_export_output _ rfl hread rfl rfl rfl .empty ⟨0, 0⟩ hrun with
    ⟨-, _, _, _, -, -, -, -, hshown⟩ | ⟨hcode, -⟩
  · exact ⟨s, hrun, ⟨hwritten.1, hshown⟩, hwritten.2⟩
  · cases hcode

end HttpWorkbench.CommandLine
