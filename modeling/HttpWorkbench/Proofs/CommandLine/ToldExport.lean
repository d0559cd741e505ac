import HttpWorkbench.Proofs.CommandLine.Languages
import HttpWorkbench.Proofs.CommandLine.OfferedInput
import HttpWorkbench.Proofs.Export.Reported

/-!
# Exports that end with a code

An export of a request made of texts is rendered without a failure, and what cannot be written to a
file is told.
-/

namespace HttpWorkbench

/-- A store that resolves texts resolves a request made of texts to another one. -/
theorem EnvironmentStore.Resolves.exists_resolveRequest {store : EnvironmentStore} {f : Text → Text}
    (h : store.Resolves f) {r : SavedRequest} (hr : r.HoldsTexts) :
    ∃ r', store.resolveRequest r = .ok r' ∧ r'.HoldsTexts := by
  obtain ⟨t, ht, hsaved⟩ := hr
  rw [← hsaved, resolveRequest_saved h.text]
  refine ⟨_, rfl, ?_⟩
  have hheaders : IsTextTable (resolvedHeaders f t.headers) := by
    refine IsTextTable.putAll nofun ?_
    rw [IsTextTable, List.forall_mem_map]
    exact fun e he => ⟨⟨_, rfl, h.clean _ (ht.headers e he).1⟩, _, rfl, h.clean _ (ht.headers e he).2⟩
  refine SavedRequest.holdsTexts_of_parts rfl rfl rfl rfl ht.method (h.clean _ ht.url) hheaders ?_
  intro s hs
  obtain ⟨body, hbody, rfl⟩ := Option.mem_map.mp hs
  exact h.clean _ (ht.body body hbody)

namespace CommandLine

open CommandLine.Action (Ensures)
open Failure (IsTold)
open Export (Registry)

/-- The options of an export fit: the request does, and the system can be given the path of the
file. -/
structure ExportOptions.Fits (o : ExportOptions) (around : Surroundings) (settings : Settings)
    (files : Files) : Prop where
  request : o.request.Fits around settings files
  output : ∀ name, given? o.output = some name → Files.pathFault? (.ofText name) = none

variable {around : Surroundings} {settings : Settings} {files : Files} {o : ExportOptions}
  {E : Failure → Session → Prop}

/-- A saved request made of texts is exported as these texts are. -/
theorem toDescriptor_saved (t : TextRequest) (r : SavedRequest) :
    Export.Source.toDescriptor (.saved (t.saved r)) = .ok t.descriptor := by
  have hheaders : Descriptor.headersOfValue (t.saved r).headers =
      .ok (t.headers.map TextRequest.header) := by
    change Descriptor.headersOfValue (.map (t.headers.map fun h => (.str h.1, .str h.2))) = _
    cases t.headers with
    | nil => rfl
    | cons h headers => exact congrArg Except.ok List.map_map
  rw [Export.Source.toDescriptor, Descriptor.ofSaved, Descriptor.make, hheaders]
  rfl

/-- The report on a request made of texts has a program that can be encoded. -/
theorem exists_report {registry : Registry} (hregistry : registry.IsStandard) {r : SavedRequest}
    (hr : r.HoldsTexts) {language : Value} {l : Language} (hl : l.IsNamedBy language) :
    ∃ report, Export.report registry (.saved r) language = .ok report ∧ report.failure = none ∧
      report.code.HasNoHalves := by
  obtain ⟨t, ht, hsaved⟩ := hr
  have hrender := Export.generator_render l t
  rw [Export.report, ← hsaved, toDescriptor_saved, ok_bind,
    hregistry.generatorFor_of_isNamedBy hl]
  refine ⟨_, rfl, ?_⟩
  rcases Export.Report.make_cases l.generator t.descriptor with
    ⟨code, hcode, hreport, hfailure⟩ | ⟨_, cause, hcause, -⟩
  · rw [hreport, ← Except.ok.inj (hrender.symm.trans hcode)]
    exact ⟨hfailure, ht.hasNoHalves_program l⟩
  · cases hrender.symm.trans hcause

/-- Saving a text that can be encoded is done, or the path leads to no file. -/
theorem yields_saveText {code : Text} (hcode : code.HasNoHalves) {path : Path}
    (hgiven : Files.pathFault? path = none) (files : Files) :
    Yields (fun _ => True) (fun fault => ∃ f, fault = .file f) (files.saveText path code).2 := by
  have hwritten := Files.yields_writeText hgiven files code
  rw [Files.saveText, Text.Utf8.encodingFault?_eq_none_iff.mpr hcode]
  simp only [Option.isSome_none, Bool.false_eq_true, if_false]
  cases hwrite : files.writeText path code with
  | ok written => trivial
  | error fault =>
    rw [hwrite] at hwritten
    exact hwritten

/-- The program goes to the standard output, to the terminal or to a file, or it is told that it
cannot be written there. -/
theorem ExportOptions.Fits.ensures_deliver (h : o.Fits around settings files)
    (g : Export.Generator) {code : Text} (hcode : code.HasNoHalves) :
    Ensures (fun _ => True) (deliver around o g code)
      (fun delivered s => delivered = false → s.TellsFailure) E := by
  have hshown {a : Action Unit} (ha : Ensures (fun _ => True) a (fun _ _ => True) E) :
      Ensures (fun _ => True) (a >>= fun _ => pure true)
        (fun delivered s => delivered = false → s.TellsFailure) E :=
    ha.bind fun _ => .pure fun _ _ => nofun
  unfold deliver
  cases houtput : given? o.output with
  | none =>
    dsimp only
    split
    · exact hshown fun _ _ => trivial
    · exact hshown (.show fun _ _ => trivial)
  | some output =>
    refine .get_bind fun s _ => ?_
    have hsaved := yields_saveText hcode (h.output output houtput) s.files
    dsimp only
    generalize s.files.saveText (Path.ofText output) code = saved at hsaved ⊢
    obtain ⟨written, result⟩ := saved
    refine .bind (Q := fun _ _ => True) (.set fun _ _ => trivial) fun _ => ?_
    cases result with
    | ok _ => exact hshown (.show fun _ _ => trivial)
    | error fault =>
      obtain ⟨f, rfl⟩ := hsaved
      exact (ensures_tells _).bind fun _ => .pure fun _ hs _ => hs

theorem ExportOptions.Fits.ensures_exportRequest (h : o.Fits around settings files)
    (hregistry : around.registry.IsStandard) {r : SavedRequest} (hr : r.HoldsTexts)
    {language : Value} {l : Language} (hl : l.IsNamedBy language) :
    Ensures (fun _ => True) (exportRequest around o r language) (EndsWithCode True around.outcome)
      E := by
  obtain ⟨report, hreport, hfailure, hcode⟩ := exists_report hregistry hr hl
  have hfigures : Ensures (fun _ => True) (showFigures report) (fun _ _ => True) E :=
    (ensures_show _ _).bind fun _ => ensures_show _ _
  have hwarnings : Ensures (fun _ => True) (showWarnings report) (fun _ _ => True) E :=
    (ensures_show _ _).bind fun _ => .forM fun _ _ => ensures_show _ _
  have hzero : Ensures (fun _ => True) (pure 0) (EndsWithCode True around.outcome) E :=
    .pure fun _ _ => .inl ⟨rfl, trivial⟩
  rw [exportRequest]
  refine .ofResult_bind hreport ?_
  rw [hfailure]
  refine .ofResult_bind (hregistry.generatorFor_of_isNamedBy hl) ?_
  refine (h.ensures_deliver l.generator hcode).bind fun delivered => ?_
  cases delivered with
  | false => exact .pure fun _ hs => .inr ⟨rfl, .inl (hs rfl)⟩
  -- Figures and warnings are diagnostics, but nothing is wrong.
  | true => exact (Ensures.ite_bind hfigures (.ite_bind hwarnings hzero)).of_before fun _ _ => trivial

theorem ExportOptions.Fits.ensures_exportedRequest (h : o.Fits around settings files)
    (hsettings : settings.AreUsable) :
    Ensures (·.files = files) (exportedRequest around o.request settings)
      (fun r _ => r.HoldsTexts ∧ o.request.Loads around settings files)
      fun failure _ => failure.IsTold := by
  refine h.request.ensures_describedRequest.bind fun r => .of_and fun hr =>
    (h.request.ensures_loadEnvironments hsettings).bind fun environments =>
      .of_and fun henvironments => ?_
  have hloads : o.request.Loads around settings files := ⟨hr.2, environments, henvironments.2⟩
  cases environments with
  | none => exact .pure fun _ _ => ⟨hr.1, hloads⟩
  | some store =>
    obtain ⟨f, hf⟩ := henvironments.1 store rfl
    obtain ⟨r', hr', hholds⟩ := hf.exists_resolveRequest hr.1
    exact .ofResult fun _ _ => .of_ok hr' ⟨hholds, hloads⟩

/-- The language is one, and the request and the environments can be loaded. -/
def ExportOptions.Works (o : ExportOptions) (around : Surroundings) (settings : Settings)
    (files : Files) : Prop :=
  (∃ l : Language, l.IsNamedBy ((Value.ofText? o.language).orElse settings.defaultLanguage)) ∧
    o.request.Loads around settings files

/-- An export that fits ends with a code. -/
theorem ExportOptions.Fits.ensures_runExport (h : o.Fits around settings files)
    (hsettings : settings.AreUsable) (hregistry : around.registry.IsStandard) :
    Ensures (·.files = files) (runExport around settings o)
      (EndsWithCode (o.Works around settings files) around.outcome)
      fun failure _ => failure.IsTold := by
  have hexport {l : Language}
      (hl : l.IsNamedBy ((Value.ofText? o.language).orElse settings.defaultLanguage)) :
      Ensures (·.files = files) (exportedRequest around o.request settings >>= fun r =>
        exportRequest around o r ((Value.ofText? o.language).orElse settings.defaultLanguage))
        (EndsWithCode (o.Works around settings files) around.outcome)
        fun failure _ => failure.IsTold := by
    refine (h.ensures_exportedRequest hsettings).bind fun r s hr => ?_
    have hends := h.ensures_exportRequest (E := fun failure _ => failure.IsTold) hregistry hr.1 hl
    exact (hends s trivial).imp
      (fun _ hcode => hcode.imp_left fun hzero => ⟨hzero.1, ⟨l, hl⟩, hr.2⟩) fun _ h => h
  unfold runExport
  rcases supportedInfo_cases hregistry
    ((Value.ofText? o.language).orElse settings.defaultLanguage) with
    ⟨l, info, aliases, hl, hinfo, -⟩ | hnone
  · refine .ofResult_bind hinfo ((Ensures.attempt (hexport hl)).bind fun result => ?_)
    cases result with
    | ok code => exact .pure fun _ hs => hs
    | error failure =>
      rintro s (⟨reason, rfl⟩ | ⟨reason, rfl⟩)
      · exact ensures_tells_pure (E := fun failure _ => failure.IsTold) (P := fun _ => True) _ s trivial
      · exact Failure.isTold_history reason
  · refine .ofResult_bind hnone ?_
    have hwarned : Ensures (·.files = files)
        (warnUnsupported around.registry ((Value.ofText? o.language).orElse settings.defaultLanguage))
        (fun _ s => s.TellsFailure) fun failure _ => failure.IsTold :=
      (ensures_tells _).bind fun _ => ensures_tells _
    exact hwarned.bind fun _ => .pure fun _ hs => .inr ⟨rfl, .inl hs⟩

end CommandLine

end HttpWorkbench
