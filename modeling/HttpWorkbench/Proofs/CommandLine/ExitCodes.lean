import HttpWorkbench.Proofs.CommandLine.ToldExport
import HttpWorkbench.Proofs.CommandLine.ToldSend

/-!
# Exit codes

A command that is given what it reads in the kinds that it uses ends with a code, whatever else is
wrong: it is told, and the code is one. What is used is not checked everywhere, though: a value of
another kind can be a failure of the program, without a code.
-/

namespace HttpWorkbench.CommandLine

open CommandLine.Action (Ensures)

/-- The options of a command fit, with what they and the settings name. -/
def Command.Fits (around : Surroundings) (settings : Settings) (files : Files) : Command → Prop
  | .exportProgram o => o.Fits around settings files
  | .languages _ => True
  | .send o => o.Fits around settings files ∧ around.outcome.Fits
  | .history o => o.Fits settings files

/-- What the command works on is there, and what it asks for is had. -/
def Command.Works (around : Surroundings) (settings : Settings) (files : Files) : Command → Prop
  | .exportProgram o => o.Works around settings files
  | .languages name => AsksForLanguage name
  | .send o => o.Works around settings files
  | .history o => o.Works settings files

/-- The settings file of an invocation, if it names one, offers settings, and under the settings that
are loaded the options of its command fit. -/
structure Invocation.Fits (invocation : Invocation) (around : Surroundings) (files : Files) : Prop where
  settings : ∀ name, invocation.settingsFile = some name → name ≠ "" →
    files.Offers Settings.Fits (.ofText name)
  command : ∀ settings command,
    Settings.load files .null (.ofText? invocation.settingsFile) = .ok settings →
      invocation.command = some command → command.Fits around settings files

variable {around : Surroundings} {settings : Settings} {files : Files} {E : Failure → Session → Prop}

/-- A command that fits ends with a code. -/
theorem Command.Fits.ensures_runCommand {command : Command} (h : command.Fits around settings files)
    (hsettings : settings.AreUsable) (hregistry : around.registry.IsStandard) :
    Ensures (·.files = files) (runCommand around settings command)
      (EndsWithCode (command.Works around settings files) around.outcome)
      fun failure _ => failure.IsTold := by
  cases command with
  | exportProgram o => exact ExportOptions.Fits.ensures_runExport h hsettings hregistry
  | languages name => exact (ensures_runLanguages hregistry name).of_before fun _ _ => trivial
  | send o => exact SendOptions.Fits.ensures_runSend h.1 hsettings h.2
  | history o => exact HistoryOptions.Fits.ensures_runHistory h hsettings

/-- There is a threshold for the log, given on the command line or in the settings. -/
theorem exists_threshold (level : Option Text) (hsettings : settings.AreUsable) :
    ∃ threshold, Log.threshold ((Value.ofText? level).orElse settings.logLevel) = .ok threshold := by
  unfold Value.orElse
  split
  · rename_i htrue
    cases level with
    | none => cases htrue
    | some name => exact ⟨_, rfl⟩
  · exact hsettings.level

/-- How a command of an invocation ends: with code zero if the settings were loaded and it worked
under them, or else with code one after it was told what is wrong. -/
def Invocation.EndsWithCode (command : Command) (invocation : Invocation) (around : Surroundings)
    (files : Files) (ending : Ending) (s : Session) : Prop :=
  ∃ code, ending = .code code ∧ CommandLine.EndsWithCode
    (∃ settings, Settings.load files .null (.ofText? invocation.settingsFile) = .ok settings ∧
      command.Works around settings files) around.outcome code s

theorem Invocation.Fits.ensures_invoke {invocation : Invocation} (h : invocation.Fits around files)
    (hregistry : around.registry.IsStandard) {command : Command}
    (hcommand : invocation.command = some command) :
    Ensures (·.files = files) (invoke around invocation)
      (fun ending s => invocation.EndsWithCode command around files ending s) E := by
  refine .get_bind fun s hs => ?_
  subst hs
  have hload := (Settings.yields_load h.settings).with_eq
  cases hsettings : Settings.load s.files .null (.ofText? invocation.settingsFile) with
  | error failure =>
    rw [hsettings] at hload
    obtain ⟨reason, rfl⟩ := hload
    exact (ensures_tells _).bind fun _ => .pure fun _ hs => ⟨1, rfl, .inr ⟨rfl, .inl hs⟩⟩
  | ok settings =>
    rw [hsettings] at hload
    obtain ⟨threshold, hthreshold⟩ := exists_threshold invocation.logLevel hload.1
    have hfits := h.command settings command hsettings hcommand
    have hcode := endsWithCode_guarded (E := E) (hfits.ensures_runCommand hload.1 hregistry)
    dsimp only
    rw [carryOut, hcommand]
    refine .ofResult_bind hthreshold ((hcode.of_before ?_).bind fun code => .pure fun _ hends => ?_)
    · rintro _ rfl
      rfl
    · exact ⟨code, rfl, hends.imp_left fun hzero => ⟨hzero.1, settings, hsettings, hzero.2⟩⟩

section Misuse

variable {s s' : Session} {cause : Misuse}

end Misuse

end HttpWorkbench.CommandLine
