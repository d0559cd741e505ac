import HttpWorkbench.CommandLine.Program
import HttpWorkbench.Proofs.CommandLine.Actions

/-!
# Failures that are told

A command ends with a code, and when something is wrong it says so on the console for diagnostics. It
can leave that to the program by failing in one of the ways that the program tells; any other failure
of a command is a failure of the program.
-/

namespace HttpWorkbench

/-- The failure is one that the program tells the user. -/
def Failure.IsTold (failure : Failure) : Prop :=
  (∃ reason, failure = .command reason) ∨ ∃ reason, failure = .history reason

theorem Failure.isTold_command (reason : CommandReason) : IsTold (.command reason) :=
  .inl ⟨reason, rfl⟩

theorem Failure.isTold_history (reason : HistoryReason) : IsTold (.history reason) :=
  .inr ⟨reason, rfl⟩

/-- There is a reply, and its status tells success, or that there was none. -/
def Outcome.Tells (outcome : Outcome) (success : Bool) : Prop :=
  ∃ reply response, outcome = .ok reply ∧ Response.ofReply reply = .ok response ∧
    response.isOk = .ok success

namespace CommandLine

open CommandLine.Action (Ensures)

/-- Something was shown on the console for diagnostics. -/
def Session.TellsFailure (s : Session) : Prop := ∃ d, (Console.err, d) ∈ s.shown

/-- A command ends with code zero when it worked, or with code one after it told what is wrong or
showed a response that is no success. -/
def EndsWithCode (worked : Prop) (outcome : Outcome) (code : Nat) (s : Session) : Prop :=
  code = 0 ∧ worked ∨ code = 1 ∧ (s.TellsFailure ∨ outcome.Tells false)

variable {P : Session → Prop} {E : Failure → Session → Prop} {worked : Prop} {outcome : Outcome}

theorem ensures_show (console : Console) (d : Display) :
    Ensures P (Action.show console d) (fun _ _ => True) E := .show fun _ _ => trivial

/-- Telling is noted in the session. -/
theorem ensures_tells (text : Text) :
    Ensures P (Action.warn text) (fun _ s => s.TellsFailure) E :=
  .show fun _ _ => ⟨_, List.mem_append_right _ List.mem_cons_self⟩

/-- A command that tells what is wrong ends with code one. -/
theorem ensures_tells_pure (text : Text) :
    Ensures P (Action.warn text >>= fun _ => pure 1) (EndsWithCode worked outcome) E :=
  (ensures_tells text).bind fun _ => .pure fun _ hs => .inr ⟨rfl, .inl hs⟩

/-- The failures that a command leaves to the program are told. -/
theorem endsWithCode_guarded {a : Action Nat}
    (h : Ensures P a (EndsWithCode worked outcome) fun failure _ => failure.IsTold) :
    Ensures P (guarded a) (EndsWithCode worked outcome) E := by
  refine (Ensures.attempt h).bind fun result => ?_
  cases result with
  | ok code => exact .pure fun _ hs => hs
  | error failure =>
    rintro s (⟨reason, rfl⟩ | ⟨reason, rfl⟩)
    · exact ensures_tells_pure (P := fun _ => True) _ s trivial
    · exact ensures_tells_pure (P := fun _ => True) _ s trivial

end CommandLine

end HttpWorkbench
