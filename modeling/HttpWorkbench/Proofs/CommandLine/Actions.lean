import HttpWorkbench.CommandLine.Session
import HttpWorkbench.Proofs.Failing

/-!
# Steps of commands

What chains of steps do: a step that ends well hands on to the next, and one that fails ends the
chain, keeping what was changed. Most steps leave the files as they are.
-/

namespace HttpWorkbench.CommandLine.Action

variable {α β : Type} {a : Action α} {f : α → Action β} {s s' : Session}

/-- What a step comes to from a session, and the session after it. -/
def outcome (a : Action α) (s : Session) : Result α × Session := a.run.run s

theorem outcome_bind (a : Action α) (f : α → Action β) (s : Session) :
    (a >>= f).outcome s =
      match a.outcome s with
      | (.ok x, s') => (f x).outcome s'
      | (.error failure, s') => (.error failure, s') := by
  change (ExceptT.bindCont f (a.outcome s).1).run (a.outcome s).2 = _
  obtain ⟨r, s'⟩ := a.outcome s
  cases r <;> rfl

theorem outcome_bind_of_ok {x : α} (h : a.outcome s = (.ok x, s')) :
    (a >>= f).outcome s = (f x).outcome s' := by
  rw [outcome_bind, h]

theorem outcome_get : (get : Action Session).outcome s = (.ok s, s) := rfl

theorem outcome_set : (set s' : Action Unit).outcome s = (.ok (), s') := rfl

theorem outcome_ofResult (r : Result α) : (ofResult r).outcome s = (r, s) := rfl

/-- A step that changes files fails after that, if at all. -/
theorem outcome_changeFiles (change : Files → Files × Result Unit) :
    (changeFiles change).outcome s =
      ((change s.files).2, { s with files := (change s.files).1 }) := rfl

theorem outcome_attempt (a : Action α) :
    a.attempt.outcome s = (.ok (a.outcome s).1, (a.outcome s).2) := rfl

/-- The step leaves the files as they are, whatever it comes to. -/
def KeepsFiles (a : Action α) : Prop := ∀ s, (a.outcome s).2.files = s.files

theorem keepsFiles_pure (x : α) : KeepsFiles (pure x) := fun _ => rfl

theorem keepsFiles_throw (failure : Failure) : KeepsFiles (throw failure : Action α) := fun _ => rfl

theorem keepsFiles_ofResult (r : Result α) : KeepsFiles (ofResult r) := fun _ => rfl

theorem keepsFiles_show (console : Console) (d : Display) : KeepsFiles («show» console d) :=
  fun _ => rfl

/-- The files after a chain that goes on without changing them. -/
theorem files_bind (hf : ∀ x, KeepsFiles (f x)) (a : Action α) (s : Session) :
    ((a >>= f).outcome s).2.files = (a.outcome s).2.files := by
  rw [outcome_bind]
  obtain ⟨r, s'⟩ := a.outcome s
  cases r with
  | error failure => rfl
  | ok x => exact hf x s'

theorem KeepsFiles.bind (ha : KeepsFiles a) (hf : ∀ x, KeepsFiles (f x)) : KeepsFiles (a >>= f) :=
  fun s => (files_bind hf a s).trans (ha s)

/-! ## What steps ensure -/

/-- From every session that has a property, the step ends well, with a result and a session that
have another, or it fails, with a failure and a session that have a third. -/
def Ensures (before : Session → Prop) (a : Action α) (after : α → Session → Prop)
    (failing : Failure → Session → Prop) : Prop :=
  ∀ s, before s → Yields (after · (a.outcome s).2) (failing · (a.outcome s).2) (a.outcome s).1

namespace Ensures

variable {P P' : Session → Prop} {Q Q' : α → Session → Prop} {R : β → Session → Prop}
  {E E' : Failure → Session → Prop}

theorem bind (ha : Ensures P a Q E) (hf : ∀ x, Ensures (Q x) (f x) R E) :
    Ensures P (a >>= f) R E := by
  intro s hs
  have ha := ha s hs
  rw [outcome_bind]
  generalize a.outcome s = reached at ha ⊢
  obtain ⟨r, s'⟩ := reached
  cases r with
  | ok x => exact hf x s' ha
  | error failure => exact ha

theorem imp (ha : Ensures P a Q E) (hP : ∀ s, P' s → P s) (hQ : ∀ x s, Q x s → Q' x s)
    (hE : ∀ failure s, E failure s → E' failure s) : Ensures P' a Q' E' :=
  fun s hs => (ha s (hP s hs)).imp (hQ · _) (hE · _)

theorem of_before (ha : Ensures P a Q E) (hP : ∀ s, P' s → P s) : Ensures P' a Q E :=
  fun s hs => ha s (hP s hs)

/-- What does not depend on the session can be taken for given. -/
theorem of_and {p : Prop} (h : p → Ensures P a Q E) : Ensures (fun s => p ∧ P s) a Q E :=
  fun s hs => h hs.1 s hs.2

theorem pure {x : α} (h : ∀ s, P s → Q x s) : Ensures P (pure x) Q E := h

theorem throw {failure : Failure} (h : ∀ s, P s → E failure s) : Ensures P (throw failure) Q E := h

theorem ofResult {r : Result α} (h : ∀ s, P s → Yields (Q · s) (E · s) r) :
    Ensures P (ofResult r) Q E := h

/-- A chain goes on with the result, where there is one. -/
theorem ofResult_bind {r : Result α} {x : α} (hr : r = .ok x) (hf : Ensures P (f x) R E) :
    Ensures P (Action.ofResult r >>= f) R E := by
  rw [hr]
  exact hf

/-- A chain goes on with any result that there can be, or it fails as the result does. -/
theorem ofResult_bind_of_yields {q : α → Prop} {p : Failure → Prop} {r : Result α}
    (hr : Yields q p r) (hf : ∀ x, q x → Ensures P (f x) R fun failure _ => p failure) :
    Ensures P (Action.ofResult r >>= f) R fun failure _ => p failure := by
  cases r with
  | ok x => exact hf x hr
  | error failure => exact fun _ _ => hr

theorem «show» {Q : Unit → Session → Prop} {console : Console} {d : Display}
    (h : ∀ s, P s → Q () { s with shown := s.shown ++ [(console, d)] }) :
    Ensures P («show» console d) Q E := h

theorem get_bind {f : Session → Action β} (h : ∀ s, P s → Ensures (· = s) (f s) R E) :
    Ensures P (get >>= f) R E :=
  fun s hs => h s hs s rfl

theorem set {Q : Unit → Session → Prop} (h : ∀ s, P s → Q () s') :
    Ensures P (set s' : Action Unit) Q E := h

theorem attempt (ha : Ensures P a Q E) :
    Ensures P a.attempt (fun r s => Yields (Q · s) (E · s) r) E' := ha

/-- A step that is taken or left out, and keeps a property, comes before the rest. -/
theorem ite_bind {c : Prop} [Decidable c] {a : Action Unit} {rest : Action β}
    (ha : Ensures P a (fun _ => P) E) (hrest : Ensures P rest R E) :
    Ensures P (if c then a >>= fun _ => rest else rest) R E := by
  split
  · exact ha.bind fun _ => hrest
  · exact hrest

/-- Steps that keep a property one by one keep it one after the other. -/
theorem forM {γ : Type} {f : γ → Action PUnit} {xs : List γ}
    (h : ∀ x ∈ xs, Ensures P (f x) (fun _ => P) E) : Ensures P (xs.forM f) (fun _ => P) E := by
  induction xs with
  | nil => exact pure fun _ => id
  | cons x xs ih =>
    rw [List.forall_mem_cons] at h
    exact h.1.bind fun _ => ih h.2

end Ensures

end HttpWorkbench.CommandLine.Action
