import HttpWorkbench.Proofs.Result
import HttpWorkbench.Value.Record

/-!
# How a step can end

A step fails only in ways that have a property, or it gives only results that have one as well: a
chain of such steps is such a step again. Working with a value whose kind does not support what is
asked for is a misuse and nothing else.
-/

namespace HttpWorkbench

section Chains

variable {ε α β : Type} {p q : ε → Prop} {x : Except ε α} {f : α → Except ε β}

/-- If the step fails, its failure has the property. -/
def FailsOnly (p : ε → Prop) (x : Except ε α) : Prop := ∀ e, x = .error e → p e

namespace FailsOnly

theorem ok (a : α) : FailsOnly p (.ok a) := nofun

theorem error {e : ε} (h : p e) : FailsOnly p (.error e : Except ε α) := by
  intro e' he
  cases he
  exact h

theorem imp (hx : FailsOnly p x) (h : ∀ e, p e → q e) : FailsOnly q x := fun e he => h e (hx e he)

/-- A chain fails as its first step does, or as the rest does on what the first step gives. -/
theorem bind_of_ok (hx : FailsOnly p x) (hf : ∀ a, x = .ok a → FailsOnly p (f a)) :
    FailsOnly p (x >>= f) := by
  intro e he
  cases hx' : x with
  | error e' =>
    rw [hx', error_bind] at he
    cases he
    exact hx e hx'
  | ok a =>
    rw [hx', ok_bind] at he
    exact hf a hx' e he

theorem bind (hx : FailsOnly p x) (hf : ∀ a, FailsOnly p (f a)) : FailsOnly p (x >>= f) :=
  hx.bind_of_ok fun a _ => hf a

theorem map (hx : FailsOnly p x) (g : α → β) : FailsOnly p (x.map g) := by
  intro e he
  cases hx' : x with
  | error e' =>
    rw [hx'] at he
    cases he
    exact hx e hx'
  | ok a =>
    rw [hx'] at he
    cases he

theorem mapM {xs : List α} (h : ∀ a ∈ xs, FailsOnly p (f a)) : FailsOnly p (xs.mapM f) := by
  induction xs with
  | nil => exact ok []
  | cons a xs ih =>
    rw [List.forall_mem_cons] at h
    rw [List.mapM_cons]
    exact h.1.bind fun b => (ih h.2).bind fun bs => ok (b :: bs)

theorem mapError {δ : Type} {g : ε → δ} {p : δ → Prop} (h : FailsOnly (fun e => p (g e)) x) :
    FailsOnly p (x.mapError g) := by
  intro e he
  cases hx : x with
  | error e' =>
    rw [hx] at he
    cases he
    exact h e' hx
  | ok a =>
    rw [hx] at he
    cases he

end FailsOnly

/-- The step yields a result with one property, or a failure with another. -/
def Yields (q : α → Prop) (p : ε → Prop) : Except ε α → Prop
  | .ok a => q a
  | .error e => p e

namespace Yields

variable {q r : α → Prop} {q' : β → Prop}

theorem of_failsOnly (hx : FailsOnly p x) (h : ∀ a, x = .ok a → r a) : Yields r p x := by
  cases hx' : x with
  | ok a => exact h a hx'
  | error e => exact hx e hx'

theorem of_ok {a : α} (h : x = .ok a) (ha : r a) : Yields r p x := by
  rw [h]
  exact ha

theorem imp {p' : ε → Prop} (hx : Yields r p x) (hr : ∀ a, r a → q a) (hp : ∀ e, p e → p' e) :
    Yields q p' x := by
  cases x with
  | ok a => exact hr a hx
  | error e => exact hp e hx

/-- The result has the property and is the one that the step gives. -/
theorem with_eq (hx : Yields r p x) : Yields (fun a => r a ∧ x = .ok a) p x := by
  cases x with
  | ok a => exact ⟨hx, rfl⟩
  | error e => exact hx

/-- A chain ends as the rest of it does on any result that its first step can give. -/
theorem bind (hx : Yields r p x) (hf : ∀ a, r a → Yields q' p (f a)) : Yields q' p (x >>= f) := by
  cases x with
  | ok a => exact hf a hx
  | error e => exact hx

theorem mapError {δ : Type} {g : ε → δ} {p : δ → Prop} (h : Yields r (fun e => p (g e)) x) :
    Yields r p (x.mapError g) := by
  cases x with
  | ok a => exact h
  | error e => exact h

theorem map {g : α → β} (h : Yields (fun a => q' (g a)) p x) : Yields q' p (x.map g) := by
  cases x with
  | ok a => exact h
  | error e => exact h

theorem mapM {xs : List α} (h : ∀ a ∈ xs, Yields q' p (f a)) :
    Yields (fun bs => ∀ b ∈ bs, q' b) p (xs.mapM f) := by
  induction xs with
  | nil => exact List.forall_mem_nil _
  | cons a xs ih =>
    rw [List.forall_mem_cons] at h
    rw [List.mapM_cons]
    exact h.1.bind fun b hb => (ih h.2).bind fun bs hbs => List.forall_mem_cons.mpr ⟨hb, hbs⟩

end Yields

end Chains

/-- Something was asked of a value that its kind does not support. -/
def Failure.IsMisuse (failure : Failure) : Prop := ∃ cause, failure = .misuse cause

open Failure (IsMisuse)

theorem failsOnly_misused {α : Type} (cause : Misuse) :
    FailsOnly IsMisuse (misused cause : Result α) := .error ⟨cause, rfl⟩

namespace Value

theorem failsOnly_items (v : Value) : FailsOnly IsMisuse v.items := by
  unfold items
  split
  · exact .ok _
  · exact failsOnly_misused _

theorem failsOnly_entriesFor (operation : Text) (v : Value) :
    FailsOnly IsMisuse (v.entriesFor operation) := by
  cases v with
  | map es => exact .ok es
  | _ => exact failsOnly_misused _

theorem failsOnly_asKey (v : Value) : FailsOnly IsMisuse v.asKey := by
  unfold asKey
  split
  · exact .ok v
  · exact failsOnly_misused _

theorem failsOnly_pairsFrom (index : Nat) (rows : List Value) :
    FailsOnly IsMisuse (pairsFrom index rows) := by
  induction rows generalizing index with
  | nil => exact .ok []
  | cons v rest ih =>
    unfold pairsFrom
    split
    · exact failsOnly_misused _
    · exact (failsOnly_asKey _).bind fun key => (ih (index + 1)).bind fun more => .ok _
    · exact failsOnly_misused _

theorem failsOnly_toDictionary (v : Value) : FailsOnly IsMisuse v.toDictionary := by
  cases v with
  | map es => exact .ok es
  | _ =>
    exact (failsOnly_items _).bind fun rows => (failsOnly_pairsFrom 0 rows).bind fun pairs => .ok _

theorem failsOnly_joinFrom (separator : Text) (index : Nat) (values : List Value) :
    FailsOnly IsMisuse (joinFrom separator index values) := by
  induction values generalizing index with
  | nil => exact .ok []
  | cons v rest ih =>
    cases v with
    | str s => exact (ih (index + 1)).bind fun more => .ok _
    | _ => exact failsOnly_misused _

theorem failsOnly_isIn (part v : Value) : FailsOnly IsMisuse (isIn part v) := by
  unfold isIn
  split
  · exact .ok _
  · exact (failsOnly_asKey part).bind fun key => .ok _
  · split
    · exact .ok _
    · exact failsOnly_misused _
  · split
    · exact .ok _
    · split
      · exact .ok _
      · exact failsOnly_misused _
    · exact .ok _
    · exact failsOnly_misused _
  · exact failsOnly_misused _

end Value

/-- A value is of another kind than an operation takes. -/
def Failure.IsWrongKind (failure : Failure) : Prop :=
  ∃ cause, failure = .misuse cause ∧ cause.category = .wrongKind

theorem Failure.IsWrongKind.isMisuse {failure : Failure} (h : failure.IsWrongKind) :
    failure.IsMisuse := h.imp fun _ => And.left

/-- Arguments that are refused are of the wrong kind. -/
theorem RecordShape.failsOnly_arguments (shape : RecordShape) (entries : List (Value × Value)) :
    FailsOnly Failure.IsWrongKind (shape.arguments entries) := by
  refine FailsOnly.bind (.mapM fun e _ => ?_) fun named => ?_
  · obtain ⟨k, v⟩ := e
    cases k with
    | str s => exact .ok _
    | _ => exact .error ⟨_, rfl, rfl⟩
  · split
    · refine .error ⟨_, rfl, ?_⟩
      split <;> rfl
    · split
      · exact .ok _
      · exact .error ⟨_, rfl, rfl⟩

end HttpWorkbench
