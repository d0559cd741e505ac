import HttpWorkbench.Failure
import Mathlib.Data.List.Forall2

/-!
# Chains of steps that may fail

A step that has a result hands it on, and one that fails ends the chain.
-/

namespace HttpWorkbench

variable {ε α β : Type}

@[simp] theorem ok_bind (a : α) (f : α → Except ε β) : (Except.ok a >>= f) = f a := rfl

@[simp] theorem error_bind (e : ε) (f : α → Except ε β) : (Except.error e >>= f) = .error e := rfl

/-- A step that succeeds on every item succeeds on the list. -/
theorem mapM_eq_ok {f : α → Except ε β} {g : α → β} {xs : List α}
    (h : ∀ x ∈ xs, f x = .ok (g x)) : xs.mapM f = .ok (xs.map g) := by
  induction xs with
  | nil => rfl
  | cons x xs ih =>
    rw [List.mapM_cons, h x List.mem_cons_self, ih fun y hy => h y (List.mem_cons_of_mem _ hy)]
    rfl

/-- A step that succeeds on every item with a result that fits the item succeeds on the list, with
results that fit the items one by one. -/
theorem exists_mapM_eq_ok {f : α → Except ε β} {fits : α → β → Prop} {xs : List α}
    (h : ∀ x ∈ xs, ∃ y, f x = .ok y ∧ fits x y) :
    ∃ ys, xs.mapM f = .ok ys ∧ List.Forall₂ fits xs ys := by
  induction xs with
  | nil => exact ⟨[], rfl, .nil⟩
  | cons x xs ih =>
    rw [List.forall_mem_cons] at h
    obtain ⟨⟨y, hy, hfits⟩, hrest⟩ := h
    obtain ⟨ys, hys, hall⟩ := ih hrest
    refine ⟨y :: ys, ?_, .cons hfits hall⟩
    rw [List.mapM_cons, hy, hys]
    rfl

/-- A list that is read item by item gives the items that each of its items is read as. -/
theorem mapM_map_eq_ok {f : α → Except ε β} {g : β → α} (h : ∀ b, f (g b) = .ok b) (ys : List β) :
    (ys.map g).mapM f = .ok ys := by
  induction ys with
  | nil => rfl
  | cons y ys ih =>
    rw [List.map_cons, List.mapM_cons, h, ih]
    rfl

/-- A chain that succeeds has a first step that succeeds, and the rest succeeds from there. -/
theorem bind_eq_ok_iff {x : Except ε α} {f : α → Except ε β} {b : β} :
    x >>= f = .ok b ↔ ∃ a, x = .ok a ∧ f a = .ok b := by
  cases x <;> simp

theorem exists_bind_eq_ok_iff {x : Except ε α} {f : α → Except ε β} :
    (∃ b, x >>= f = .ok b) ↔ ∃ a, x = .ok a ∧ ∃ b, f a = .ok b := by
  cases x <;> simp

/-- What a list is read as agrees with the list in what each item agrees with its reading in. -/
theorem map_eq_map_of_mapM_eq_ok {γ : Type} {f : α → Except ε β} {g : β → γ} {k : α → γ}
    (h : ∀ a b, f a = .ok b → g b = k a) {xs : List α} {ys : List β} (hxs : xs.mapM f = .ok ys) :
    ys.map g = xs.map k := by
  induction xs generalizing ys with
  | nil =>
    obtain rfl : [] = ys := Except.ok.inj hxs
    rfl
  | cons x xs ih =>
    rw [List.mapM_cons, bind_eq_ok_iff] at hxs
    obtain ⟨y, hy, hxs⟩ := hxs
    obtain ⟨ys', hys', hxs⟩ := bind_eq_ok_iff.mp hxs
    obtain rfl : y :: ys' = ys := Except.ok.inj hxs
    rw [List.map_cons, List.map_cons, h x y hy, ih hys']

/-- A list that is read item by item, where each item that is read is the image of its reading, is
the image of the list that was read. -/
theorem eq_map_of_mapM_eq_ok {f : α → Except ε β} {g : β → α}
    (h : ∀ a b, f a = .ok b → a = g b) {xs : List α} {ys : List β} (hxs : xs.mapM f = .ok ys) :
    xs = ys.map g :=
  (List.map_id xs).symm.trans (map_eq_map_of_mapM_eq_ok (fun a b hab => (h a b hab).symm) hxs).symm

/-- What a list is read as is read from its items. -/
theorem exists_of_mem_mapM {f : α → Except ε β} {xs : List α} {ys : List β}
    (h : xs.mapM f = .ok ys) {y : β} (hy : y ∈ ys) : ∃ x ∈ xs, f x = .ok y := by
  induction xs generalizing ys with
  | nil =>
    obtain rfl : [] = ys := Except.ok.inj h
    cases hy
  | cons x xs ih =>
    rw [List.mapM_cons, bind_eq_ok_iff] at h
    obtain ⟨z, hz, h⟩ := h
    obtain ⟨zs, hzs, h⟩ := bind_eq_ok_iff.mp h
    obtain rfl : z :: zs = ys := Except.ok.inj h
    rcases List.mem_cons.mp hy with rfl | hy
    · exact ⟨x, List.mem_cons_self, hz⟩
    · obtain ⟨x', hx', hread⟩ := ih hzs hy
      exact ⟨x', List.mem_cons_of_mem x hx', hread⟩

/-- Steps that succeed where others do, with the same result, read a list alike. -/
theorem mapM_eq_ok_of_imp {f g : α → Except ε β} (h : ∀ a b, f a = .ok b → g a = .ok b)
    {xs : List α} {ys : List β} (hxs : xs.mapM f = .ok ys) : xs.mapM g = .ok ys := by
  induction xs generalizing ys with
  | nil => exact hxs
  | cons x xs ih =>
    rw [List.mapM_cons, bind_eq_ok_iff] at hxs
    obtain ⟨y, hy, hxs⟩ := hxs
    obtain ⟨ys', hys', hxs⟩ := bind_eq_ok_iff.mp hxs
    rw [List.mapM_cons, h x y hy, ok_bind, ih hys']
    exact hxs

/-- A step that fails on one item fails on the list. -/
theorem exists_error_of_mem {f : α → Except ε β} {xs : List α} {x : α} {e : ε} (hx : x ∈ xs)
    (hf : f x = .error e) : ∃ e', xs.mapM f = .error e' := by
  cases hxs : xs.mapM f with
  | error e' => exact ⟨e', rfl⟩
  | ok ys =>
    induction xs generalizing ys with
    | nil => cases hx
    | cons y xs ih =>
      rw [List.mapM_cons, bind_eq_ok_iff] at hxs
      obtain ⟨z, hz, hxs⟩ := hxs
      obtain ⟨zs, hzs, -⟩ := bind_eq_ok_iff.mp hxs
      rcases List.mem_cons.mp hx with rfl | hx
      · rw [hf] at hz
        cases hz
      · obtain ⟨e', he'⟩ := ih hx zs hzs
        cases he'

/-- A list is read exactly if each of its items is. -/
theorem exists_mapM_eq_ok_iff {f : α → Except ε β} {xs : List α} :
    (∃ ys, xs.mapM f = .ok ys) ↔ ∀ x ∈ xs, ∃ y, f x = .ok y := by
  constructor
  · rintro ⟨ys, hys⟩ x hx
    cases hfx : f x with
    | ok y => exact ⟨y, rfl⟩
    | error e =>
      obtain ⟨e', he'⟩ := exists_error_of_mem hx hfx
      rw [hys] at he'
      cases he'
  · intro h
    have hfits : ∀ x ∈ xs, ∃ y, f x = .ok y ∧ f x = .ok y := fun x hx =>
      (h x hx).imp fun y hy => ⟨hy, hy⟩
    obtain ⟨ys, hys, -⟩ := exists_mapM_eq_ok hfits
    exact ⟨ys, hys⟩

/-- A change of each item that the step can take over can be made before or after the steps. -/
theorem mapM_map_eq_map {f : α → Except ε β} {g : α → α} {k : β → β}
    (h : ∀ a, f (g a) = (f a).map k) (xs : List α) :
    (xs.map g).mapM f = (xs.mapM f).map (List.map k) := by
  induction xs with
  | nil => rfl
  | cons x xs ih =>
    rw [List.map_cons, List.mapM_cons, List.mapM_cons, h, ih]
    cases f x <;> cases xs.mapM f <;> rfl

end HttpWorkbench
