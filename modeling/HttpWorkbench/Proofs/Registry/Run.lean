import HttpWorkbench.Export.Registry
import HttpWorkbench.Proofs.Result
import HttpWorkbench.Proofs.Text.Spelling

/-!
# Runs of a registry

A registry that starts empty goes through any row of operations, some of which stop half-way. Its
three tables stay in step: every alias leads to a registered language, and what is shared for a
language is an instance of the class that is registered for it. As long as nothing is replaced, no
alias is the tag of a language, so that tags keep their meaning.
-/

namespace HttpWorkbench.Export.Registry

/-- An operation on a registry. -/
inductive Operation where
  | register (language : Value) (candidate : Option GeneratorClass) (aliases : Value)
      (replace : Bool)
  | unregister (language : Value)
  | get (language : Value)
  | create (language : Value)
  | info (language : Value)
  | resolve (language : Value)
  | classOf (language : Value)
  | supports (language : Value)
  | aliasesFor (language : Value)
  | languages
  | names

/-- Whether the operation may replace what is registered. -/
def Operation.replaces : Operation → Bool
  | .register _ _ _ replace => replace
  | _ => false

/-- The registry after an operation. A registration that fails leaves what it had changed up to
there, a description the instance it asked for; lookups change nothing. -/
def step (r : Registry) : Operation → Registry
  | .register language candidate aliases replace =>
    (r.register language candidate aliases replace).1
  | .unregister language => (r.unregister language).toOption.getD r
  | .get language => ((r.get language).map Prod.fst).toOption.getD r
  | .create language => ((r.create language).map Prod.fst).toOption.getD r
  | .info language =>
    match r.resolve language with
    | .ok target => ((r.get (.language target)).map Prod.fst).toOption.getD r
    | .error _ => r
  | .resolve _ | .classOf _ | .supports _ | .aliasesFor _ | .languages | .names => r

/-- The registry after a row of operations on an empty one. -/
def ofOperations (operations : List Operation) : Registry := operations.foldl step empty

/-- What holds all along a run: aliases lead to registered languages, and shared instances are of
the registered classes. -/
structure Invariant (r : Registry) : Prop where
  aliased : ∀ a ∈ r.aliases, Assoc.contains a.2 r.classes = true
  shared : ∀ e ∈ r.shared, Assoc.get? e.1 r.classes = some (.complete e.2.generator)

/-- No alias is the tag of a language. -/
def TagsUnaliased (r : Registry) : Prop := ∀ a ∈ r.aliases, a.1.tagged? = none

/-- Finding gives a language that is meant, with the class that is registered for it. -/
theorem find_eq_ok_iff {r : Registry} {language : Value} {l : Language} {c : GeneratorClass} :
    r.find language = .ok (l, c) ↔ r.meant? language = some l ∧ Assoc.get? l r.classes = some c := by
  have hfind : r.find language = .ok (l, c) ↔ r.find? language = some (l, c) := by
    rw [find]
    cases r.find? language <;> simp
  have hbind : r.find? language =
      (r.meant? language).bind fun l => (Assoc.get? l r.classes).bind fun c => some (l, c) := rfl
  rw [hfind, hbind, Option.bind_eq_some_iff]
  constructor
  · rintro ⟨l', hmeant, h⟩
    obtain ⟨c', hclass, h⟩ := Option.bind_eq_some_iff.mp h
    obtain ⟨rfl, rfl⟩ := Prod.mk.inj (Option.some.inj h)
    exact ⟨hmeant, hclass⟩
  · rintro ⟨hmeant, hclass⟩
    exact ⟨l, hmeant, Option.bind_eq_some_iff.mpr ⟨c, hclass, rfl⟩⟩

/-- Resolving gives a language that is meant and registered. -/
theorem resolve_eq_ok_iff {r : Registry} {language : Value} {l : Language} :
    r.resolve language = .ok l ↔
      r.meant? language = some l ∧ Assoc.contains l r.classes = true := by
  rw [resolve, bind_eq_ok_iff]
  constructor
  · rintro ⟨⟨l', c⟩, hfind, hl⟩
    obtain rfl : l' = l := Except.ok.inj hl
    obtain ⟨hmeant, hclass⟩ := find_eq_ok_iff.mp hfind
    exact ⟨hmeant, Assoc.contains_of_get? hclass⟩
  · rintro ⟨hmeant, hthere⟩
    obtain ⟨c, hclass⟩ := Assoc.exists_get?_of_contains hthere
    exact ⟨(l, c), find_eq_ok_iff.mpr ⟨hmeant, hclass⟩, rfl⟩

theorem eq_complete_of_instantiate {c : GeneratorClass} {g : Generator}
    (h : c.instantiate = .ok g) : c = .complete g := by
  cases c with
  | complete g' => rw [Except.ok.inj h]
  | incomplete name missing => cases h

/-- A registry with a new shared instance for a language. -/
def withShared (r : Registry) (l : Language) (found : Instance) : Registry :=
  { r with shared := Assoc.put l found r.shared, made := r.made + 1 }

/-- Asking for the shared instance of a language finds the one that is there, or makes one of the
registered class and keeps it. -/
theorem get_cases {r r' : Registry} {language : Value} {found : Instance}
    (h : r.get language = .ok (r', found)) :
    ∃ l c, r.meant? language = some l ∧ Assoc.get? l r.classes = some c ∧
      (Assoc.get? l r.shared = some found ∧ r' = r ∨
        Assoc.get? l r.shared = none ∧ c = .complete found.generator ∧
          r' = r.withShared l found) := by
  rw [get, bind_eq_ok_iff] at h
  obtain ⟨⟨l, c⟩, hfind, h⟩ := h
  obtain ⟨hmeant, hclass⟩ := find_eq_ok_iff.mp hfind
  refine ⟨l, c, hmeant, hclass, ?_⟩
  cases hshared : Assoc.get? l r.shared with
  | some there =>
    simp only [hshared] at h
    obtain ⟨rfl, rfl⟩ := Prod.mk.inj (Except.ok.inj h)
    exact Or.inl ⟨rfl, rfl⟩
  | none =>
    simp only [hshared] at h
    obtain ⟨g, hg, h⟩ := bind_eq_ok_iff.mp h
    obtain ⟨rfl, rfl⟩ := Prod.mk.inj (Except.ok.inj h)
    exact Or.inr ⟨rfl, eq_complete_of_instantiate hg, rfl⟩

/-- Making an instance that is not shared changes nothing but the count of instances. -/
theorem eq_of_create {r r' : Registry} {language : Value} {made : Instance}
    (h : r.create language = .ok (r', made)) : r' = { r with made := r.made + 1 } := by
  rw [create, bind_eq_ok_iff] at h
  obtain ⟨c, -, h⟩ := h
  obtain ⟨g, -, h⟩ := bind_eq_ok_iff.mp h
  exact (congrArg Prod.fst (Except.ok.inj h)).symm

/-- A description that succeeds leaves the registry of the step. -/
theorem step_info {r r' : Registry} {language : Value} {info : LanguageInfo}
    (h : r.info language = .ok (r', info)) : r.step (.info language) = r' := by
  rw [Registry.info, bind_eq_ok_iff] at h
  obtain ⟨target, hresolve, h⟩ := h
  obtain ⟨⟨r'', shared⟩, hget, h⟩ := bind_eq_ok_iff.mp h
  obtain ⟨aliases, -, h⟩ := bind_eq_ok_iff.mp h
  obtain rfl : r'' = r' := congrArg Prod.fst (Except.ok.inj h)
  simp only [step, hresolve, hget]
  rfl

/-- A registry with a language bound to a class, and no instance of an earlier one. -/
def bound (r : Registry) (target : Language) (c : GeneratorClass) : Registry :=
  { r with classes := Assoc.put target c r.classes, shared := Assoc.erase target r.shared }

/-- The items that stand for the aliases of a registration. -/
def givenAliases (aliases : Value) : Result (List Value) := (aliases.orElse (.list [])).items

/-- A registration that is not refused for its class or its tag, and does not come too late, binds
the class and adds the aliases. -/
theorem register_eq {r : Registry} {language : Value} {target : Language}
    (htarget : targetOf language = .ok target) (c : GeneratorClass) (aliases : Value) {replace : Bool}
    (heffect : (Assoc.contains target r.classes && !replace) = false) :
    r.register language (some c) aliases replace =
      match givenAliases aliases with
      | .error failure => (r.bound target c, .error failure)
      | .ok given => (r.bound target c).addAliases target replace given := by
  rw [register]
  simp only [htarget, heffect]
  rfl

/-- A registration of a language that has a class is passed over, unless it is to replace it. -/
theorem register_of_bound {r : Registry} {language : Value} {target : Language}
    (htarget : targetOf language = .ok target) (hbound : Assoc.contains target r.classes = true)
    (c : GeneratorClass) (aliases : Value) :
    r.register language (some c) aliases false = (r, .ok ()) := by
  rw [register]
  simp only [htarget, hbound]
  rfl

/-- A registration does nothing, or it does not come too late, binds the class to the language and
adds the aliases it is given, up to some point. -/
theorem register_cases (r : Registry) (language : Value) (candidate : Option GeneratorClass)
    (aliases : Value) (replace : Bool) :
    (r.register language candidate aliases replace).1 = r ∨
    ∃ target c given, candidate = some c ∧ targetOf language = .ok target ∧
      (Assoc.contains target r.classes && !replace) = false ∧
      (given = [] ∨ givenAliases aliases = .ok given) ∧
      (r.register language candidate aliases replace).1 =
        ((r.bound target c).addAliases target replace given).1 := by
  cases candidate with
  | none => exact Or.inl rfl
  | some c =>
    cases htarget : targetOf language with
    | error failure =>
      rw [register, htarget]
      exact Or.inl rfl
    | ok target =>
      cases heffect : Assoc.contains target r.classes && !replace with
      | true =>
        rw [Bool.and_eq_true, Bool.not_eq_true'] at heffect
        rw [heffect.2, register_of_bound htarget heffect.1]
        exact Or.inl rfl
      | false =>
        refine Or.inr ⟨target, c, ?_⟩
        rw [register_eq htarget c aliases heffect]
        cases givenAliases aliases with
        | error failure => exact ⟨[], rfl, rfl, heffect, Or.inl rfl, rfl⟩
        | ok given => exact ⟨given, rfl, rfl, heffect, Or.inr rfl, rfl⟩

/-- A registry with one more alias, or with an alias that leads elsewhere now. -/
def withAlias (r : Registry) (key : Alias) (target : Language) : Registry :=
  { r with aliases := Assoc.put key target r.aliases }

/-- What holds before aliases are added and is kept by each that may be holds after it, wherever it
stops. -/
theorem addAliases_induction {p : Registry → Prop} {target : Language} {replace : Bool}
    {given : List Value}
    (hadd : ∀ name ∈ given, ∀ key, Alias.ofValue name = .ok key →
      ∀ r, r.aliasConflict? target name key replace = none → p r → p (r.withAlias key target))
    {r : Registry} (hr : p r) : p (r.addAliases target replace given).1 := by
  induction given generalizing r with
  | nil => exact hr
  | cons name given ih =>
    rw [List.forall_mem_cons] at hadd
    rw [addAliases]
    cases hkey : Alias.ofValue name with
    | error failure => exact hr
    | ok key =>
      simp only
      split
      · exact ih hadd.2 hr
      · cases hconflict : r.aliasConflict? target name key replace with
        | some reason => exact hr
        | none => exact ih hadd.2 (hadd.1 key hkey r hconflict hr)

/-- Without replacement, an alias is accepted only if it is no tag and no other language has it. -/
theorem free_of_aliasConflict? {r : Registry} {target : Language} {given : Value} {key : Alias}
    (h : r.aliasConflict? target given key false = none) :
    key.tagged? = none ∧ ∀ owner, Assoc.get? key r.aliases = some owner → owner = target := by
  rw [aliasConflict?, if_neg Bool.false_ne_true] at h
  split at h
  · cases h
  · rename_i htag
    refine ⟨Option.not_isSome_iff_eq_none.mp htag, fun owner hget => ?_⟩
    simp only [hget] at h
    split at h
    · assumption
    · cases h

/-- A registry without a language: its class, its shared instance and its aliases are gone. -/
def without (r : Registry) (l : Language) : Registry :=
  { r with
    classes := Assoc.erase l r.classes
    shared := Assoc.erase l r.shared
    aliases := r.aliases.filter fun a => a.2 ≠ l }

/-- Removing the language that a name leads to removes everything that leads to it or is shared for
it. -/
theorem unregister_eq {r : Registry} {language : Value} {l : Language}
    (hresolve : r.resolve language = .ok l) : r.unregister language = .ok (r.without l) := by
  rw [unregister, hresolve, ok_bind]
  rfl

/-- Asking for a shared instance changes nothing, or adds one of the class that is registered. -/
theorem step_get_cases (r : Registry) (language : Value) :
    r.step (.get language) = r ∨
    ∃ l found, Assoc.get? l r.classes = some (.complete found.generator) ∧
      r.step (.get language) = r.withShared l found := by
  rw [step]
  cases hget : r.get language with
  | error failure => exact .inl rfl
  | ok got =>
    obtain ⟨r', found⟩ := got
    obtain ⟨l, c, -, hclass, ⟨-, rfl⟩ | ⟨-, rfl, rfl⟩⟩ := get_cases hget
    · exact .inl rfl
    · exact .inr ⟨l, found, hclass, rfl⟩

/-- An operation counts an instance at most, shares a new one of the class that is registered, removes
a language, or binds a class to one and adds the aliases it is given, up to some point. -/
theorem step_cases (r : Registry) (operation : Operation) :
    (∃ made, r.step operation = { r with made }) ∨
    (∃ l found, Assoc.get? l r.classes = some (.complete found.generator) ∧
      r.step operation = r.withShared l found) ∨
    (∃ language l, operation = .unregister language ∧ r.step operation = r.without l) ∨
    ∃ language c aliases replace target given,
      operation = .register language (some c) aliases replace ∧ targetOf language = .ok target ∧
      (given = [] ∨ givenAliases aliases = .ok given) ∧
      r.step operation = ((r.bound target c).addAliases target replace given).1 := by
  have hkept : ∃ made, r = { r with made } := ⟨r.made, rfl⟩
  cases operation with
  | register language candidate aliases replace =>
    rcases register_cases r language candidate aliases replace with
      h | ⟨target, c, given, rfl, htarget, -, hgiven, h⟩
    · exact .inl ⟨r.made, h⟩
    · exact .inr (.inr (.inr ⟨language, c, aliases, replace, target, given, rfl, htarget, hgiven,
        h⟩))
  | unregister language =>
    cases hresolve : r.resolve language with
    | error failure =>
      rw [step, unregister, hresolve]
      exact .inl hkept
    | ok l =>
      rw [step, unregister_eq hresolve]
      exact .inr (.inr (.inl ⟨language, l, rfl, rfl⟩))
  | get language =>
    rcases step_get_cases r language with h | h
    · exact .inl ⟨r.made, h⟩
    · exact .inr (.inl h)
  | create language =>
    rw [step]
    cases hcreate : r.create language with
    | error failure => exact .inl hkept
    | ok created => exact .inl ⟨r.made + 1, eq_of_create hcreate⟩
  | info language =>
    rw [step]
    split
    · rename_i target _
      rcases step_get_cases r (.language target) with h | h
      · exact .inl ⟨r.made, h⟩
      · exact .inr (.inl h)
    · exact .inl hkept
  | resolve _ | classOf _ | supports _ | aliasesFor _ | languages | names => exact .inl hkept

/-! ## The invariant -/

theorem empty_invariant : empty.Invariant := ⟨nofun, nofun⟩

/-- Adding aliases of a registered language keeps the invariant, wherever it stops. -/
theorem addAliases_invariant {r : Registry} (hr : r.Invariant) {target : Language}
    (htarget : Assoc.contains target r.classes = true) (replace : Bool) (given : List Value) :
    (r.addAliases target replace given).1.Invariant := by
  refine (addAliases_induction (p := fun r => r.Invariant ∧ Assoc.contains target r.classes = true)
    (fun name _ key _ r _ h => ⟨⟨fun a ha => ?_, h.1.shared⟩, h.2⟩) ⟨hr, htarget⟩).1
  rcases Assoc.mem_put ha with ha | rfl
  · exact h.1.aliased a ha
  · exact h.2

/-- Binding a class to a language and dropping the shared instance keeps the invariant. -/
theorem Invariant.bound {r : Registry} (hr : r.Invariant) (target : Language) (c : GeneratorClass) :
    (r.bound target c).Invariant where
  aliased a ha := Assoc.contains_put (hr.aliased a ha)
  shared e he := by
    obtain ⟨he, hne⟩ := Assoc.mem_erase he
    exact (Assoc.get?_put_of_ne (Ne.symm hne) c r.classes).trans (hr.shared e he)

/-- Sharing an instance of the registered class keeps the invariant. -/
theorem Invariant.withShared {r : Registry} (hr : r.Invariant) {l : Language} {found : Instance}
    (hclass : Assoc.get? l r.classes = some (.complete found.generator)) :
    (r.withShared l found).Invariant where
  aliased := hr.aliased
  shared e he := by
    rcases Assoc.mem_put he with he | rfl
    · exact hr.shared e he
    · exact hclass

/-- Removing a language with all that leads to it keeps the invariant. -/
theorem Invariant.without {r : Registry} (hr : r.Invariant) (l : Language) :
    (r.without l).Invariant where
  aliased a ha := by
    obtain ⟨ha, hne⟩ := List.mem_filter.mp ha
    exact Assoc.contains_erase_of_ne (Ne.symm (of_decide_eq_true hne)) (hr.aliased a ha)
  shared e he := by
    obtain ⟨he, hne⟩ := Assoc.mem_erase he
    exact (Assoc.get?_erase_of_ne (Ne.symm hne)).trans (hr.shared e he)

/-- Every operation keeps the invariant. -/
theorem step_invariant {r : Registry} (hr : r.Invariant) (operation : Operation) :
    (r.step operation).Invariant := by
  rcases step_cases r operation with
    ⟨made, h⟩ | ⟨l, found, hclass, h⟩ | ⟨_, l, -, h⟩ | ⟨_, c, _, replace, target, given, -, -, -, h⟩
  · rw [h]
    exact ⟨hr.aliased, hr.shared⟩
  · exact h ▸ hr.withShared hclass
  · exact h ▸ hr.without l
  · exact h ▸ addAliases_invariant (hr.bound target c) Assoc.contains_put_self replace given

/-- What holds of the empty registry and is kept by every operation of a row holds after the row. -/
theorem ofOperations_induction {p : Registry → Prop} (hempty : p empty) {operations : List Operation}
    (hstep : ∀ operation ∈ operations, ∀ r, p r → p (r.step operation)) :
    p (ofOperations operations) := by
  suffices h : ∀ r, p r → p (operations.foldl step r) from h empty hempty
  intro r hr
  induction operations generalizing r with
  | nil => exact hr
  | cons operation operations ih =>
    rw [List.forall_mem_cons] at hstep
    exact ih hstep.2 _ (hstep.1 r hr)

/-- The invariant holds after every row of operations. -/
theorem ofOperations_invariant (operations : List Operation) :
    (ofOperations operations).Invariant :=
  ofOperations_induction empty_invariant fun operation _ _ hr => step_invariant hr operation

/-- Without replacement, no alias that is added is the tag of a language. -/
theorem addAliases_tagsUnaliased {r : Registry} (hr : r.TagsUnaliased) (target : Language)
    (given : List Value) : (r.addAliases target false given).1.TagsUnaliased := by
  refine addAliases_induction (fun name _ key _ r hconflict hr a ha => ?_) hr
  rcases Assoc.mem_put ha with ha | rfl
  · exact hr a ha
  · exact (free_of_aliasConflict? hconflict).1

/-- An operation that replaces nothing makes no tag an alias. -/
theorem step_tagsUnaliased {r : Registry} (hr : r.TagsUnaliased) {operation : Operation}
    (hkept : operation.replaces = false) : (r.step operation).TagsUnaliased := by
  rcases step_cases r operation with
    ⟨made, h⟩ | ⟨l, found, -, h⟩ | ⟨_, l, -, h⟩ | ⟨_, c, _, replace, target, given, rfl, -, -, h⟩
  · exact h ▸ hr
  · exact h ▸ hr
  · rw [h]
    exact fun a ha => hr a (List.mem_filter.mp ha).1
  · obtain rfl : replace = false := hkept
    rw [h]
    exact addAliases_tagsUnaliased (r := r.bound target c) hr target given

/-- In a row of operations that replace nothing, no tag becomes an alias. -/
theorem ofOperations_tagsUnaliased {operations : List Operation}
    (hkept : ∀ operation ∈ operations, operation.replaces = false) :
    (ofOperations operations).TagsUnaliased :=
  ofOperations_induction nofun fun operation hmem _ hr =>
    step_tagsUnaliased hr (hkept operation hmem)

/-- Where no tag is an alias, every spelling of a tag names its language. -/
theorem TagsUnaliased.named?_spelling {r : Registry} (hr : r.TagsUnaliased) {l : Language}
    {name : Text} (hname : Text.IsSpelling name l.tag) : r.named? name = some l := by
  have hletters : ∀ c ∈ (l.tag : Text), c ∈ Text.smallLetters := by cases l <;> decide
  have hnone : Assoc.get? (.text l.tag) r.aliases = none := by
    cases hget : Assoc.get? (.text l.tag) r.aliases with
    | none => rfl
    | some owner =>
      obtain ⟨a, ha, hkey⟩ := List.any_eq_true.mp (Assoc.contains_of_get? hget)
      have htagged := hr a ha
      rw [beq_iff_eq.mp hkey, Alias.tagged?, Language.ofTag?_tag] at htagged
      cases htagged
  rw [named?, hname.lower_trim hletters]
  simp only [hnone]
  exact Language.ofTag?_tag l

/-- In every registry that can be reached, aliases lead to registered languages, a shared instance
is of the class that is registered for its language, so that none of a class that was replaced or
removed is handed out, and what is resolved is registered. If nothing was ever replaced, no alias is
the tag of a language, and every spelling of the tag of a registered language resolves to it. -/
theorem tables_of_run (operations : List Operation) :
    (∀ a ∈ (ofOperations operations).aliases,
      Assoc.contains a.2 (ofOperations operations).classes = true) ∧
    (∀ e ∈ (ofOperations operations).shared,
      Assoc.get? e.1 (ofOperations operations).classes = some (.complete e.2.generator)) ∧
    (∀ language r' found, (ofOperations operations).get language = .ok (r', found) →
      ∃ l, (ofOperations operations).resolve language = .ok l ∧
        Assoc.get? l (ofOperations operations).classes = some (.complete found.generator)) ∧
    (∀ language l, (ofOperations operations).resolve language = .ok l →
      Assoc.contains l (ofOperations operations).classes = true) ∧
    ((∀ operation ∈ operations, operation.replaces = false) →
      (∀ a ∈ (ofOperations operations).aliases, ∀ l : Language, a.1 ≠ .text l.tag) ∧
      ∀ l : Language, Assoc.contains l (ofOperations operations).classes = true →
        ∀ name, Text.IsSpelling name l.tag →
          (ofOperations operations).resolve (.str name) = .ok l) := by
  have hrun := ofOperations_invariant operations
  refine ⟨hrun.aliased, hrun.shared, ?_, ?_, ?_⟩
  · intro language r' found hget
    obtain ⟨l, c, hmeant, hclass, hfound⟩ := get_cases hget
    refine ⟨l, resolve_eq_ok_iff.mpr ⟨hmeant, Assoc.contains_of_get? hclass⟩, ?_⟩
    rcases hfound with ⟨hthere, -⟩ | ⟨-, rfl, -⟩
    · obtain ⟨e, he, hkey, rfl⟩ := Assoc.exists_mem_entry_of_get? hthere
      rw [← hkey]
      exact hrun.shared e he
    · exact hclass
  · intro language l h
    exact (resolve_eq_ok_iff.mp h).2
  · intro hkept
    have htags := ofOperations_tagsUnaliased hkept
    refine ⟨fun a ha l hl => ?_, fun l hl name hname => ?_⟩
    · have htagged := htags a ha
      rw [hl, Alias.tagged?, Language.ofTag?_tag] at htagged
      cases htagged
    · exact resolve_eq_ok_iff.mpr ⟨htags.named?_spelling hname, hl⟩

/-- A language that is removed and registered anew is served by the new class, also under its tag in
capitals with blanks around it. -/
theorem tables_of_run_registered_anew :
    ∃ operations : List Operation, (∀ operation ∈ operations, operation.replaces = false) ∧
      (ofOperations operations).resolve (.str " cURL\n") = .ok .curl ∧
      ∃ r' found, (ofOperations operations).get (.language .curl) = .ok (r', found) ∧
        Assoc.get? .curl (ofOperations operations).classes = some (.complete found.generator) ∧
        found.generator = Go.generator := by
  let operations : List Operation :=
    [.register (.language .curl) (some (.complete Curl.generator)) .null false,
      .get (.language .curl), .unregister (.language .curl),
      .register (.language .curl) (some (.complete Go.generator)) .null false]
  have hkept : ∀ operation ∈ operations, operation.replaces = false := by
    simp [operations, Operation.replaces]
  obtain ⟨-, -, hget, -, htags⟩ := tables_of_run operations
  have hspelling : Text.IsSpelling " cURL\n" (Language.tag .curl) :=
    ⟨" ", "cURL", "\n", rfl, rfl,
      .cons (.inl rfl) (.cons (.inr rfl) (.cons (.inr rfl) (.cons (.inr rfl) .nil))), rfl⟩
  refine ⟨operations, hkept, (htags hkept).2 .curl rfl _ hspelling, _, _, rfl, ?_, rfl⟩
  obtain ⟨l, hresolve, hclass⟩ := hget (.language .curl) _ _ rfl
  obtain rfl : .curl = l := Except.ok.inj hresolve
  exact hclass

end HttpWorkbench.Export.Registry
