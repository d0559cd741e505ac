import HttpWorkbench.Proofs.Registry.Run

/-!
# What a registration leaves behind

A registration looks at its class and its tag before it writes anything, and at its aliases one
after the other while it writes them. One that is refused at an alias has bound the language by
then, and has added the aliases before: it leaves what a registration with these aliases alone would
leave, and later ones of the same language are passed over.
-/

namespace HttpWorkbench.Export.Registry

section Aliases

variable {r r' : Registry} {target : Language} {replace : Bool} {failure : Failure}

/-- Adding aliases changes nothing but the aliases. -/
theorem addAliases_eq (r : Registry) (target : Language) (replace : Bool) (given : List Value) :
    (r.addAliases target replace given).1 =
      { r with aliases := (r.addAliases target replace given).1.aliases } := by
  refine addAliases_induction (p := fun r' => r' = { r with aliases := r'.aliases })
    (fun name _ key _ r' _ h => ?_) rfl
  rw [h]
  rfl

/-- An alias that is refused changes nothing. -/
theorem eq_of_refused {name : Value}
    (h : r.addAliases target replace [name] = (r', .error failure)) : r' = r := by
  rw [addAliases] at h
  cases hkey : Alias.ofValue name with
  | error failure =>
    rw [hkey] at h
    exact (Prod.mk.inj h).1.symm
  | ok key =>
    simp only [hkey] at h
    split at h
    · cases h
    · split at h
      · exact (Prod.mk.inj h).1.symm
      · cases h

/-- Aliases are added from where the first of them leads, unless it is refused. -/
theorem addAliases_cons (r : Registry) (target : Language) (replace : Bool) (name : Value)
    (given : List Value) : r.addAliases target replace (name :: given) =
      match r.addAliases target replace [name] with
      | (r', .ok ()) => r'.addAliases target replace given
      | refused => refused := by
  rw [addAliases, addAliases]
  cases Alias.ofValue name with
  | error failure => rfl
  | ok key =>
    simp only
    split
    · rfl
    · split <;> rfl

/-- Adding aliases stops at the first that is refused, and leaves what the ones before it leave. -/
theorem addAliases_error {given : List Value}
    (h : r.addAliases target replace given = (r', .error failure)) :
    ∃ accepted refused rest, given = accepted ++ refused :: rest ∧
      r.addAliases target replace accepted = (r', .ok ()) ∧
      r'.addAliases target replace [refused] = (r', .error failure) := by
  induction given generalizing r with
  | nil => cases h
  | cons name given ih =>
    rw [addAliases_cons] at h
    cases hfirst : r.addAliases target replace [name] with
    | mk r₁ outcome =>
      simp only [hfirst] at h
      cases outcome with
      | error failure' =>
        obtain ⟨rfl, hfailure⟩ := Prod.mk.inj h
        obtain rfl := eq_of_refused hfirst
        obtain rfl := Except.error.inj hfailure
        exact ⟨[], name, given, rfl, rfl, hfirst⟩
      | ok =>
        obtain ⟨accepted, refused, rest, rfl, haccepted, hrefused⟩ := ih h
        refine ⟨name :: accepted, refused, rest, rfl, ?_, hrefused⟩
        rw [addAliases_cons, hfirst]
        exact haccepted

end Aliases

theorem givenAliases_list (given : List Value) : givenAliases (.list given) = .ok given := by
  cases given <;> rfl

/-- A registration that is refused at an alias leaves what a registration with the aliases before
leaves: the language is bound, nothing is shared for it, and later registrations are passed over. -/
theorem register_refused_at_alias {r r' : Registry} {language : Value} {target : Language}
    {c : GeneratorClass} {aliases : Value} {replace : Bool} {failure : Failure}
    (htarget : targetOf language = .ok target)
    (h : r.register language (some c) aliases replace = (r', .error failure)) :
    (Assoc.contains target r.classes && !replace) = false ∧
      (∃ accepted, r.register language (some c) (.list accepted) replace = (r', .ok ()) ∧
        ∀ given, givenAliases aliases = .ok given → ∃ refused rest,
          given = accepted ++ refused :: rest ∧
            r'.addAliases target replace [refused] = (r', .error failure)) ∧
      Assoc.get? target r'.classes = some c ∧ Assoc.get? target r'.shared = none := by
  cases heffect : Assoc.contains target r.classes && !replace with
  | true =>
    rw [Bool.and_eq_true, Bool.not_eq_true'] at heffect
    rw [heffect.2, register_of_bound htarget heffect.1] at h
    cases h
  | false =>
    have htables : r' = { r.bound target c with aliases := r'.aliases } ∧
        ∃ accepted, r.register language (some c) (.list accepted) replace = (r', .ok ()) ∧
          ∀ given, givenAliases aliases = .ok given → ∃ refused rest,
            given = accepted ++ refused :: rest ∧
              r'.addAliases target replace [refused] = (r', .error failure) := by
      rw [register_eq htarget c aliases heffect] at h
      cases hgiven : givenAliases aliases with
      | error failure' =>
        rw [hgiven] at h
        obtain ⟨rfl, -⟩ := Prod.mk.inj h
        refine ⟨rfl, [], ?_, nofun⟩
        rw [register_eq htarget c _ heffect]
        rfl
      | ok given =>
        rw [hgiven] at h
        obtain ⟨accepted, refused, rest, rfl, haccepted, hrefused⟩ := addAliases_error h
        refine ⟨?_, accepted, ?_, ?_⟩
        · have hleft := addAliases_eq (r.bound target c) target replace accepted
          rw [haccepted] at hleft
          exact hleft
        · rw [register_eq htarget c _ heffect, givenAliases_list]
          exact haccepted
        · intro given hgiven
          obtain rfl := Except.ok.inj hgiven
          exact ⟨refused, rest, rfl, hrefused⟩
    obtain ⟨htables, haccepted⟩ := htables
    refine ⟨rfl, haccepted, ?_, ?_⟩
    · rw [htables]
      exact Assoc.get?_put_self target c r.classes
    · rw [htables]
      exact Assoc.get?_erase_self target r.shared

/-- A registration that fails leaves the registry as it is if it is refused for its class or its
tag, and if it is to replace nothing, only then. One that is refused at an alias leaves what a
registration with the aliases before leaves: the language is bound to the class, nothing is shared
for it, and a later registration that mends the aliases is passed over. -/
theorem registry_of_failed_registration {r r' : Registry} {language : Value}
    {candidate : Option GeneratorClass} {aliases : Value} {replace : Bool} {failure : Failure}
    (h : r.register language candidate aliases replace = (r', .error failure)) :
    (candidate = none ∨ (∃ refusal, targetOf language = .error refusal) → r' = r) ∧
    (replace = false → r' = r → candidate = none ∨ ∃ refusal, targetOf language = .error refusal) ∧
    ∀ c target, candidate = some c → targetOf language = .ok target →
      (∃ accepted, r.register language candidate (.list accepted) replace = (r', .ok ()) ∧
        ∀ given, givenAliases aliases = .ok given → ∃ refused rest,
          given = accepted ++ refused :: rest ∧
            r'.addAliases target replace [refused] = (r', .error failure)) ∧
      Assoc.get? target r'.classes = some c ∧ Assoc.get? target r'.shared = none ∧
      ∀ later mended, r'.register language (some later) mended false = (r', .ok ()) := by
  refine ⟨?_, ?_, ?_⟩
  · rintro (rfl | ⟨refusal, hrefusal⟩)
    · exact (Prod.mk.inj h).1.symm
    · cases candidate with
      | none => exact (Prod.mk.inj h).1.symm
      | some c =>
        rw [register, hrefusal] at h
        exact (Prod.mk.inj h).1.symm
  · rintro rfl rfl
    cases candidate with
    | none => exact .inl rfl
    | some c =>
      cases htarget : targetOf language with
      | error refusal => exact .inr ⟨refusal, rfl⟩
      | ok target =>
        obtain ⟨heffect, -, hclass, -⟩ := register_refused_at_alias htarget h
        rw [Assoc.contains_of_get? hclass] at heffect
        cases heffect
  · rintro c target rfl htarget
    obtain ⟨-, haccepted, hclass, hshared⟩ := register_refused_at_alias htarget h
    exact ⟨haccepted, hclass, hshared,
      fun later mended => register_of_bound htarget (Assoc.contains_of_get? hclass) later mended⟩

/-- A registration that fails at its second alias leaves the language bound and the first alias
added. -/
theorem registry_of_failed_registration_second_alias :
    ∃ r', empty.register (.language .curl) (some (.complete Curl.generator))
        (.list [.str "sh", .str "go"]) false = (r', .error (.registry (.aliasIsTag "go"))) ∧
      Assoc.get? .curl r'.classes = some (.complete Curl.generator) ∧
      ∀ later mended, r'.register (.language .curl) (some later) mended false = (r', .ok ()) := by
  have hfailed : empty.register (.language .curl) (some (.complete Curl.generator))
      (.list [.str "sh", .str "go"]) false =
        (⟨[(.curl, .complete Curl.generator)], [(.text "sh", .curl)], [], 0⟩,
          .error (.registry (.aliasIsTag "go"))) := rfl
  obtain ⟨-, -, hrest⟩ := registry_of_failed_registration hfailed
  obtain ⟨-, hclass, -, hlater⟩ := hrest _ .curl rfl rfl
  exact ⟨_, hfailed, hclass, hlater⟩

/-- A registration that fails does not leave the registry as it was, and mending its aliases comes
too late: the mended alias does not lead to the language. -/
theorem failed_registration_binds :
    ∃ r', empty.register (.language .curl) (some (.complete Curl.generator)) (.list [.str "go"]) false =
        (r', .error (.registry (.aliasIsTag "go"))) ∧
      r'.languages = [.curl] ∧ r' ≠ empty ∧
      (r'.register (.language .curl) (some (.complete Curl.generator)) (.list [.str "shell"]) false).1 =
        r' ∧
      r'.resolve (.str "shell") = .error (.unsupportedLanguage "shell" [.curl]) := by
  refine ⟨_, rfl, rfl, ?_, rfl, rfl⟩
  intro h
  cases congrArg Registry.classes h

end HttpWorkbench.Export.Registry
