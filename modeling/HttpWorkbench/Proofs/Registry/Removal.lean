import HttpWorkbench.Proofs.Registry.KeptNames

/-!
# Languages that are removed

Removing a language leaves nothing of it in the registry, so that nothing leads to it any more, and
does not touch the other languages. Registering a language of which there is nothing has one effect,
whatever else is registered: its class and its aliases are put behind the others. So a language that
was removed can be registered as one that never was.
-/

namespace HttpWorkbench.Export.Registry

/-- There is nothing for the language: no class, no alias, no shared instance. -/
structure Lacks (r : Registry) (l : Language) : Prop where
  unbound : Assoc.contains l r.classes = false
  unaliased : ∀ a ∈ r.aliases, a.2 ≠ l
  unshared : Assoc.contains l r.shared = false

section Removed

variable {r r' : Registry} {v : Value} {l : Language}

/-- Nothing leads to a language of which there is nothing. -/
theorem Lacks.resolve_ne (hr : r.Lacks l) (v : Value) : r.resolve v ≠ .ok l := by
  intro hresolve
  have hbound := (resolve_eq_ok_iff.mp hresolve).2
  rw [hr.unbound] at hbound
  cases hbound

/-- Removing a language leaves nothing of it. -/
theorem unregister_lacks (hresolve : r.resolve v = .ok l) (h : r.unregister v = .ok r') :
    r'.Lacks l := by
  rw [unregister_eq hresolve] at h
  obtain rfl := Except.ok.inj h
  exact ⟨Assoc.contains_erase_self, fun a ha => of_decide_eq_true (List.mem_filter.mp ha).2,
    Assoc.contains_erase_self⟩

/-- Removing a language does not touch the others. -/
theorem unregister_keepsOthers (hresolve : r.resolve v = .ok l) (h : r.unregister v = .ok r') :
    KeepsOthers l r r' := by
  rw [unregister_eq hresolve] at h
  obtain rfl := Except.ok.inj h
  refine ⟨fun m hm => Assoc.get?_erase_of_ne (Ne.symm hm), fun m hm => ?_,
    fun m hm => Assoc.get?_erase_of_ne (Ne.symm hm), fun key m hm howner => ?_,
    fun m hfree => Assoc.get?_filter_eq_none hfree _, rfl⟩
  · change ((r.aliases.filter fun a => a.2 ≠ l).filter fun a => a.2 = m) = _
    rw [List.filter_filter]
    refine List.filter_congr fun a _ => ?_
    by_cases ha : a.2 = m
    · simp [ha, hm]
    · simp [ha]
  · exact Assoc.get?_filter_of_value (fun m => decide (m ≠ l)) howner (decide_eq_true hm)

/-- A name that does not resolve is refused with the languages that there are. -/
theorem resolve_error (h : ∀ l, r.resolve v ≠ .ok l) :
    r.resolve v = .error (.unsupportedLanguage v.text r.languages) := by
  rw [resolve, find]
  cases hfind : r.find? v with
  | none => rfl
  | some found =>
    refine absurd ?_ (h found.1)
    rw [resolve, find, hfind]
    rfl

end Removed

section Never

variable {r : Registry} {l : Language}

/-- The operation is a registration of the language, accepted or not. -/
def Operation.Registers (operation : Operation) (l : Language) : Prop :=
  ∃ language candidate aliases replace,
    operation = .register language candidate aliases replace ∧ targetOf language = .ok l

/-- A language that has a class after an operation had one before, or the operation registers it. -/
theorem contains_of_step {operation : Operation}
    (h : Assoc.contains l (r.step operation).classes = true) :
    Assoc.contains l r.classes = true ∨ operation.Registers l := by
  rcases step_cases r operation with
    ⟨made, hstep⟩ | ⟨m, found, -, hstep⟩ | ⟨_, m, -, hstep⟩ |
      ⟨language, c, aliases, replace, target, given, rfl, htarget, -, hstep⟩
  · rw [hstep] at h
    exact .inl h
  · rw [hstep] at h
    exact .inl h
  · rw [hstep] at h
    obtain ⟨e, he, hkey⟩ := List.any_eq_true.mp h
    exact .inl (List.any_eq_true.mpr ⟨e, (Assoc.mem_erase he).1, hkey⟩)
  · rw [hstep, addAliases_eq] at h
    obtain ⟨e, he, hkey⟩ := List.any_eq_true.mp h
    rcases Assoc.mem_put he with he | rfl
    · exact .inl (List.any_eq_true.mpr ⟨e, he, hkey⟩)
    · obtain rfl : target = l := beq_iff_eq.mp hkey
      exact .inr ⟨language, some c, aliases, replace, rfl, htarget⟩

/-- In a registry that can be reached, there is nothing for a language that has no class. -/
theorem Invariant.lacks (hr : r.Invariant) (hunbound : Assoc.contains l r.classes = false) :
    r.Lacks l where
  unbound := hunbound
  unaliased a ha := by
    rintro rfl
    rw [hr.aliased a ha] at hunbound
    cases hunbound
  unshared := by
    rw [Assoc.contains, List.any_eq_false]
    rintro e he hkey
    obtain rfl := beq_iff_eq.mp hkey
    rw [Assoc.contains_of_get? (hr.shared e he)] at hunbound
    cases hunbound

/-- After operations that never register a language, there is nothing for it. -/
theorem lacks_of_never {operations : List Operation}
    (hnever : ∀ operation ∈ operations, ¬operation.Registers l) :
    (ofOperations operations).Lacks l := by
  refine (ofOperations_invariant operations).lacks ?_
  refine ofOperations_induction (p := fun r => Assoc.contains l r.classes = false) rfl ?_
  intro operation hmem r hr
  refine Bool.eq_false_iff.mpr fun hthere => ?_
  rcases contains_of_step hthere with hbefore | hregisters
  · rw [hr] at hbefore
    cases hbefore
  · exact hnever operation hmem hregisters

end Never

/-! ## Registering anew -/

section Anew

variable {r : Registry} {l : Language} {given : List Value}

/-- The values can be aliases, and no other language has one of them as its tag or its alias. -/
def AreFree (r : Registry) (l : Language) (given : List Value) : Prop :=
  ∀ v ∈ given, ∃ key, Alias.ofValue v = .ok key ∧
    (key.tagged? = none ∨ key.tagged? = some l) ∧ ∀ a ∈ r.aliases, a.1 = key → a.2 = l

/-- The entry of the alias that a value is; the tag of the language needs none. -/
def entryFor? (l : Language) (v : Value) : Option (Alias × Language) :=
  match Alias.ofValue v with
  | .ok key => if key.tagged? = some l then none else some (key, l)
  | .error _ => none

/-- A registry with a class for a language and with the aliases that are given for it, each once,
behind what there is. -/
def withLanguage (r : Registry) (l : Language) (c : GeneratorClass) (given : List Value) : Registry :=
  { r with
    classes := r.classes ++ [(l, c)]
    aliases := r.aliases ++ Assoc.ofList (given.filterMap (entryFor? l)) }

/-- An alias that no other language has is accepted. -/
theorem aliasConflict?_eq_none {v : Value} {key : Alias} (replace : Bool) (htag : key.tagged? = none)
    (howned : ∀ a ∈ r.aliases, a.1 = key → a.2 = l) : r.aliasConflict? l v key replace = none := by
  rw [aliasConflict?, htag]
  cases replace with
  | true => rfl
  | false =>
    cases hget : Assoc.get? key r.aliases with
    | none => rfl
    | some owner =>
      obtain ⟨a, ha, hkey, rfl⟩ := Assoc.exists_mem_entry_of_get? hget
      exact if_pos (howned a ha hkey)

/-- Free aliases are all added. -/
theorem addAliases_of_free (hfree : r.AreFree l given) (replace : Bool) :
    r.addAliases l replace given =
      ({ r with aliases := Assoc.putAll r.aliases (given.filterMap (entryFor? l)) }, .ok ()) := by
  induction given generalizing r with
  | nil => rfl
  | cons v given ih =>
    obtain ⟨⟨key, hkey, htag, howned⟩, hrest⟩ := List.forall_mem_cons.mp hfree
    rw [addAliases]
    simp only [hkey]
    by_cases hown : key.tagged? = some l
    · have hentry : entryFor? l v = none := by
        simp only [entryFor?, hkey]
        exact if_pos hown
      rw [if_pos hown, ih hrest, List.filterMap_cons_none hentry]
    · have hentry : entryFor? l v = some (key, l) := by
        simp only [entryFor?, hkey]
        exact if_neg hown
      have hlater : (r.withAlias key l).AreFree l given := fun w hw => by
        obtain ⟨key', hkey', htag', howned'⟩ := hrest w hw
        refine ⟨key', hkey', htag', fun a ha hsame => ?_⟩
        rcases Assoc.mem_put ha with ha | rfl
        · exact howned' a ha hsame
        · rfl
      rw [if_neg hown, aliasConflict?_eq_none replace (htag.resolve_right hown) howned,
        List.filterMap_cons_some hentry]
      exact ih hlater

/-- Where there is nothing for a language, a registration with free aliases binds it to the class and
gives it the aliases, and that is all. -/
theorem Lacks.register_eq (hr : r.Lacks l) (hfree : r.AreFree l given) {language aliases : Value}
    (htarget : targetOf language = .ok l) (hgiven : givenAliases aliases = .ok given)
    (c : GeneratorClass) (replace : Bool) :
    r.register language (some c) aliases replace = (r.withLanguage l c given, .ok ()) := by
  have hshared : Assoc.erase l r.shared = r.shared := Assoc.erase_of_not_contains hr.unshared
  have hnew : ∀ e ∈ given.filterMap (entryFor? l), Assoc.contains e.1 r.aliases = false := by
    intro e he
    obtain ⟨v, hv, hentry⟩ := List.mem_filterMap.mp he
    obtain ⟨key, hkey, -, howned⟩ := hfree v hv
    simp only [entryFor?, hkey] at hentry
    split at hentry
    · cases hentry
    · obtain rfl := Option.some.inj hentry
      rw [Assoc.contains, List.any_eq_false]
      exact fun a ha hsame => hr.unaliased a ha (howned a ha (beq_iff_eq.mp hsame))
  rw [Registry.register_eq htarget c aliases (by rw [hr.unbound]; rfl), hgiven]
  change (r.bound l c).addAliases l replace given = _
  have hbound : (r.bound l c).AreFree l given := hfree
  rw [addAliases_of_free hbound, bound, hshared, Assoc.put_of_not_contains hr.unbound]
  have hput : Assoc.putAll (r.aliases ++ []) (given.filterMap (entryFor? l)) =
      r.aliases ++ Assoc.ofList (given.filterMap (entryFor? l)) := Assoc.putAll_append_of_new hnew
  rw [List.append_nil] at hput
  rw [withLanguage, hput]

/-- Removing the language that a name leads to leaves nothing of it: nothing resolves to it, and it
has no alias and no shared instance. What resolved to another language still does, with the same
class and the same instance. Registering the language anew, with aliases that are free, has the
effect that it has in any registry in which it was never registered. A name that does not resolve is
refused, and nothing is changed. -/
theorem unregister_leaves_nothing (r : Registry) (name : Value) :
    (∀ l, r.resolve name = .ok l → ∃ r', r.unregister name = .ok r' ∧
      (∀ v, r'.resolve v ≠ .ok l) ∧ (∀ a ∈ r'.aliases, a.2 ≠ l) ∧
      Assoc.get? l r'.shared = none ∧
      (∀ v m, m ≠ l → r.resolve v = .ok m → r'.resolve v = .ok m ∧ r'.classOf v = r.classOf v ∧
        (r'.get v).map Prod.snd = (r.get v).map Prod.snd) ∧
      ∀ never : List Operation, (∀ operation ∈ never, ¬operation.Registers l) →
        ∀ language aliases given, targetOf language = .ok l → givenAliases aliases = .ok given →
          r'.AreFree l given → (ofOperations never).AreFree l given → ∀ c replace,
            r'.register language (some c) aliases replace = (r'.withLanguage l c given, .ok ()) ∧
            (ofOperations never).register language (some c) aliases replace =
              ((ofOperations never).withLanguage l c given, .ok ())) ∧
    ((∀ l, r.resolve name ≠ .ok l) →
      r.unregister name = .error (.unsupportedLanguage name.text r.languages) ∧
      r.step (.unregister name) = r) := by
  refine ⟨fun l hresolve => ?_, fun hunknown => ?_⟩
  · have hremoved := unregister_eq hresolve
    have hlacks := unregister_lacks hresolve hremoved
    have hothers := unregister_keepsOthers hresolve hremoved
    refine ⟨_, hremoved, hlacks.resolve_ne, hlacks.unaliased, Assoc.get?_erase_self l r.shared,
      fun v m hm hv => hothers.resolve hm hv, ?_⟩
    intro never hnever language aliases given htarget hgiven hfree hfree' c replace
    exact ⟨hlacks.register_eq hfree htarget hgiven c replace,
      (lacks_of_never hnever).register_eq hfree' htarget hgiven c replace⟩
  · have hrefused : r.unregister name = .error (.unsupportedLanguage name.text r.languages) := by
      rw [unregister, resolve_error hunknown]
      rfl
    refine ⟨hrefused, ?_⟩
    rw [step, hrefused]
    rfl

/-- The tag of Go is an alias of curl, so that curl is removed under it. Go keeps its instance, and
curl is registered anew as beside Go alone. -/
theorem unregister_leaves_nothing_taken_tag :
    ∃ r r' never : Registry,
      r = ofOperations [.register (.language .curl) (some (.complete Curl.generator))
          (.list [.str "go"]) true,
        .register (.str "Go") (some (.complete Go.generator)) (.list [.str "golang"]) false,
        .get (.str "golang")] ∧
      never = ofOperations [.register (.str "Go") (some (.complete Go.generator)) (.list []) false] ∧
      r.unregister (.str " GO\n") = .ok r' ∧ (∀ v, r'.resolve v ≠ .ok .curl) ∧
      r.resolve (.str "golang") = .ok .go ∧
      (r'.get (.str "golang")).map Prod.snd = (r.get (.str "golang")).map Prod.snd ∧
      r'.register (.str "curl") (some (.complete Curl.generator)) (.list [.str "Shell"]) false =
        (r'.withLanguage .curl (.complete Curl.generator) [.str "Shell"], .ok ()) ∧
      never.register (.str "curl") (some (.complete Curl.generator)) (.list [.str "Shell"]) false =
        (never.withLanguage .curl (.complete Curl.generator) [.str "Shell"], .ok ()) := by
  obtain ⟨r', hremoved, hnothing, -, -, hothers, hanew⟩ :=
    (unregister_leaves_nothing (ofOperations [.register (.language .curl)
        (some (.complete Curl.generator)) (.list [.str "go"]) true,
      .register (.str "Go") (some (.complete Go.generator)) (.list [.str "golang"]) false,
      .get (.str "golang")]) (.str " GO\n")).1 .curl rfl
  obtain ⟨-, -, hinstance⟩ := hothers (.str "golang") .go nofun rfl
  have hnever : ∀ operation ∈ [Operation.register (.str "Go") (some (.complete Go.generator))
      (.list []) false], ¬operation.Registers .curl := by
    intro operation hmem
    rw [List.mem_singleton.mp hmem]
    rintro ⟨language, candidate, aliases, replace, hregister, htarget⟩
    obtain rfl := (Operation.register.inj hregister).1
    cases htarget
  have hshell (r : Registry) (hr : r.aliases = [] ∨ r.aliases = [(.text "golang", .go)]) :
      r.AreFree .curl [.str "Shell"] := by
    intro v hv
    rw [List.mem_singleton.mp hv]
    refine ⟨.text "shell", rfl, .inl rfl, ?_⟩
    rcases hr with hr | hr <;> rw [hr] <;> decide
  obtain rfl := Except.ok.inj hremoved
  obtain ⟨hagain, hfirst⟩ := hanew _ hnever (.str "curl") (.list [.str "Shell"]) [.str "Shell"] rfl
    rfl (hshell _ (.inr rfl)) (hshell _ (.inl rfl)) (.complete Curl.generator) false
  exact ⟨_, _, _, rfl, rfl, hremoved, hnothing, rfl, hinstance, hagain, hfirst⟩

end Anew

end HttpWorkbench.Export.Registry
