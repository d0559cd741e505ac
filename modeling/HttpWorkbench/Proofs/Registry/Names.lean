import HttpWorkbench.Proofs.Registry.Registration
import HttpWorkbench.Proofs.Text.LowerCase

/-!
# Names that are listed

Aliases are kept in lower case, each once, and a lookup brings what it is asked for to lower case as
well. So every alias that is listed leads to the language it is listed for. A tag leads to its
language as long as no replacement gave it to another one as an alias: aliases are looked at before
tags, and the names that are listed under a tag are those of the language that the tag leads to.
-/

namespace HttpWorkbench.Export.Registry

/-- A tag is in lower case and has no blanks around it. -/
theorem lower_trim_tag (l : Language) : Text.lower (Text.trim l.tag) = l.tag := by
  cases l <;> rfl

/-- Aliases that are texts, as an operation is given them. -/
def Operation.GivesTexts : Operation → Prop
  | .register _ _ aliases _ =>
    ∀ given, givenAliases aliases = .ok given → ∀ v ∈ given, ∃ name, v = .str name
  | _ => True

theorem givesTexts {language : Value} {candidate : Option GeneratorClass} {aliases : Value}
    {replace : Bool} {given : List Value} (hgiven : givenAliases aliases = .ok given)
    (htexts : ∀ v ∈ given, ∃ name, v = .str name) :
    (Operation.register language candidate aliases replace).GivesTexts := by
  intro given' hgiven'
  obtain rfl := Except.ok.inj (hgiven.symm.trans hgiven')
  exact htexts

/-- Every alias is a text in lower case, and is there once. -/
structure WellNamed (r : Registry) : Prop where
  distinct : (r.aliases.map Prod.fst).Nodup
  lowered : ∀ a ∈ r.aliases, ∃ name, a.1 = .text name ∧ Text.lower name = name

section Adding

variable {r r' : Registry} {target : Language} {replace : Bool}

/-- A text that is given as an alias is the tag of the language, or is added in lower case, or is
refused. The tag of another language is added only by a replacement. -/
theorem addAliases_text (r : Registry) (target : Language) (replace : Bool) (name : Text) :
    (Text.lower name = target.tag ∧ r.addAliases target replace [.str name] = (r, .ok ())) ∨
    ((replace = true ∨ Language.ofTag? (Text.lower name) = none) ∧
      r.addAliases target replace [.str name] =
        (r.withAlias (.text (Text.lower name)) target, .ok ())) ∨
    ∃ failure, r.addAliases target replace [.str name] = (r, .error failure) := by
  have hkey : Alias.ofValue (.str name) = .ok (.text (Text.lower name)) := rfl
  rw [addAliases]
  simp only [hkey, addAliases]
  split
  · rename_i htag
    exact .inl ⟨Language.eq_tag_of_ofTag? htag, rfl⟩
  · cases hconflict : r.aliasConflict? target (.str name) (.text (Text.lower name)) replace with
    | some reason => exact .inr (.inr ⟨_, rfl⟩)
    | none =>
      refine .inr (.inl ⟨?_, rfl⟩)
      cases replace with
      | true => exact .inl rfl
      | false => exact .inr (free_of_aliasConflict? hconflict).1

theorem WellNamed.withAlias (hr : r.WellNamed) (name : Text) (target : Language) :
    (r.withAlias (.text (Text.lower name)) target).WellNamed where
  distinct := Assoc.nodup_put hr.distinct
  lowered a ha := by
    rcases Assoc.mem_put ha with ha | rfl
    · exact hr.lowered a ha
    · exact ⟨Text.lower name, rfl, Text.lower_lower name⟩

/-- Adding texts as aliases keeps the aliases in lower case and distinct, wherever it stops. -/
theorem addAliases_wellNamed (hr : r.WellNamed) (target : Language) (replace : Bool)
    {given : List Value} (htexts : ∀ v ∈ given, ∃ name, v = .str name) :
    (r.addAliases target replace given).1.WellNamed := by
  refine addAliases_induction (fun v hv key hkey r _ hr => ?_) hr
  obtain ⟨name, rfl⟩ := htexts v hv
  obtain rfl : .text (Text.lower name) = key := Except.ok.inj hkey
  exact hr.withAlias name target

/-- Adding aliases of a language takes none away from it. -/
theorem get?_addAliases (target : Language) (replace : Bool) (given : List Value) {key : Alias}
    (hkey : Assoc.get? key r.aliases = some target) :
    Assoc.get? key (r.addAliases target replace given).1.aliases = some target := by
  refine addAliases_induction (p := fun r => Assoc.get? key r.aliases = some target)
    (fun name _ key' _ r _ hget => ?_) hkey
  by_cases hsame : key' = key
  · rw [← hsame]
    exact Assoc.get?_put_self _ target r.aliases
  · exact (Assoc.get?_put_of_ne hsame target r.aliases).trans hget

/-- When all aliases are accepted, each of them is the tag of the language or leads to it. -/
theorem get?_of_addAliases {given : List Value} (htexts : ∀ v ∈ given, ∃ name, v = .str name)
    (h : r.addAliases target replace given = (r', .ok ())) {name : Text} (hname : .str name ∈ given) :
    Text.lower name = target.tag ∨ Assoc.get? (.text (Text.lower name)) r'.aliases = some target := by
  induction given generalizing r with
  | nil => cases hname
  | cons v given ih =>
    rw [List.forall_mem_cons] at htexts
    obtain ⟨⟨first, rfl⟩, htexts⟩ := htexts
    rw [addAliases_cons] at h
    rcases addAliases_text r target replace first with
      ⟨htag, hfirst⟩ | ⟨-, hfirst⟩ | ⟨failure, hfirst⟩
    · rw [hfirst] at h
      rcases List.mem_cons.mp hname with hname | hname
      · obtain rfl := Value.str.inj hname
        exact .inl htag
      · exact ih htexts h hname
    · rw [hfirst] at h
      rcases List.mem_cons.mp hname with hname | hname
      · obtain rfl := Value.str.inj hname
        have hrest : (r.withAlias (.text (Text.lower name)) target).addAliases target replace given =
            (r', .ok ()) := h
        have hadded := Assoc.get?_put_self (.text (Text.lower name)) target r.aliases
        have hkept := get?_addAliases (r := r.withAlias _ target) target replace given hadded
        rw [hrest] at hkept
        exact .inr hkept
      · exact ih htexts h hname
    · rw [hfirst] at h
      cases h

/-- An alias that is there after some were added was there before, or is one of them. The tag of
another language is added by a replacement only. -/
theorem mem_addAliases {given : List Value} (htexts : ∀ v ∈ given, ∃ name, v = .str name)
    {a : Alias × Language} (ha : a ∈ (r.addAliases target replace given).1.aliases) :
    a ∈ r.aliases ∨ ∃ name, .str name ∈ given ∧ a = (.text (Text.lower name), target) ∧
      (replace = true ∨ Language.ofTag? (Text.lower name) = none) := by
  refine addAliases_induction (p := fun r' => ∀ a ∈ r'.aliases, a ∈ r.aliases ∨
    ∃ name, .str name ∈ given ∧ a = (.text (Text.lower name), target) ∧
      (replace = true ∨ Language.ofTag? (Text.lower name) = none))
    (fun v hv key hkey r' hconflict hr a ha => ?_) (fun a ha => .inl ha) a ha
  obtain ⟨name, rfl⟩ := htexts v hv
  obtain rfl : .text (Text.lower name) = key := Except.ok.inj hkey
  rcases Assoc.mem_put ha with ha | rfl
  · exact hr a ha
  · refine .inr ⟨name, hv, rfl, ?_⟩
    cases replace with
    | true => exact .inl rfl
    | false => exact .inr (free_of_aliasConflict? hconflict).1

end Adding

/-- An operation leaves the aliases as they are, takes those of one language away, or adds some that
it is given. -/
theorem step_aliases (r : Registry) (operation : Operation) :
    (r.step operation).aliases = r.aliases ∨
    (∃ target, (r.step operation).aliases = r.aliases.filter fun a => a.2 ≠ target) ∨
    ∃ language c aliases replace target given,
      operation = .register language (some c) aliases replace ∧ targetOf language = .ok target ∧
      (given = [] ∨ givenAliases aliases = .ok given) ∧
      r.step operation = ((r.bound target c).addAliases target replace given).1 := by
  rcases step_cases r operation with ⟨made, h⟩ | ⟨l, found, -, h⟩ | ⟨_, l, -, h⟩ | h
  · rw [h]
    exact .inl rfl
  · rw [h]
    exact .inl rfl
  · rw [h]
    exact .inr (.inl ⟨l, rfl⟩)
  · exact .inr (.inr h)

/-- An operation that gives texts as aliases, if any, keeps the aliases in lower case and
distinct. -/
theorem step_wellNamed {r : Registry} (hr : r.WellNamed) {operation : Operation}
    (htexts : operation.GivesTexts) : (r.step operation).WellNamed := by
  rcases step_aliases r operation with
    h | ⟨target, h⟩ | ⟨language, c, aliases, replace, target, given, rfl, -, hgiven, h⟩
  · constructor
    · rw [h]
      exact hr.distinct
    · rw [h]
      exact hr.lowered
  · constructor
    · rw [h]
      exact hr.distinct.sublist (List.filter_sublist.map Prod.fst)
    · rw [h]
      exact fun a ha => hr.lowered a (List.mem_of_mem_filter ha)
  · rw [h]
    have hbound : (r.bound target c).WellNamed := ⟨hr.distinct, hr.lowered⟩
    refine addAliases_wellNamed hbound target replace ?_
    rcases hgiven with rfl | hgiven
    · nofun
    · exact htexts given hgiven

/-- After every row of operations that give texts as aliases, the aliases are in lower case and
distinct. -/
theorem ofOperations_wellNamed {operations : List Operation}
    (htexts : ∀ operation ∈ operations, operation.GivesTexts) :
    (ofOperations operations).WellNamed :=
  ofOperations_induction ⟨List.nodup_nil, nofun⟩ fun operation hmem _ hr =>
    step_wellNamed hr (htexts operation hmem)

theorem ofOperations_concat (operations : List Operation) (operation : Operation) :
    ofOperations (operations ++ [operation]) = (ofOperations operations).step operation := by
  rw [ofOperations, List.foldl_append]
  rfl

section Lookup

variable {r : Registry} {name : Text} {l owner : Language}

/-- A text whose trimmed lower case is an alias resolves to the language of the alias. -/
theorem resolve_of_alias (hr : r.Invariant)
    (h : Assoc.get? (.text (Text.lower (Text.trim name))) r.aliases = some owner) :
    r.resolve (.str name) = .ok owner := by
  obtain ⟨a, ha, -, rfl⟩ := Assoc.exists_mem_entry_of_get? h
  refine resolve_eq_ok_iff.mpr ⟨?_, hr.aliased a ha⟩
  rw [meant?, named?]
  simp only [h]

/-- An alias without blanks around it resolves to its language. -/
theorem resolve_alias (hr : r.Invariant) (hnames : r.WellNamed) (h : (.text name, owner) ∈ r.aliases)
    (htrim : Text.trim name = name) : r.resolve (.str name) = .ok owner := by
  obtain ⟨_, hname, hlower⟩ := hnames.lowered _ h
  obtain rfl := Alias.text.inj hname
  refine resolve_of_alias hr ?_
  rw [htrim, hlower]
  exact Assoc.get?_of_mem hnames.distinct h

/-- A text that spells the tag of a registered language resolves to it, or to the language that has
the tag as an alias. -/
theorem resolve_of_tag (hr : r.Invariant) (hl : Assoc.contains l r.classes = true)
    (htag : Text.lower (Text.trim name) = l.tag) :
    ∃ owner, r.resolve (.str name) = .ok owner ∧ (owner = l ∨ (.text l.tag, owner) ∈ r.aliases) := by
  cases hget : Assoc.get? (.text l.tag) r.aliases with
  | some owner =>
    obtain ⟨a, ha, hkey, rfl⟩ := Assoc.exists_mem_entry_of_get? hget
    exact ⟨a.2, resolve_of_alias hr (htag ▸ hget), .inr (hkey ▸ ha)⟩
  | none =>
    refine ⟨l, resolve_eq_ok_iff.mpr ⟨?_, hl⟩, .inl rfl⟩
    rw [meant?, named?, htag]
    simp only [hget]
    exact Language.ofTag?_tag l

/-- The aliases of a language are listed, each of them and no others. -/
theorem exists_aliasesOf (hnames : r.WellNamed) (owner : Language) :
    ∃ listed, r.aliasesOf owner = .ok listed ∧ ∀ a, a ∈ listed ↔ (a, owner) ∈ r.aliases := by
  have hmem (a : Alias) :
      a ∈ (r.aliases.filter fun a => a.2 = owner).map Prod.fst ↔ (a, owner) ∈ r.aliases := by
    simp
  have htexts : (((r.aliases.filter fun a => a.2 = owner).map Prod.fst).all
      fun a => a.toValue.isText) = true := by
    rw [List.all_eq_true]
    intro a ha
    obtain ⟨name, rfl, -⟩ := hnames.lowered _ ((hmem a).mp ha)
    rfl
  refine ⟨_, if_pos htexts, fun a => ?_⟩
  rw [List.mem_mergeSort]
  exact hmem a

/-- Under a registered tag, the names are listed that lead where the tag does. -/
theorem exists_namesOf (hr : r.Invariant) (hnames : r.WellNamed)
    (hl : Assoc.contains l r.classes = true) :
    ∃ owner listed, r.namesOf l = .ok (l.tag, .text l.tag :: listed) ∧
      r.resolve (.str l.tag) = .ok owner ∧ (owner = l ∨ (.text l.tag, owner) ∈ r.aliases) ∧
      ∀ a, a ∈ listed ↔ (a, owner) ∈ r.aliases := by
  obtain ⟨owner, hresolve, howner⟩ := resolve_of_tag hr hl (lower_trim_tag l)
  obtain ⟨listed, hlisted, hmem⟩ := exists_aliasesOf hnames owner
  refine ⟨owner, listed, ?_, hresolve, howner, hmem⟩
  rw [namesOf, aliasesFor, hresolve, ok_bind, hlisted]
  rfl

/-- After a registration that takes effect and is not refused, every alias it was given that has no
blanks around it resolves to the language. The tag of the language resolves to who has it as an
alias. -/
theorem resolve_given {r' : Registry} (hr' : r'.Invariant) {language : Value} {target : Language}
    {c : GeneratorClass} {aliases : Value} {replace : Bool} {given : List Value}
    (htarget : targetOf language = .ok target) (hgiven : givenAliases aliases = .ok given)
    (htexts : ∀ v ∈ given, ∃ name, v = .str name)
    (heffect : (Assoc.contains target r.classes && !replace) = false)
    (h : r.register language (some c) aliases replace = (r', .ok ())) (hname : .str name ∈ given)
    (htrim : Text.trim name = name) :
    ∃ owner, r'.resolve (.str name) = .ok owner ∧
      (owner = target ∨ Text.lower name = target.tag ∧ (.text target.tag, owner) ∈ r'.aliases) := by
  have hadded : (r.bound target c).addAliases target replace given = (r', .ok ()) := by
    rw [register_eq htarget c aliases heffect, hgiven] at h
    exact h
  rcases get?_of_addAliases htexts hadded hname with htag | hget
  · have hclasses := congrArg classes (addAliases_eq (r.bound target c) target replace given)
    rw [hadded] at hclasses
    have hbound : Assoc.contains target r'.classes = true := by
      rw [show r'.classes = (r.bound target c).classes from hclasses]
      exact Assoc.contains_put_self
    have hspelled : Text.lower (Text.trim name) = target.tag := by rw [htrim, htag]
    obtain ⟨owner, hresolve, howner⟩ := resolve_of_tag hr' hbound hspelled
    exact ⟨owner, hresolve, howner.imp_right fun htaken => ⟨htag, htaken⟩⟩
  · refine ⟨target, resolve_of_alias hr' ?_, .inl rfl⟩
    rw [htrim]
    exact hget

end Lookup

/-- The operation registers a language in place of what is there, and gives it the tag of a language
as an alias. -/
def Operation.TakesTag (operation : Operation) (l owner : Language) : Prop :=
  ∃ language c aliases given name, operation = .register language (some c) aliases true ∧
    targetOf language = .ok owner ∧ givenAliases aliases = .ok given ∧ .str name ∈ given ∧
    Text.lower name = l.tag

/-- A tag that is an alias after an operation was one before, or the operation has taken it. -/
theorem mem_step_aliases {r : Registry} {operation : Operation} (htexts : operation.GivesTexts)
    {l owner : Language} (h : (.text l.tag, owner) ∈ (r.step operation).aliases) :
    (.text l.tag, owner) ∈ r.aliases ∨ operation.TakesTag l owner := by
  rcases step_aliases r operation with
    hstep | ⟨target, hstep⟩ |
      ⟨language, c, aliases, replace, target, given, rfl, htarget, hgiven, hstep⟩
  · rw [hstep] at h
    exact .inl h
  · rw [hstep] at h
    exact .inl (List.mem_of_mem_filter h)
  · rw [hstep] at h
    rcases hgiven with rfl | hgiven
    · exact .inl h
    · obtain h | ⟨name, hname, hgave, hfree⟩ := mem_addAliases (htexts given hgiven) h
      · exact .inl h
      · obtain ⟨hkey, rfl⟩ := Prod.mk.inj hgave
        have htag : Text.lower name = l.tag := (Alias.text.inj hkey).symm
        rcases hfree with rfl | hfree
        · exact .inr ⟨language, c, aliases, given, name, rfl, htarget, hgiven, hname, htag⟩
        · rw [htag, Language.ofTag?_tag] at hfree
          cases hfree

/-- The tag of a language is an alias of another one, which has taken it. -/
def TagTaken (operations : List Operation) (l owner : Language) : Prop :=
  (.text l.tag, owner) ∈ (ofOperations operations).aliases ∧
    ∃ operation ∈ operations, operation.TakesTag l owner

/-- A tag that is an alias was taken. -/
theorem tagTaken_of_mem {operations : List Operation}
    (htexts : ∀ operation ∈ operations, operation.GivesTexts) {l owner : Language}
    (h : (.text l.tag, owner) ∈ (ofOperations operations).aliases) : TagTaken operations l owner := by
  suffices hall : ∀ r : Registry, (.text l.tag, owner) ∈ (operations.foldl step r).aliases →
      (.text l.tag, owner) ∈ r.aliases ∨ ∃ operation ∈ operations, operation.TakesTag l owner from
    ⟨h, (hall empty h).resolve_left nofun⟩
  intro r hr
  clear h
  induction operations generalizing r with
  | nil => exact .inl hr
  | cons operation operations ih =>
    rw [List.forall_mem_cons] at htexts
    rw [List.exists_mem_cons_iff]
    rcases ih htexts.2 (r.step operation) hr with hstep | htaken
    · exact (mem_step_aliases htexts.1 hstep).imp_right .inl
    · exact .inr (.inr htaken)

/-- After every row of operations that give texts as aliases, all names are listed. A tag resolves
to its language, unless a replacement gave the tag to another one, and every name listed under the
tag that has no blanks around it resolves to where the tag does. After a registration that takes
effect and is not refused, so does every alias it was given, save the tag of the language if another
one has taken it. -/
theorem listed_names_resolve {operations : List Operation}
    (htexts : ∀ operation ∈ operations, operation.GivesTexts) :
    (∃ listing, (ofOperations operations).names = .ok listing ∧
      List.Forall₂ (fun l entry => ∃ owner listed,
          entry = (Text.ofString l.tag, .text l.tag :: listed) ∧
          (ofOperations operations).resolve (.str l.tag) = .ok owner ∧
          (owner = l ∨ TagTaken operations l owner) ∧
          ∀ a ∈ listed, ∃ name, a = .text name ∧
            (Text.trim name = name → (ofOperations operations).resolve (.str name) = .ok owner))
        (ofOperations operations).languages listing) ∧
    ∀ language target c aliases replace given, targetOf language = .ok target →
      givenAliases aliases = .ok given → (∀ v ∈ given, ∃ name, v = .str name) →
      (Assoc.contains target (ofOperations operations).classes && !replace) = false →
      ((ofOperations operations).register language (some c) aliases replace).2 = .ok () →
      ∀ name, .str name ∈ given → Text.trim name = name →
        ∃ owner, (ofOperations (operations ++
            [.register language (some c) aliases replace])).resolve (.str name) = .ok owner ∧
          (owner = target ∨ Text.lower name = target.tag ∧
            TagTaken (operations ++ [.register language (some c) aliases replace]) target owner) := by
  have hrun := ofOperations_invariant operations
  have hnames := ofOperations_wellNamed htexts
  constructor
  · refine exists_mapM_eq_ok fun l hl => ?_
    have hbound : Assoc.contains l (ofOperations operations).classes = true :=
      (List.mem_filter.mp hl).2
    obtain ⟨owner, listed, hlisting, hresolve, howner, hmem⟩ := exists_namesOf hrun hnames hbound
    refine ⟨_, hlisting, owner, listed, rfl, hresolve, howner.imp_right (tagTaken_of_mem htexts), ?_⟩
    intro a ha
    have halias := (hmem a).mp ha
    obtain ⟨name, rfl, -⟩ := hnames.lowered _ halias
    exact ⟨name, rfl, resolve_alias hrun hnames halias⟩
  · intro language target c aliases replace given htarget hgiven hstrings heffect haccepted name hname
      htrim
    have hregister : (ofOperations operations).register language (some c) aliases replace =
        (ofOperations (operations ++ [.register language (some c) aliases replace]), .ok ()) := by
      rw [ofOperations_concat, ← haccepted]
      rfl
    obtain ⟨owner, hresolve, howner⟩ := resolve_given (ofOperations_invariant _) htarget hgiven hstrings
      heffect hregister hname htrim
    have hlater : ∀ operation ∈ operations ++ [.register language (some c) aliases replace],
        operation.GivesTexts :=
      List.forall_mem_append.mpr ⟨htexts, List.forall_mem_singleton.mpr (givesTexts hgiven hstrings)⟩
    exact ⟨owner, hresolve,
      howner.imp_right fun ⟨htag, htaken⟩ => ⟨htag, tagTaken_of_mem hlater htaken⟩⟩

theorem givesTexts_list (language : Value) (candidate : Option GeneratorClass) (names : List Text)
    (replace : Bool) :
    (Operation.register language candidate (.list (names.map .str)) replace).GivesTexts := by
  refine givesTexts (givenAliases_list _) fun v hv => ?_
  obtain ⟨name, -, rfl⟩ := List.mem_map.mp hv
  exact ⟨name, rfl⟩

/-- Where a replacement gave the tag of a language to another one, all names are listed still, and
the further names of the language lead to it. -/
theorem listed_names_resolve_taken :
    ∃ (operations : List Operation) (last : Operation),
      (∀ operation ∈ operations ++ [last], operation.GivesTexts) ∧
      TagTaken (operations ++ [last]) .go .curl ∧
      (∃ listing, (ofOperations (operations ++ [last])).names = .ok listing ∧ listing.length = 2) ∧
      (ofOperations (operations ++ [last])).resolve (.str "Golang") = .ok .go := by
  let operations : List Operation :=
    [.register (.language .curl) (some (.complete Curl.generator)) (.list [.str "GO"]) true]
  let last : Operation :=
    .register (.language .go) (some (.complete Go.generator)) (.list [.str "Golang"]) false
  have hfirst : ∀ operation ∈ operations, operation.GivesTexts :=
    List.forall_mem_singleton.mpr (givesTexts_list _ _ ["GO"] true)
  have hall : ∀ operation ∈ operations ++ [last], operation.GivesTexts :=
    List.forall_mem_append.mpr
      ⟨hfirst, List.forall_mem_singleton.mpr (givesTexts_list _ _ ["Golang"] false)⟩
  have htaken : TagTaken (operations ++ [last]) .go .curl := tagTaken_of_mem hall List.mem_cons_self
  refine ⟨operations, last, hall, htaken, ?_, ?_⟩
  · obtain ⟨⟨listing, hlisting, hentries⟩, -⟩ := listed_names_resolve hall
    exact ⟨listing, hlisting, hentries.length_eq.symm⟩
  · obtain ⟨-, hgiven⟩ := listed_names_resolve hfirst
    obtain ⟨owner, hresolve, howner⟩ := hgiven (.language .go) .go (.complete Go.generator)
      (.list [.str "Golang"]) false [.str "Golang"] rfl rfl (by simp) rfl rfl "Golang"
      List.mem_cons_self rfl
    rcases howner with rfl | ⟨hlower, -⟩
    · exact hresolve
    · exact absurd hlower (by decide)

/-- Not every tag that is listed resolves to its language: a replacement can give the tag to another
one as an alias, and aliases come first. -/
theorem listed_tag_resolves_elsewhere :
    ∃ r : Registry, r = ofOperations
        [.register (.language .curl) (some (.complete Curl.generator)) (.list [.str "go"]) true,
          .register (.language .go) (some (.complete Go.generator)) .null false] ∧
      r.names = .ok [("curl", [.text "curl", .text "go"]), ("go", [.text "go", .text "go"])] ∧
      r.resolve (.str "go") = .ok .curl := by
  refine ⟨_, rfl, ?_, rfl⟩
  generalize hr : ofOperations _ = r
  have hlanguages : r.languages = [.curl, .go] := hr ▸ rfl
  have haliases : r.aliasesOf .curl = .ok [.text "go"] :=
    hr ▸ congrArg Except.ok (List.mergeSort_singleton _)
  have hcurl : r.namesOf .curl = .ok ("curl", [.text "curl", .text "go"]) := by
    rw [namesOf, aliasesFor, show r.resolve (.str (Language.tag .curl)) = .ok .curl from hr ▸ rfl,
      ok_bind, haliases]
    rfl
  have hgo : r.namesOf .go = .ok ("go", [.text "go", .text "go"]) := by
    rw [namesOf, aliasesFor, show r.resolve (.str (Language.tag .go)) = .ok .curl from hr ▸ rfl,
      ok_bind, haliases]
    rfl
  rw [names, hlanguages, List.mapM_cons, List.mapM_cons, hcurl, hgo]
  rfl

end HttpWorkbench.Export.Registry
