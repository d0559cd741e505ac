import HttpWorkbench.Proofs.Registry.Names

/-!
# Names that registrations leave alone

A registration that replaces nothing binds a language that had no class, and gives it only aliases
that are free: no tag, and no alias of another language. So whatever resolved before resolves to the
same language, wherever the registration stops, and also where a replacement before it made a tag
the alias of another language.
-/

namespace HttpWorkbench.Export.Registry

/-- Nothing is changed for the languages other than one: neither what the registry has for them, nor
the names that lead to them. A tag that was no alias is none afterwards. -/
structure KeepsOthers (target : Language) (r r' : Registry) : Prop where
  classes : ∀ l, l ≠ target → Assoc.get? l r'.classes = Assoc.get? l r.classes
  aliases : ∀ l, l ≠ target →
    (r'.aliases.filter fun a => a.2 = l) = r.aliases.filter fun a => a.2 = l
  shared : ∀ l, l ≠ target → Assoc.get? l r'.shared = Assoc.get? l r.shared
  owner : ∀ key l, l ≠ target → Assoc.get? key r.aliases = some l →
    Assoc.get? key r'.aliases = some l
  tag : ∀ l : Language, Assoc.get? (.text l.tag) r.aliases = none →
    Assoc.get? (.text l.tag) r'.aliases = none
  made : r'.made = r.made

namespace KeepsOthers

variable {target : Language} {r r' r'' : Registry}

theorem refl (target : Language) (r : Registry) : KeepsOthers target r r :=
  ⟨fun _ _ => rfl, fun _ _ => rfl, fun _ _ => rfl, fun _ _ _ h => h, fun _ h => h, rfl⟩

theorem trans (h : KeepsOthers target r r') (h' : KeepsOthers target r' r'') :
    KeepsOthers target r r'' where
  classes l hl := (h'.classes l hl).trans (h.classes l hl)
  aliases l hl := (h'.aliases l hl).trans (h.aliases l hl)
  shared l hl := (h'.shared l hl).trans (h.shared l hl)
  owner key l hl howner := h'.owner key l hl (h.owner key l hl howner)
  tag l hfree := h'.tag l (h.tag l hfree)
  made := h'.made.trans h.made

/-- A text that names another language still names it. -/
theorem named? (h : KeepsOthers target r r') {name : Text} {l : Language} (hl : l ≠ target)
    (hnamed : r.named? name = some l) : r'.named? name = some l := by
  rw [Registry.named?] at hnamed ⊢
  generalize Text.lower (Text.trim name) = key at hnamed ⊢
  cases hget : Assoc.get? (.text key) r.aliases with
  | some owner =>
    simp only [hget] at hnamed
    obtain rfl := Option.some.inj hnamed
    simp only [h.owner _ owner hl hget]
  | none =>
    simp only [hget] at hnamed
    obtain rfl := Language.eq_tag_of_ofTag? hnamed
    simp only [h.tag l hget, hnamed]

/-- A value that leads to another language still leads to it and to its class. -/
theorem find (h : KeepsOthers target r r') {v : Value} {l : Language} {c : GeneratorClass}
    (hl : l ≠ target) (hfind : r.find v = .ok (l, c)) : r'.find v = .ok (l, c) := by
  obtain ⟨hmeant, hclass⟩ := find_eq_ok_iff.mp hfind
  refine find_eq_ok_iff.mpr ⟨?_, (h.classes l hl).trans hclass⟩
  cases v with
  | language m => exact hmeant
  | str name => exact h.named? hl hmeant
  | _ => cases hmeant

/-- A value that resolves to another language still does, with the same class and with the same
instance of it, shared before or made when it is asked for. -/
theorem resolve (h : KeepsOthers target r r') {v : Value} {l : Language} (hl : l ≠ target)
    (hresolve : r.resolve v = .ok l) : r'.resolve v = .ok l ∧ r'.classOf v = r.classOf v ∧
      (r'.get v).map Prod.snd = (r.get v).map Prod.snd := by
  obtain ⟨⟨l', c⟩, hfind, hfound⟩ := bind_eq_ok_iff.mp hresolve
  obtain rfl : l' = l := Except.ok.inj hfound
  have hfind' := h.find hl hfind
  refine ⟨?_, ?_, ?_⟩
  · rw [Registry.resolve, hfind', ok_bind]
  · rw [classOf, classOf, hfind, hfind']
  · simp only [get, hfind, hfind', ok_bind, h.shared l' hl, h.made]
    cases Assoc.get? l' r.shared with
    | some found => rfl
    | none => cases c <;> rfl

end KeepsOthers

variable {r r' : Registry} {target : Language}

/-- Binding a class to a language does not touch the others. -/
theorem keepsOthers_bound (r : Registry) (target : Language) (c : GeneratorClass) :
    KeepsOthers target r (r.bound target c) where
  classes _ hl := Assoc.get?_put_of_ne (Ne.symm hl) c r.classes
  aliases _ _ := rfl
  shared _ hl := Assoc.get?_erase_of_ne (Ne.symm hl)
  owner _ _ _ howner := howner
  tag _ hfree := hfree
  made := rfl

/-- An alias that is no tag and no alias of another language does not touch the others. -/
theorem keepsOthers_withAlias {key : Alias} (hfree : key.tagged? = none)
    (howner : ∀ owner, Assoc.get? key r.aliases = some owner → owner = target) :
    KeepsOthers target r (r.withAlias key target) where
  classes _ _ := rfl
  aliases l hl := by
    refine Assoc.filter_put_of_value (fun m => decide (m = l)) ?_ fun owner hget => ?_
    · exact decide_eq_false (Ne.symm hl)
    · rw [howner owner hget]
      exact decide_eq_false (Ne.symm hl)
  shared _ _ := rfl
  owner key' l hl hget := by
    have hne : key ≠ key' := by
      rintro rfl
      exact hl (howner l hget)
    exact (Assoc.get?_put_of_ne hne target r.aliases).trans hget
  tag l hget := by
    have hne : key ≠ .text l.tag := by
      rintro rfl
      rw [Alias.tagged?, Language.ofTag?_tag] at hfree
      cases hfree
    exact (Assoc.get?_put_of_ne hne target r.aliases).trans hget
  made := rfl

/-- Adding aliases without replacement does not touch the other languages, wherever it stops. -/
theorem keepsOthers_addAliases (r : Registry) (target : Language) (given : List Value) :
    KeepsOthers target r (r.addAliases target false given).1 := by
  refine addAliases_induction (fun name _ key _ r' hconflict hr => ?_) (.refl target r)
  obtain ⟨hfree, howner⟩ := free_of_aliasConflict? hconflict
  exact hr.trans (keepsOthers_withAlias hfree howner)

/-- A registration without replacement changes nothing, or binds a language that had no class and
does not touch the others. -/
theorem register_keeps_cases (r : Registry) (language : Value) (candidate : Option GeneratorClass)
    (aliases : Value) :
    (r.register language candidate aliases false).1 = r ∨
    ∃ target, targetOf language = .ok target ∧ Assoc.contains target r.classes = false ∧
      KeepsOthers target r (r.register language candidate aliases false).1 := by
  rcases register_cases r language candidate aliases false with
    h | ⟨target, c, given, -, htarget, heffect, -, h⟩
  · exact .inl h
  · rw [Bool.not_false, Bool.and_true] at heffect
    refine .inr ⟨target, htarget, heffect, ?_⟩
    rw [h]
    exact (keepsOthers_bound r target c).trans (keepsOthers_addAliases _ target given)

/-- A registration without replacement takes no name away, whether it is accepted, passed over, or
refused at any point. Every value that resolved before resolves to the same language, with the same
class; no language but the one that is registered has another class, other aliases or another shared
instance; and if that language had a class, the whole registry is as it was, whatever the aliases. -/
theorem register_keeps_names {r r' : Registry} {language : Value} {candidate : Option GeneratorClass}
    {aliases : Value} {outcome : Result Unit}
    (h : r.register language candidate aliases false = (r', outcome)) :
    (∀ v l, r.resolve v = .ok l → r'.resolve v = .ok l ∧ r'.classOf v = r.classOf v) ∧
    (∀ l, targetOf language ≠ .ok l →
      Assoc.get? l r'.classes = Assoc.get? l r.classes ∧
      (r'.aliases.filter fun a => a.2 = l) = (r.aliases.filter fun a => a.2 = l) ∧
      Assoc.get? l r'.shared = Assoc.get? l r.shared) ∧
    ∀ target c, targetOf language = .ok target → Assoc.contains target r.classes = true →
      candidate = some c → r' = r ∧ outcome = .ok () := by
  have hcases := register_keeps_cases r language candidate aliases
  rw [h] at hcases
  refine ⟨fun v l hresolve => ?_, fun l hother => ?_, ?_⟩
  · rcases hcases with rfl | ⟨target, -, hunbound, hkeeps⟩
    · exact ⟨hresolve, rfl⟩
    · have hl : l ≠ target := by
        rintro rfl
        rw [(resolve_eq_ok_iff.mp hresolve).2] at hunbound
        cases hunbound
      obtain ⟨hresolve', hclass, -⟩ := hkeeps.resolve hl hresolve
      exact ⟨hresolve', hclass⟩
  · rcases hcases with rfl | ⟨target, htarget, -, hkeeps⟩
    · exact ⟨rfl, rfl, rfl⟩
    · have hl : l ≠ target := by
        rintro rfl
        exact hother htarget
      exact ⟨hkeeps.classes l hl, hkeeps.aliases l hl, hkeeps.shared l hl⟩
  · rintro target c htarget hbound rfl
    rw [register_of_bound htarget hbound] at h
    obtain ⟨rfl, rfl⟩ := Prod.mk.inj h
    exact ⟨rfl, rfl⟩

/-- A replacement made the tag of Go an alias of curl. Registering Go stops at its second alias,
which curl has, and the tag leads to curl as before. -/
theorem register_keeps_names_taken_tag :
    ∃ r r' : Registry,
      r = ofOperations [.register (.language .curl) (some (.complete Curl.generator))
        (.list [.str "go", .str "shell"]) true] ∧
      r.register (.str "Go") (some (.complete Go.generator)) (.list [.str "golang", .str "SHELL"])
        false = (r', .error (.registry (.aliasTaken "SHELL" .curl))) ∧
      r'.resolve (.str "golang") = .ok .go ∧ r.resolve (.str " GO\n") = .ok .curl ∧
      r'.resolve (.str " GO\n") = .ok .curl ∧
      r'.classOf (.str " GO\n") = r.classOf (.str " GO\n") := by
  have hrefused : (ofOperations [.register (.language .curl) (some (.complete Curl.generator))
      (.list [.str "go", .str "shell"]) true]).register (.str "Go") (some (.complete Go.generator))
        (.list [.str "golang", .str "SHELL"]) false =
      (⟨[(.curl, .complete Curl.generator), (.go, .complete Go.generator)],
        [(.text "go", .curl), (.text "shell", .curl), (.text "golang", .go)], [], 0⟩,
        .error (.registry (.aliasTaken "SHELL" .curl))) := rfl
  obtain ⟨hnames, -, -⟩ := register_keeps_names hrefused
  exact ⟨_, _, rfl, hrefused, rfl, rfl, hnames (.str " GO\n") .curl rfl⟩

end HttpWorkbench.Export.Registry
