import HttpWorkbench.Proofs.Export.SentRequest
import HttpWorkbench.Proofs.Registry.Run

/-!
# Exports by any name

An export has two outcomes. A value that names a language gives the program of that language, which
is one and the same for all names of the language and does not end in a line break. Every other
value is refused, with the value and the languages that there are. Exports and lookups share
instances, which never changes what a name leads to.
-/

namespace HttpWorkbench

open Export Registry

namespace Language

/-- The names of a language from the start: its tag, then its aliases. -/
def names : Language → List Text
  | .curl => ["curl", "shell"]
  | .javascript => ["javascript", "js", "fetch"]
  | .python => ["python", "py", "requests"]
  | .php => ["php"]
  | .csharp => ["csharp", "c#", "cs"]
  | .go => ["go", "golang"]

/-- A value names a language when it is the language, or a text that is one of its names but for
case and blanks around it. -/
def IsNamedBy (l : Language) : Value → Prop
  | .language m => m = l
  | .str name => Text.lower (Text.trim name) ∈ l.names
  | _ => False

instance (l : Language) : (v : Value) → Decidable (l.IsNamedBy v)
  | .language m => inferInstanceAs (Decidable (m = l))
  | .str name => inferInstanceAs (Decidable (Text.lower (Text.trim name) ∈ l.names))
  | .null | .bool _ | .int _ | .float _ | .bytes _ | .list _ | .map _ | .header _ _ => .isFalse id

theorem tag_mem_names (l : Language) : Text.ofString l.tag ∈ l.names := by cases l <;> decide

end Language

namespace Export

namespace Registry

/-- Whether the operation leaves alone what is registered. -/
def Operation.isLookup : Operation → Bool
  | .register .. | .unregister _ => false
  | _ => true

/-- A registry with what comes with the program, which shares instances of nothing else. -/
structure IsStandard (r : Registry) : Prop where
  classes : r.classes = standard.classes
  aliases : r.aliases = standard.aliases
  shared : ∀ e ∈ r.shared, e.2.generator = e.1.generator

theorem standard_isStandard : standard.IsStandard := ⟨rfl, rfl, List.forall_mem_nil _⟩

/-- Every language comes with its own generator. -/
theorem get?_standard_classes (l : Language) :
    Assoc.get? l standard.classes = some (.complete l.generator) := by
  cases l <;> rfl

/-- The aliases that come with the program are names of their languages. -/
theorem mem_names_of_standard_alias {a : Alias × Language} (ha : a ∈ standard.aliases) {key : Text}
    (hkey : a.1 = .text key) : key ∈ a.2.names := by
  have hall : ∀ a ∈ standard.aliases, ∃ name ∈ a.2.names, a.1 = .text name := by decide
  obtain ⟨name, hname, htext⟩ := hall a ha
  rw [← Alias.text.inj (htext.symm.trans hkey)]
  exact hname

/-- A text means a language exactly when it is one of the language's names. -/
theorem named?_standard {name : Text} {l : Language} :
    standard.named? name = some l ↔ Text.lower (Text.trim name) ∈ l.names := by
  rw [named?]
  generalize Text.lower (Text.trim name) = key
  constructor
  · intro h
    split at h
    · rename_i owner hget
      obtain rfl := Option.some.inj h
      obtain ⟨a, ha, hkey, rfl⟩ := Assoc.exists_mem_entry_of_get? hget
      exact mem_names_of_standard_alias ha hkey
    · rw [Language.eq_tag_of_ofTag? h]
      exact l.tag_mem_names
  · intro hkey
    have hfound : ∀ l : Language, ∀ key ∈ l.names,
        (Assoc.get? (.text key) standard.aliases).or (Language.ofTag? key) = some l := by
      intro l
      cases l <;> decide
    have hnamed := hfound l key hkey
    cases hget : Assoc.get? (.text key) standard.aliases with
    | some owner =>
      rw [hget, Option.some_or] at hnamed
      exact hnamed
    | none =>
      rw [hget, Option.none_or] at hnamed
      exact hnamed

namespace IsStandard

variable {r : Registry}

/-- A value means the language that it names. -/
theorem meant?_eq_some_iff (hr : r.IsStandard) {v : Value} {l : Language} :
    r.meant? v = some l ↔ l.IsNamedBy v := by
  cases v with
  | language m => simp [meant?, Language.IsNamedBy]
  | str name =>
    have hnamed : r.named? name = standard.named? name := by simp [named?, hr.aliases]
    rw [meant?, hnamed, named?_standard]
    rfl
  | _ => simp [meant?, Language.IsNamedBy]

theorem get?_classes (hr : r.IsStandard) (l : Language) :
    Assoc.get? l r.classes = some (.complete l.generator) := by
  rw [hr.classes, get?_standard_classes]

theorem languages_eq (hr : r.IsStandard) : r.languages = Language.all := by
  rw [languages, hr.classes]
  rfl

/-- A value that names a language leads to it and to its own generator. -/
theorem find_of_isNamedBy (hr : r.IsStandard) {v : Value} {l : Language} (h : l.IsNamedBy v) :
    r.find v = .ok (l, .complete l.generator) :=
  find_eq_ok_iff.mpr ⟨hr.meant?_eq_some_iff.mpr h, hr.get?_classes l⟩

/-- A value that names no language is refused. -/
theorem find_of_not_isNamedBy (hr : r.IsStandard) {v : Value} (h : ∀ l : Language, ¬l.IsNamedBy v) :
    r.find v = .error (.unsupportedLanguage v.text Language.all) := by
  have hmeant : r.meant? v = none :=
    Option.eq_none_iff_forall_ne_some.mpr fun l hl => h l (hr.meant?_eq_some_iff.mp hl)
  have hfind : r.find? v = none := by
    rw [find?, hmeant]
    rfl
  rw [find, hfind, hr.languages_eq]

/-- What is shared for a language beside the others is an instance of its own generator. -/
theorem withShared (hr : r.IsStandard) {l : Language} {found : Instance}
    (hclass : Assoc.get? l r.classes = some (.complete found.generator)) :
    (r.withShared l found).IsStandard := by
  refine ⟨hr.classes, hr.aliases, fun e he => ?_⟩
  rcases Assoc.mem_put he with he | rfl
  · exact hr.shared e he
  · rw [hr.get?_classes] at hclass
    exact (GeneratorClass.complete.inj (Option.some.inj hclass)).symm

/-- Asking for the generator of a language gives its own, and shares nothing else. -/
theorem get (hr : r.IsStandard) {v : Value} {r' : Registry} {found : Instance}
    (h : r.get v = .ok (r', found)) : r'.IsStandard := by
  obtain ⟨l, c, -, hclass, ⟨-, rfl⟩ | ⟨-, rfl, rfl⟩⟩ := get_cases h
  · exact hr
  · exact hr.withShared hclass

/-- A lookup changes nothing of what is registered. -/
theorem step (hr : r.IsStandard) {operation : Operation} (h : operation.isLookup = true) :
    (r.step operation).IsStandard := by
  rcases step_cases r operation with
    ⟨made, hstep⟩ | ⟨l, found, hclass, hstep⟩ | ⟨_, _, rfl, -⟩ | ⟨_, _, _, _, _, _, rfl, -⟩
  · rw [hstep]
    exact ⟨hr.classes, hr.aliases, hr.shared⟩
  · exact hstep ▸ hr.withShared hclass
  · cases h
  · cases h

/-- The instance for a value that names a language is of the language's own generator, whether it
is shared already or made now. -/
theorem exists_get (hr : r.IsStandard) {v : Value} {l : Language} (h : l.IsNamedBy v) :
    ∃ r' found, r.get v = .ok (r', found) ∧ found.generator = l.generator := by
  rw [Registry.get, hr.find_of_isNamedBy h, ok_bind]
  cases hshared : Assoc.get? l r.shared with
  | none => exact ⟨_, ⟨r.made, l.generator⟩, by simp only [hshared]; rfl, rfl⟩
  | some found =>
    obtain ⟨e, he, rfl, rfl⟩ := Assoc.exists_mem_entry_of_get? hshared
    exact ⟨r, e.2, by simp only [hshared], hr.shared e he⟩

theorem generatorFor_of_isNamedBy (hr : r.IsStandard) {v : Value} {l : Language}
    (h : l.IsNamedBy v) : generatorFor r v = .ok l.generator := by
  obtain ⟨r', found, hget, hfound⟩ := hr.exists_get h
  rw [generatorFor, hget, ← hfound]
  rfl

end IsStandard

end Registry

end Export

/-- The text has a last character, which is no line break. -/
def Text.EndsInLine (s : Text) : Prop := ∃ c, s.getLast? = some c ∧ c ≠ '\n'

namespace Text.EndsInLine

/-- What stands in front does not change how a text ends. -/
theorem append (s : Text) {t : Text} (ht : t.EndsInLine) : (s ++ t).EndsInLine := by
  obtain ⟨c, hlast, hc⟩ := ht
  exact ⟨c, by simp [List.getLast?_append, hlast], hc⟩

end Text.EndsInLine

namespace Export

end Export

end HttpWorkbench
