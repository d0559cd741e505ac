import HttpWorkbench.CommandLine.LanguagesCommand
import HttpWorkbench.Proofs.CommandLine.Told
import HttpWorkbench.Proofs.Export.ByName
import Mathlib.Data.Set.List

/-!
# Languages on the command line

A value names a language, which can be described, or it is told that there is no such language. All
languages can be listed.
-/

namespace HttpWorkbench.CommandLine

open CommandLine.Action (Ensures)
open Export (Registry Alias)

/-- The aliases of a language are texts. -/
theorem exists_aliasesOf {r : Registry} (hr : r.IsStandard) (l : Language) :
    ∃ names : List Text, r.aliasesOf l = .ok (names.map .text) := by
  have htexts : ∀ a ∈ (r.aliases.filter fun a => a.2 = l).map Prod.fst, a ∈ Set.range Alias.text := by
    intro a ha
    obtain ⟨entry, hentry, rfl⟩ := List.mem_map.mp ha
    have hstandard := (List.mem_filter.mp hentry).1
    rw [hr.aliases] at hstandard
    have hall : ∀ a ∈ Registry.standard.aliases, ∃ name ∈ a.2.names, Alias.text name = a.1 := by decide
    obtain ⟨name, -, hname⟩ := hall entry hstandard
    exact ⟨name, hname⟩
  have hkeys : (((r.aliases.filter fun a => a.2 = l).map Prod.fst).all fun a => a.toValue.isText) =
      true := by
    rw [List.all_eq_true]
    intro a ha
    obtain ⟨name, rfl⟩ := htexts a ha
    rfl
  have hlisted : (((r.aliases.filter fun a => a.2 = l).map Prod.fst).mergeSort
      fun a b => a.toValue.isNotAfter b.toValue) ∈ Set.range (List.map Alias.text) := by
    rw [Set.range_list_map]
    exact fun a ha => htexts a (List.mem_mergeSort.mp ha)
  obtain ⟨names, hnames⟩ := hlisted
  refine ⟨names, ?_⟩
  rw [Registry.aliasesOf, Value.sortBy, if_pos hkeys, hnames]

/-- A value that names a language leads to a description, whose aliases can be shown. -/
theorem exists_info {r : Registry} (hr : r.IsStandard) {v : Value} {l : Language}
    (h : l.IsNamedBy v) :
    ∃ r' info aliases, r.info v = .ok (r', info) ∧ aliasText info = .ok aliases := by
  obtain ⟨r', found, hget, -⟩ := hr.exists_get (v := .language l) rfl
  obtain ⟨names, hnames⟩ := exists_aliasesOf (hr.get hget) l
  rw [Registry.info, Registry.resolve, hr.find_of_isNamedBy h]
  simp only [ok_bind, hget, hnames]
  refine ⟨_, _, Text.join ", " names, rfl, ?_⟩
  have hvalues : (names.map Alias.text).map Alias.toValue = names.map .str := by
    rw [List.map_map]
    rfl
  rw [aliasText, hvalues]
  change (Value.joinFrom ", " 0 (names.map .str) >>= fun texts => Except.ok (Text.join ", " texts)) = _
  rw [Value.joinFrom_map_str]
  rfl

/-- A value names a language and leads to its description, or it names none and leads to nothing. -/
theorem supportedInfo_cases {r : Registry} (hr : r.IsStandard) (language : Value) :
    (∃ (l : Language) (info : Registry.LanguageInfo) (aliases : Text), l.IsNamedBy language ∧
      supportedInfo r language = .ok (some info) ∧ aliasText info = .ok aliases) ∨
    supportedInfo r language = .ok none := by
  by_cases hnamed : ∃ l : Language, l.IsNamedBy language
  · obtain ⟨l, hl⟩ := hnamed
    obtain ⟨r', info, aliases, hinfo, haliases⟩ := exists_info hr hl
    refine .inl ⟨l, info, aliases, hl, ?_, haliases⟩
    rw [supportedInfo, hinfo]
  · rw [not_exists] at hnamed
    right
    rw [supportedInfo, Registry.info, Registry.resolve, hr.find_of_not_isNamedBy hnamed]
    rfl

/-- Every language has a row in the list. -/
theorem exists_languageRow {r : Registry} (hr : r.IsStandard) (l : Language) :
    ∃ row, languageRow r l = .ok row := by
  have htag : l.IsNamedBy (.str l.tag) := by cases l <;> decide
  obtain ⟨r', info, aliases, hinfo, haliases⟩ := exists_info hr htag
  rw [languageRow, hinfo, ok_bind]
  dsimp only
  split
  · exact ⟨_, rfl⟩
  · rw [haliases]
    exact ⟨_, rfl⟩

/-- The language that is asked for, if there is one, is a language. -/
def AsksForLanguage (name : Option Text) : Prop :=
  ∀ given, given? name = some given → ∃ l : Language, l.IsNamedBy (.str given)

/-- The languages are listed, or one of them is described, or it is told that there is no such
language. -/
theorem ensures_runLanguages {around : Surroundings} (hregistry : around.registry.IsStandard)
    (name : Option Text) {E : Failure → Session → Prop} :
    Ensures (fun _ => True) (runLanguages around name)
      (EndsWithCode (AsksForLanguage name) around.outcome) E := by
  have hzero (hasks : AsksForLanguage name) :
      Ensures (fun _ => True) (pure 0) (EndsWithCode (AsksForLanguage name) around.outcome) E :=
    .pure fun _ _ => .inl ⟨rfl, hasks⟩
  unfold runLanguages
  cases hgiven : given? name with
  | some given =>
    dsimp only [showLanguage]
    rcases supportedInfo_cases hregistry (.str given) with
      ⟨l, info, aliases, hl, hinfo, haliases⟩ | hnone
    · have hasks : AsksForLanguage name := by
        intro given' hgiven'
        obtain rfl := Option.some.inj (hgiven.symm.trans hgiven')
        exact ⟨l, hl⟩
      obtain ⟨described, hdescribed⟩ : ∃ described, describedLanguage info = .ok described := by
        rw [describedLanguage, haliases]
        exact ⟨_, rfl⟩
      exact .ofResult_bind hinfo <| .ofResult_bind hdescribed <| (ensures_show _ _).bind fun _ =>
        (ensures_show _ _).bind fun _ => (ensures_show _ _).bind fun _ =>
          (ensures_show _ _).bind fun _ => hzero hasks
    · exact .ofResult_bind hnone <| (ensures_show _ _).bind fun _ => ensures_tells_pure _
  | none =>
    have hasks : AsksForLanguage name := by
      intro given hsome
      cases hgiven.symm.trans hsome
    obtain ⟨rows, hrows⟩ : ∃ rows,
        around.registry.languages.mapM (languageRow around.registry) = .ok rows :=
      exists_mapM_eq_ok_iff.mpr fun l _ => exists_languageRow hregistry l
    exact .ofResult_bind hrows <| (ensures_show _ _).bind fun _ => (ensures_show _ _).bind fun _ =>
      (ensures_show _ _).bind fun _ => (ensures_show _ _).bind fun _ => hzero hasks

end HttpWorkbench.CommandLine
