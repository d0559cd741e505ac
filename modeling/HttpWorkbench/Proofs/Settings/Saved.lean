import HttpWorkbench.Proofs.Json.SameDocument
import HttpWorkbench.Proofs.Settings.Layers
import HttpWorkbench.Proofs.Storage.Files
import HttpWorkbench.Proofs.Storage.Suffix
import HttpWorkbench.Proofs.Value.Spread
import Mathlib

/-!
# Settings that are loaded as they were saved

Saving puts the custom table beside the settings, at the top of the document, and loading takes them
apart by the names of the settings. A custom entry with the name of a setting is lost by that: it is
taken for the setting, or for the custom table itself. In the last case what is loaded nests less than
what was saved, so that nothing can make up for it.
-/

namespace HttpWorkbench

open Json (IsDocument)

namespace Settings

/-- Whether two settings are equal, field by field. -/
def isSame (s t : Settings) : Bool :=
  Value.sameItems ((s.ownFields.map Prod.snd) ++ [s.custom]) ((t.ownFields.map Prod.snd) ++ [t.custom])

theorem isSame_self {s : Settings} {depth : Nat} (hown : ∀ f ∈ s.ownFields, IsDocument depth f.2)
    (hcustom : IsDocument depth s.custom) : s.isSame s = true := by
  refine Value.sameItems_self fun v hv => ?_
  rcases List.mem_append.mp hv with hv | hv
  · obtain ⟨f, hf, rfl⟩ := List.mem_map.mp hv
    exact (hown f hf).same_self
  · obtain rfl := List.mem_singleton.mp hv
    exact hcustom.same_self

theorem same_custom_of_isSame {s t : Settings} (h : s.isSame t = true) :
    s.custom.same t.custom = true := by
  simp only [isSame, ownFields, List.map_cons, List.map_nil, List.cons_append, List.nil_append,
    Value.sameItems, Bool.and_eq_true] at h
  tauto

/-! ## What is saved -/

section Saved

variable {s : Settings} {depth : Nat} {custom : List (Text × Value)}

/-- Settings that do not nest too deep have a document. -/
theorem toDocument_eq (hown : ∀ f ∈ s.ownFields, IsDocument Value.storedDepth f.2)
    (hcustom : IsDocument Value.storedDepth s.custom) (htable : s.custom = .ofFields custom) :
    s.toDocument = .ok (.ofFields (Assoc.putAll s.ownFields custom)) := by
  have hdictionary : s.custom.toDictionary = .ok (named custom) := by rw [htable]; rfl
  rw [toDocument, storedFields_eq hown, ok_bind, hcustom.spread, ok_bind, hdictionary, ok_bind]
  exact congrArg (fun entries => Except.ok (Value.map entries)) (putAll_named s.ownFields custom)

/-- Settings made of documents that have a document do not nest too deep. -/
theorem nests_of_toDocument (hown : ∀ f ∈ s.ownFields, IsDocument depth f.2)
    (hcustom : IsDocument depth s.custom) {document : Value} (h : s.toDocument = .ok document) :
    (∀ f ∈ s.ownFields, IsDocument Value.storedDepth f.2) ∧
      IsDocument Value.storedDepth s.custom := by
  obtain ⟨own, hfields, h⟩ := bind_eq_ok_iff.mp h
  obtain ⟨table, hspread, -⟩ := bind_eq_ok_iff.mp h
  exact ⟨IsDocument.of_storedFields hown hfields, hcustom.of_spread hspread⟩

/-- The document of settings is one. -/
theorem isDocument_saved (hown : ∀ f ∈ s.ownFields, IsDocument Value.storedDepth f.2)
    (hcustom : IsDocument Value.storedDepth s.custom) (htable : s.custom = .ofFields custom) :
    IsDocument (Value.storedDepth + 1) (.ofFields (Assoc.putAll s.ownFields custom)) := by
  rw [htable] at hcustom
  obtain ⟨depth, hdepth, -, hnames, hvalues⟩ := hcustom.exists_of_ofFields
  have hownNames : ∀ f ∈ s.ownFields, ∀ c ∈ f.1, c.isHalf = false := by
    have hshape : ∀ name ∈ s.ownFields.map Prod.fst, ∀ c ∈ name, c.isHalf = false := by
      rw [map_fst_ownFields]
      decide
    exact fun f hf => hshape f.1 (List.mem_map_of_mem hf)
  refine .map (Assoc.nodup_putAll (nodup_ownFields s) custom) (fun f hf => ?_) fun f hf => ?_
  · exact (Assoc.mem_putAll hf).elim (hownNames f) (hnames f)
  · exact (Assoc.mem_putAll hf).elim (hown f) fun hf => (hvalues f hf).mono (by omega)

end Saved

/-! ## What is loaded -/

section Loaded

variable {s loaded : Settings} {depth : Nat} {custom : List (Text × Value)}

theorem isName_of_mem_ownFields : ∀ f ∈ s.ownFields, isName f.1 = true ∧ f.1 ≠ "custom" := by
  have hshape : ∀ name ∈ s.ownFields.map Prod.fst, isName name = true ∧ name ≠ "custom" := by
    rw [map_fst_ownFields]
    decide
  exact fun f hf => hshape f.1 (List.mem_map_of_mem hf)

/-- Custom entries of which none has the name of a setting are the custom table again. -/
theorem ofLayers_restored (hdistinct : (custom.map Prod.fst).Nodup)
    (hnone : ∀ f ∈ custom, isName f.1 = false) (htable : s.custom = .ofFields custom) :
    ofLayers (named (restored s custom)) = .ok s := by
  have hget (name : Text) (hname : isName name = true) :
      Assoc.get? name (known (restored s custom)) =
        (Assoc.get? name s.ownFields).or (Assoc.get? name defaults) := by
    have hnotMem : name ∉ custom.map Prod.fst := by
      intro hmem
      obtain ⟨f, hf, rfl⟩ := List.mem_map.mp hmem
      rw [hnone f hf] at hname
      cases hname
    rw [get?_known_restored s hdistinct hname, Assoc.get?_eq_none hnotMem, Option.none_or]
  have hown : ∀ f ∈ s.ownFields, Assoc.get? f.1 (known (restored s custom)) = some f.2 := by
    intro f hf
    rw [hget f.1 (isName_of_mem_ownFields f hf).1, Assoc.get?_of_mem (nodup_ownFields s) hf,
      Option.some_or]
  have hcustom : Assoc.get? ("custom" : Text) (known (restored s custom)) = some (.map []) :=
    (hget "custom" rfl).trans rfl
  have hunknown : unknown (restored s custom) = custom := by
    rw [unknown_restored s hdistinct, unknown, List.filter_eq_self]
    exact fun f hf => by rw [hnone f hf]; rfl
  by_cases hnil : custom = []
  · rw [ofLayers_of_unknown_eq_nil (hunknown.trans hnil), ofArguments_eq hown]
    rw [hcustom, htable, hnil]
    rfl
  · have hput : ∀ f ∈ s.ownFields, Assoc.get? f.1 (Assoc.put ("custom" : Text)
        (.map (named custom)) (known (restored s custom))) = some f.2 := by
      intro f hf
      rw [Assoc.get?_put_of_ne (isName_of_mem_ownFields f hf).2.symm, hown f hf]
    rw [ofLayers_of_unknown_ne_nil (by rwa [hunknown]), hcustom, hunknown]
    change Except.ok (ofArguments (Assoc.put _ (.map (Assoc.putAll [] (named custom))) _)) = _
    rw [putAll_nil_named hdistinct, ofArguments_eq hput]
    rw [Assoc.get?_put_self, htable]
    rfl

/-- The custom table that is loaded: what stands under its name, or the table that this stands for
with the custom entries that are no settings over it. -/
theorem custom_of_ofLayers_restored (hdistinct : (custom.map Prod.fst).Nodup)
    (h : ofLayers (named (restored s custom)) = .ok loaded) :
    let inner := (Assoc.get? ("custom" : Text) custom).getD (.map [])
    unknown custom = [] ∧ loaded.custom = inner ∨
      ∃ table, (inner.orElse (.map [])).toDictionary = .ok table ∧
        loaded.custom = .map (Assoc.putAll table (named (unknown custom))) := by
  have hget : Assoc.get? ("custom" : Text) (known (restored s custom)) =
      some ((Assoc.get? ("custom" : Text) custom).getD (.map [])) := by
    rw [get?_known_restored s hdistinct rfl]
    cases Assoc.get? ("custom" : Text) custom <;> rfl
  have hunknown := unknown_restored s hdistinct
  by_cases hnil : unknown custom = []
  · rw [ofLayers_of_unknown_eq_nil (hunknown.trans hnil)] at h
    obtain rfl := Except.ok.inj h
    exact .inl ⟨hnil, by rw [custom_ofArguments, hget, Option.getD_some]⟩
  · rw [ofLayers_of_unknown_ne_nil (by rwa [hunknown]), hget, hunknown] at h
    obtain ⟨table, htable, h⟩ := bind_eq_ok_iff.mp h
    obtain rfl := Except.ok.inj h
    exact .inr ⟨table, htable, by rw [custom_ofArguments, Assoc.get?_put_self, Option.getD_some]⟩

/-- Without an entry under the name of the custom table, the table that is loaded has the others but
those that are taken for settings. -/
theorem not_same_of_taken (hdistinct : (custom.map Prod.fst).Nodup)
    (htable : s.custom = .ofFields custom)
    (hinner : Assoc.get? ("custom" : Text) custom = none) {f : Text × Value} (hf : f ∈ custom)
    (hname : isName f.1 = true) (h : ofLayers (named (restored s custom)) = .ok loaded) :
    ¬s.custom.same loaded.custom = true := by
  intro hsame
  have hcustom : loaded.custom = .map (named (unknown custom)) := by
    have hloaded := custom_of_ofLayers_restored hdistinct h
    rw [hinner] at hloaded
    rcases hloaded with ⟨hnil, hloaded⟩ | ⟨table, hempty, hloaded⟩
    · rw [hloaded, hnil]
      rfl
    · obtain rfl := Except.ok.inj hempty
      have hkept : ((unknown custom).map Prod.fst).Nodup :=
        hdistinct.sublist (List.filter_sublist.map Prod.fst)
      rw [hloaded, putAll_nil_named hkept]
  rw [htable, hcustom, Value.ofFields, Value.same, Bool.and_eq_true, named, List.length_map,
    List.length_map] at hsame
  have hless : (unknown custom).length < custom.length := by
    rw [unknown, List.length_filter_lt_length_iff_exists]
    exact ⟨f, hf, by simp [hname]⟩
  exact absurd (eq_of_beq hsame.1) (by omega)

/-- An entry under the name of the custom table is taken for this table, where an entry that is the
same as it would have to be again. -/
theorem not_same_of_inner (hcustom : IsDocument depth s.custom) (htable : s.custom = .ofFields custom)
    {inner : Value} (hinner : Assoc.get? ("custom" : Text) custom = some inner)
    (h : ofLayers (named (restored s custom)) = .ok loaded) :
    ¬s.custom.same loaded.custom = true := by
  intro hsame
  rw [htable] at hsame hcustom
  obtain ⟨depth, -, hdistinct, -, hvalues⟩ := hcustom.exists_of_ofFields
  obtain ⟨e, he, hkey, rfl⟩ := Assoc.exists_mem_entry_of_get? hinner
  have hentry : (Value.str e.1, e.2) ∈ named custom := List.mem_map_of_mem he
  have hloaded := custom_of_ofLayers_restored hdistinct h
  rw [hinner, Option.getD_some] at hloaded
  rcases hloaded with ⟨-, hloaded⟩ | ⟨table, htable, hloaded⟩
  · have hle := Value.nesting_le_of_same _ _ hsame
    have hlt : e.2.nesting ≤ Value.nestingOfEntries (named custom) :=
      Value.nesting_le_of_mem_entries hentry
    rw [hloaded, Value.ofFields, Value.nesting] at hle
    exact absurd (hlt.trans_lt (Nat.lt_of_succ_le hle)) (Nat.lt_irrefl _)
  · rw [hloaded, Value.ofFields, Value.same, Bool.and_eq_true] at hsame
    obtain ⟨d, hd, hdkey, hdvalue⟩ := Value.exists_mem_of_sameEntries hsame.2 hentry
    have hcustomKey : d.1 = .str "custom" := hkey ▸ Value.eq_str_of_str_same hdkey
    rcases Assoc.mem_putAll_of_beq hd with hd | ⟨p, hp, -, hpkey⟩
    · have hlt := (hvalues e he).nesting_lt_of_toDictionary htable hd
      exact absurd (Value.nesting_le_of_same _ _ hdvalue) (Nat.not_le.mpr hlt)
    · obtain ⟨g, hg, rfl⟩ := List.mem_map.mp hp
      rw [hcustomKey] at hpkey
      have hgkey : g.1 = "custom" :=
        (Value.str.inj (hpkey.elim id fun h => Value.eq_str_of_same h)).symm
      have hother := (List.mem_filter.mp hg).2
      rw [hgkey] at hother
      cases hother

/-- Settings are loaded from their layers the same if no custom entry has the name of a setting, and
never otherwise. -/
theorem exists_ofLayers_restored_iff (hown : ∀ f ∈ s.ownFields, IsDocument depth f.2)
    (hcustom : IsDocument depth s.custom) (htable : s.custom = .ofFields custom) :
    (∃ loaded, ofLayers (named (restored s custom)) = .ok loaded ∧ s.isSame loaded = true) ↔
      ∀ name ∈ shape.fields, name ∉ custom.map Prod.fst := by
  obtain ⟨-, -, hdistinct, -, -⟩ := (htable ▸ hcustom).exists_of_ofFields
  constructor
  · rintro ⟨loaded, hloaded, hsame⟩ name hname hmem
    obtain ⟨f, hf, rfl⟩ := List.mem_map.mp hmem
    have hcustomSame := same_custom_of_isSame hsame
    cases hinner : Assoc.get? ("custom" : Text) custom with
    | none =>
      have hknown : isName f.1 = true := List.contains_iff_mem.mpr hname
      exact not_same_of_taken hdistinct htable hinner hf hknown hloaded hcustomSame
    | some inner => exact not_same_of_inner hcustom htable hinner hloaded hcustomSame
  · intro hnone
    refine ⟨s, ofLayers_restored hdistinct (fun f hf => ?_) htable, isSame_self hown hcustom⟩
    rw [Bool.eq_false_iff]
    intro hname
    exact hnone f.1 (List.contains_iff_mem.mp hname) (List.mem_map_of_mem hf)

end Loaded

/-! ## Saving and loading -/

section Files

open Files (Reaches)

variable {files : Files} {path : Text} {key : FileKey} {s : Settings} {custom : List (Text × Value)}

/-- Settings that do not nest too deep are saved as their document. -/
theorem save_eq (hreaches : files.Reaches (.ofText path) key)
    (hown : ∀ f ∈ s.ownFields, IsDocument Value.storedDepth f.2)
    (hcustom : IsDocument Value.storedDepth s.custom) (htable : s.custom = .ofFields custom) :
    s.save files (.ofText path) =
      (files.put key (.file (.text
        (Json.write .file (.ofFields (Assoc.putAll s.ownFields custom))).text)), .ok ()) := by
  rw [save, toDocument_eq hown hcustom htable]
  exact hreaches.writeDocument_eq (isDocument_saved hown hcustom htable) (by decide) _

/-- The layer in a settings file. -/
theorem readLayer_eq {path : Path} {content : Content} (hgiven : Files.pathFault? path = none)
    (hlocate : files.locate path = .ok (.file key content)) (hsuffix : path.suffix = ".json")
    {entries : List (Value × Value)}
    (hread : files.readDocument path (documentFailures path) = .ok (.map entries)) :
    readLayer files path = .ok entries := by
  have hlower : Text.lower ".json" = ".json" := by decide
  rw [readLayer, Files.pathExists_of_file hgiven hlocate, ok_bind, hsuffix, hlower, hread]
  rfl

/-- A file whose path has no such suffix is refused before it is read. -/
theorem load_of_suffix_ne {content : Content} (hgiven : Files.pathFault? (.ofText path) = none)
    (hlocate : files.locate (.ofText path) = .ok (.file key content)) (hpath : path ≠ [])
    (hsuffix : Text.lower (Path.ofText path).suffix ≠ ".json") (overrides : Value) :
    load files overrides (.str path) =
      .error (.settings (.notJsonFile (Path.ofText path).text)) := by
  have hlayer : readLayer files (.ofText path) =
      .error (.settings (.notJsonFile (Path.ofText path).text)) := by
    rw [readLayer, Files.pathExists_of_file hgiven hlocate, ok_bind, if_pos hsuffix]
    rfl
  rw [load]
  simp only [Value.isTrue_str hpath, if_true, Path.ofValue, ok_bind, hlayer, error_bind]

/-- Loading what was saved merges its layers. -/
theorem load_save_eq (hreaches : files.Reaches (.ofText path) key)
    (hsuffix : (Path.ofText path).suffix = ".json")
    (hown : ∀ f ∈ s.ownFields, IsDocument Value.storedDepth f.2)
    (hcustom : IsDocument Value.storedDepth s.custom) (htable : s.custom = .ofFields custom) :
    load (s.save files (.ofText path)).1 .null (.str path) = ofLayers (named (restored s custom)) := by
  have hlocate := hreaches.locate_put
    (.text (Json.write .file (.ofFields (Assoc.putAll s.ownFields custom))).text)
  have hread := Files.readDocument_of_written hreaches.given hlocate
    (isDocument_saved hown hcustom htable) (by decide) (documentFailures (.ofText path))
  have hlayer := readLayer_eq hreaches.given hlocate hsuffix hread
  have hpath : path ≠ [] := by
    rintro rfl
    exact absurd hsuffix (by decide)
  have hdefaults : default.ownEntries ++ [(.str "custom", .map [])] = named defaults := rfl
  rw [save_eq hreaches hown hcustom htable, load]
  simp only [Value.isTrue_str hpath, if_true, Path.ofValue, ok_bind, hlayer, hdefaults]
  exact congrArg ofLayers (putAll_named defaults _)

/-- Settings made of documents of any depth, with a custom table, in a file that is written with
`.json` at its end and more before it. They are saved if they nest at most so deep as is stored. Once
they are, loading the file gives settings that are equal to them if and only if no custom key is the
name of a setting, the custom table's own included. -/
theorem load_save_iff (hreaches : files.Reaches (.ofText path) key)
    (hend : (".json" : Text) <:+ path) (hname : (Path.ofText path).parts.getLast? ≠ some ".json")
    {depth : Nat} (hown : ∀ f ∈ s.ownFields, IsDocument depth f.2)
    (hcustom : IsDocument depth s.custom) (htable : s.custom = .ofFields custom) :
    (depth ≤ Value.storedDepth → ∃ saved, s.save files (.ofText path) = (saved, .ok ())) ∧
    ∀ saved, s.save files (.ofText path) = (saved, .ok ()) →
      ((∃ loaded, load saved .null (.str path) = .ok loaded ∧ s.isSame loaded = true) ↔
        ∀ name ∈ shape.fields, name ∉ custom.map Prod.fst) := by
  constructor
  · intro hdepth
    exact ⟨_, save_eq hreaches (fun f hf => (hown f hf).mono hdepth) (hcustom.mono hdepth) htable⟩
  · intro saved hsave
    obtain ⟨document, hdocument⟩ : ∃ document, s.toDocument = .ok document := by
      cases hdocument : s.toDocument with
      | ok document => exact ⟨document, rfl⟩
      | error failure =>
        rw [save, hdocument] at hsave
        exact absurd (congrArg Prod.snd hsave) nofun
    obtain ⟨hownStored, hcustomStored⟩ := nests_of_toDocument hown hcustom hdocument
    have hsuffix : (Path.ofText path).suffix = ".json" :=
      Path.suffix_ofText hend (by decide) (by decide) (by decide) hname
    have hload := load_save_eq hreaches hsuffix hownStored hcustomStored htable
    rw [hsave] at hload
    rw [hload]
    exact exists_ofLayers_restored_iff hown hcustom htable

/-- The settings that nobody has set are values of documents. -/
theorem isDocument_default : ∀ f ∈ default.ownFields, IsDocument 1 f.2 := by
  have htimeout : IsDocument 1 (.int defaultTimeout) := .int (by decide +kernel)
  have hlimit : IsDocument 1 (.int defaultHistoryLimit) := .int (by decide +kernel)
  have hlanguage : IsDocument 1 (.str "curl") := .str (by decide)
  have hlevel : IsDocument 1 (.str "WARNING") := .str (by decide)
  have hvalues : default.ownFields.map Prod.snd = [.int defaultTimeout, .int defaultHistoryLimit,
      .null, .null, .null, .str "curl", .str "WARNING"] := rfl
  have hdocuments : ∀ v ∈ default.ownFields.map Prod.snd, IsDocument 1 v := by
    rw [hvalues]
    simp only [List.forall_mem_cons]
    exact ⟨htimeout, hlimit, .null, .null, .null, hlanguage, hlevel, List.forall_mem_nil _⟩
  exact fun f hf => hdocuments f.2 (List.mem_map_of_mem hf)

/-- A file can be made in an empty working directory. -/
theorem reaches_settings : Files.empty.Reaches (.ofText "settings.json") ["settings.json"] :=
  ⟨by cbv, .inl (by cbv)⟩

/-- The defaults with one custom entry. -/
theorem load_save_theme :
    ∃ (s : Settings) (saved : Files) (loaded : Settings),
      s.custom = .ofFields [("theme", .str "dark")] ∧
      s.save .empty (.ofText "settings.json") = (saved, .ok ()) ∧
      load saved .null (.str "settings.json") = .ok loaded ∧ s.isSame loaded = true := by
  let s : Settings := { default with custom := .ofFields [("theme", .str "dark")] }
  have hcustom : IsDocument 1 s.custom := by
    refine .map (by decide) (by decide) fun f hf => ?_
    obtain rfl := List.mem_singleton.mp hf
    exact .str (by decide)
  obtain ⟨hsaved, hloaded⟩ := load_save_iff (s := s) reaches_settings ⟨"settings", rfl⟩ (by decide)
    isDocument_default hcustom rfl
  obtain ⟨saved, hsave⟩ := hsaved (by decide)
  obtain ⟨loaded, hload, hsame⟩ := (hloaded saved hsave).mpr (by decide)
  exact ⟨s, saved, loaded, rfl, hsave, hload, hsame⟩

/-- A file that is named no more than `.json` has no suffix, so settings that are saved there are
refused. -/
theorem load_save_bare_name :
    ∃ saved, default.custom = .ofFields [] ∧ (".json" : Text) <:+ ".json" ∧
      default.save .empty (.ofText ".json") = (saved, .ok ()) ∧
      load saved .null (.str ".json") = .error (.settings (.notJsonFile ".json")) := by
  have hreaches : Files.empty.Reaches (.ofText ".json") [".json"] := ⟨by cbv, .inl (by cbv)⟩
  have hcustom : default.custom = .ofFields [] := rfl
  have hsave := save_eq hreaches (fun f hf => (isDocument_default f hf).mono (by decide))
    (hcustom ▸ .noFields) hcustom
  have hsuffix : Text.lower (Path.ofText ".json").suffix ≠ ".json" := by
    have hnone : (Path.ofText ".json").suffix = [] := by cbv
    rw [hnone]
    decide
  have htext : (Path.ofText ".json").text = ".json" := by cbv
  have hload := load_of_suffix_ne hreaches.given (hreaches.locate_put
    (.text (Json.write .file (.ofFields (Assoc.putAll default.ownFields []))).text)) (by decide)
    hsuffix .null
  rw [htext] at hload
  exact ⟨_, hcustom, List.suffix_rfl, hsave, hload⟩

end Files

end Settings

end HttpWorkbench
