import HttpWorkbench.Proofs.Settings.Layers
import HttpWorkbench.Proofs.Storage.Files

/-!
# Settings of three layers

The defaults, the layer of a file and the overrides of a caller make settings: each setting has the
value of the last layer that gives it, and what is no setting overlays the custom table that is given,
the entries of the file first.
-/

namespace HttpWorkbench.Settings

open Value (field?)

/-- The names of settings are told apart from all other keys. -/
theorem respects_isKnown : Assoc.Respects isKnown := by
  intro a b hsame
  by_cases hname : ∃ s, a = .str s
  · obtain ⟨s, rfl⟩ := hname
    rw [Value.eq_str_of_str_same hsame]
  · by_cases hother : ∃ t, b = .str t
    · obtain ⟨t, rfl⟩ := hother
      exact absurd ⟨t, Value.eq_str_of_same hsame⟩ hname
    · have hnone {v : Value} (hv : ¬∃ s, v = .str s) : isKnown v = false := by
        cases v with
        | str s => exact absurd ⟨s, rfl⟩ hv
        | _ => rfl
      rw [hnone hname, hnone hother]

/-- The entries of a layer that are settings are named. -/
theorem exists_fields (layer : List (Value × Value)) :
    ∃ fields, layer.filter (fun e => isKnown e.1) = named fields ∧ ∀ e ∈ fields, isName e.1 = true := by
  induction layer with
  | nil => exact ⟨[], rfl, List.forall_mem_nil _⟩
  | cons e layer ih =>
    obtain ⟨fields, hfields, hnames⟩ := ih
    obtain ⟨key, v⟩ := e
    by_cases hknown : isKnown key = true
    · cases key with
      | str name =>
        refine ⟨(name, v) :: fields, ?_, List.forall_mem_cons.mpr ⟨hknown, hnames⟩⟩
        rw [List.filter_cons_of_pos (by simpa using hknown), hfields]
        rfl
      | _ => cases hknown
    · refine ⟨fields, ?_, hnames⟩
      rw [List.filter_cons_of_neg (by simpa using hknown), hfields]

section

variable (lower upper : List (Value × Value))

/-- What two layers give under a name. -/
def given? (name : Text) : Option Value := (field? name upper).or (field? name lower)

/-- The custom table that two layers give; null stands for an empty one. -/
def givenTable : List (Value × Value) :=
  match given? lower upper "custom" with
  | some (.map table) => table
  | _ => []

/-- The settings are those of two layers over the defaults. -/
structure IsMergeOf (s : Settings) : Prop where
  own : s.ownFields = default.ownFields.map fun f => (f.1, (given? lower upper f.1).getD f.2)
  custom : s.custom =
    if others lower = [] ∧ others upper = [] then (given? lower upper "custom").getD (.map [])
    else .map (Assoc.putAll (Assoc.putAll (givenTable lower upper) (others lower)) (others upper))
  kept : ∀ e ∈ others lower ++ others upper, ∃ table, s.custom = .map table ∧
    ∃ key ∈ table.map Prod.fst, key = e.1 ∨ (key == e.1) = true

end

/-- Under the name of the custom table is null or a table, if anything. -/
def HasCustomTable (layer : List (Value × Value)) : Prop :=
  ∀ v ∈ field? "custom" layer, v = .null ∨ ∃ table, v = .map table

/-- The layers over the defaults. -/
def merged (lower upper : List (Value × Value)) : List (Value × Value) :=
  Assoc.putAll (Assoc.putAll (named defaults) lower) upper

section Merged

variable {lower upper : List (Value × Value)}

/-- What is no setting in the layers is what is none in either. -/
theorem others_merged (hlower : Assoc.HasDistinctKeys lower) :
    others (merged lower upper) = Assoc.putAll (others lower) (others upper) := by
  have hfilter (entries pairs : List (Value × Value)) :
      others (Assoc.putAll entries pairs) = Assoc.putAll (others entries) (others pairs) :=
    Assoc.filter_putAll (fun a b hsame => congrArg not (respects_isKnown a b hsame)) pairs
  have hdefaults : others (named defaults) = [] := rfl
  have hkept : Assoc.putAll [] (others lower) = others lower := (hlower.filter _).ofList_eq
  rw [merged, hfilter, hfilter, hdefaults, hkept]

/-- A setting has the value that a layer gives it, or else its default. -/
theorem get?_fields (hlower : Assoc.HasDistinctKeys lower) (hupper : Assoc.HasDistinctKeys upper)
    {fields : List (Text × Value)}
    (hfields : (merged lower upper).filter (fun e => isKnown e.1) = named fields) {name : Text}
    (hname : isName name = true) :
    Assoc.get? name fields = (given? lower upper name).or (Assoc.get? name defaults) := by
  calc Assoc.get? name fields
      = field? name ((merged lower upper).filter fun e => isKnown e.1) := by
        rw [hfields, field?_named]
    _ = field? name (merged lower upper) := Assoc.get?_filter respects_isKnown hname
    _ = (given? lower upper name).or (Assoc.get? name defaults) := by
        rw [merged, Value.field?_putAll hupper, Value.field?_putAll hlower, field?_named, given?,
          Option.or_assoc]

/-- A custom table that is given is read as it is, and null as an empty one. -/
theorem toDictionary_given (hlower : HasCustomTable lower) (hupper : HasCustomTable upper) :
    ((((given? lower upper "custom").or (some (.map []))).getD .null).orElse (.map [])).toDictionary =
      .ok (givenTable lower upper) := by
  have hgiven : ∀ v ∈ given? lower upper "custom", v = .null ∨ ∃ table, v = .map table := by
    intro v hv
    rw [given?, Option.mem_def, Option.or_eq_some_iff] at hv
    rcases hv with hv | ⟨-, hv⟩
    · exact hupper v hv
    · exact hlower v hv
  rw [givenTable]
  cases hv : given? lower upper "custom" with
  | none => rfl
  | some v =>
    obtain rfl | ⟨table, rfl⟩ := hgiven v hv
    · rfl
    · cases table <;> rfl

/-- The entries of a file that are no settings, and then those of a caller, are put one after the
other. -/
theorem putAll_others (hlower : Assoc.HasDistinctKeys lower) (hupper : Assoc.HasDistinctKeys upper)
    (hnames : ∀ e ∈ lower, ∃ name : Text, e.1 = .str name) (table : List (Value × Value)) :
    Assoc.putAll table (Assoc.putAll (others lower) (others upper)) =
      Assoc.putAll (Assoc.putAll table (others lower)) (others upper) := by
  refine Assoc.putAll_putAll (hlower.filter _) (hupper.filter _) (fun p _ => ?_) table
  by_cases hp : ∃ name, p.1 = .str name
  · obtain ⟨name, hname⟩ := hp
    exact .inl (hname ▸ Value.isExact_str name)
  · -- Only names are in the file, and the key is none.
    refine .inr ?_
    rw [Assoc.contains, List.any_eq_false]
    intro e he hsame
    obtain ⟨name, hname⟩ := hnames e (List.mem_filter.mp he).1
    rw [hname] at hsame
    exact hp ⟨name, Value.eq_str_of_str_same hsame⟩

/-- Layers over the defaults make settings. -/
theorem exists_ofLayers_merged (hlower : Assoc.HasDistinctKeys lower)
    (hupper : Assoc.HasDistinctKeys upper) (hnames : ∀ e ∈ lower, ∃ name : Text, e.1 = .str name)
    (hlowerCustom : HasCustomTable lower) (hupperCustom : HasCustomTable upper) :
    ∃ s, ofLayers (merged lower upper) = .ok s ∧ IsMergeOf lower upper s := by
  obtain ⟨fields, hfields, hknown⟩ := exists_fields (merged lower upper)
  have hget {name : Text} (hname : isName name = true) :
      Assoc.get? name fields = (given? lower upper name).or (Assoc.get? name defaults) :=
    get?_fields hlower hupper hfields hname
  have hown : ∀ f ∈ default.ownFields,
      Assoc.get? f.1 fields = (given? lower upper f.1).or (some f.2) := by
    intro f hf
    obtain ⟨hname, hdefault⟩ := get?_defaults f hf
    rw [hget hname, hdefault]
  have hcustom : Assoc.get? ("custom" : Text) fields =
      (given? lower upper "custom").or (some (.map [])) := hget (by decide)
  rw [ofLayers_eq hfields hknown, others_merged hlower]
  by_cases hnone : others lower = [] ∧ others upper = []
  · refine ⟨_, if_pos (Assoc.putAll_eq_nil_iff.mpr hnone), ownFields_ofArguments _ hown, ?_, fun e he => ?_⟩
    · rw [if_pos hnone, custom_ofArguments, hcustom]
      cases given? lower upper "custom" <;> rfl
    · rw [hnone.1, hnone.2] at he
      cases he
  · rw [if_neg (mt Assoc.putAll_eq_nil_iff.mp hnone), hcustom, toDictionary_given hlowerCustom hupperCustom, ok_bind]
    have hnew : (ofArguments (Assoc.put ("custom" : Text) (.map (Assoc.putAll
        (givenTable lower upper) (Assoc.putAll (others lower) (others upper)))) fields)).custom =
        .map (Assoc.putAll (Assoc.putAll (givenTable lower upper) (others lower)) (others upper)) := by
      rw [custom_ofArguments, Assoc.get?_put_self, putAll_others hlower hupper hnames]
      rfl
    refine ⟨_, rfl, ownFields_ofArguments _ fun f hf => ?_, ?_, fun e he => ⟨_, hnew, ?_⟩⟩
    · have hne : f.1 ≠ ("custom" : Text) := by
        have hnames : ("custom" : Text) ∉ default.ownFields.map Prod.fst := by decide
        exact fun hsame => hnames (hsame ▸ List.mem_map_of_mem hf)
      rw [Assoc.get?_put_of_ne hne.symm, hown f hf]
    · rw [hnew, if_neg hnone]
    · rcases List.mem_append.mp he with he | he
      · obtain ⟨key, hkey, hsame⟩ := Assoc.exists_key_of_mem_putAll he (givenTable lower upper)
        exact ⟨key, (Assoc.keys_isPrefix_putAll _ _).subset hkey, hsame⟩
      · exact Assoc.exists_key_of_mem_putAll he _

end Merged

end HttpWorkbench.Settings
