import HttpWorkbench.Proofs.Result
import HttpWorkbench.Proofs.Value.Overlaid
import HttpWorkbench.Settings.Document

/-!
# Settings from layers

Merged layers with texts for keys describe the settings whose names they have; the other entries
overlay what stands under the name of the custom table. Where layers come from settings that were
saved, the others are the custom entries whose keys are no names of settings.
-/

namespace HttpWorkbench.Settings

/-- A table of named values. -/
def named (fields : List (Text × Value)) : List (Value × Value) :=
  fields.map fun e => (.str e.1, e.2)

theorem putAll_named (fields others : List (Text × Value)) :
    Assoc.putAll (named fields) (named others) = named (Assoc.putAll fields others) :=
  Assoc.putAll_map (g := Value.str) (fun _ _ => rfl) id fields others

/-- Named values with distinct names are a table as they are. -/
theorem putAll_nil_named {fields : List (Text × Value)} (h : (fields.map Prod.fst).Nodup) :
    Assoc.putAll [] (named fields) = named fields :=
  (putAll_named [] fields).trans (congrArg named (Assoc.ofList_of_nodup h))

/-- Whether a text is the name of a setting. -/
def isName (name : Text) : Bool := shape.fields.contains name

/-- The entries that are settings. -/
def known (fields : List (Text × Value)) : List (Text × Value) := fields.filter fun e => isName e.1

/-- The entries that are none. -/
def unknown (fields : List (Text × Value)) : List (Text × Value) :=
  fields.filter fun e => !isName e.1

theorem filter_isKnown_named (fields : List (Text × Value)) :
    (named fields).filter (fun e => isKnown e.1) = named (known fields) :=
  List.filter_map ..

theorem filter_not_isKnown_named (fields : List (Text × Value)) :
    (named fields).filter (fun e => !isKnown e.1) = named (unknown fields) :=
  List.filter_map ..

theorem isName_of_mem_known {fields : List (Text × Value)} : ∀ e ∈ known fields, isName e.1 = true :=
  fun _ he => (List.mem_filter.mp he).2

/-- Entries that are all settings make settings. -/
theorem make_named {fields : List (Text × Value)} (h : ∀ e ∈ fields, isName e.1 = true) :
    make (named fields) = .ok (ofArguments fields) := by
  have hfind : (fields.find? fun e => !shape.fields.contains e.1) = none := by
    rw [List.find?_eq_none]
    intro e he
    simpa [isName] using h e he
  have harguments : shape.arguments (named fields) = .ok fields := by
    rw [RecordShape.arguments, named,
      mapM_map_eq_ok (g := fun e : Text × Value => (Value.str e.1, e.2)), ok_bind]
    · simp only [hfind]
      rfl
    · exact fun _ => rfl
  rw [make, harguments]
  rfl

/-- The value under a name in a table of named values. -/
theorem field?_named (name : Text) (fields : List (Text × Value)) :
    Value.field? name (named fields) = Assoc.get? name fields := by
  rw [Value.field?]
  induction fields with
  | nil => rfl
  | cons e fields ih => exact congrArg (fun rest => if e.1 == _ then some e.2 else rest) ih

/-- The entries of a layer that are no settings. -/
def others (layer : List (Value × Value)) : List (Value × Value) := layer.filter fun e => !isKnown e.1

/-- Layers whose settings are known by name describe these settings; other entries overlay the custom
table. -/
theorem ofLayers_eq {entries : List (Value × Value)} {fields : List (Text × Value)}
    (hknown : entries.filter (fun e => isKnown e.1) = named fields)
    (hnames : ∀ e ∈ fields, isName e.1 = true) :
    ofLayers entries = if others entries = [] then .ok (ofArguments fields)
      else (((Assoc.get? ("custom" : Text) fields).getD .null).orElse (.map [])).toDictionary >>=
        fun table => .ok (ofArguments
          (Assoc.put ("custom" : Text) (.map (Assoc.putAll table (others entries))) fields)) := by
  have hput (v : Value) : Assoc.put (.str "custom") v (named fields) =
      named (Assoc.put ("custom" : Text) v fields) := putAll_named fields [("custom", v)]
  have hothers : (entries.filter fun e => !isKnown e.1) = others entries := rfl
  simp only [ofLayers, hknown, hothers, Value.fieldOr, field?_named, hput, List.isEmpty_iff]
  by_cases hnone : others entries = []
  · rw [if_pos hnone, if_pos hnone]
    exact make_named hnames
  · rw [if_neg hnone, if_neg hnone]
    congr 1
    funext table
    refine make_named fun e he => ?_
    rcases Assoc.mem_put he with he | rfl
    · exact hnames e he
    · rfl

/-- Layers without other entries are settings as they are. -/
theorem ofLayers_of_unknown_eq_nil {fields : List (Text × Value)} (h : unknown fields = []) :
    ofLayers (named fields) = .ok (ofArguments (known fields)) := by
  have hothers : others (named fields) = [] := by
    rw [others, filter_not_isKnown_named, h]
    rfl
  rw [ofLayers_eq (filter_isKnown_named fields) isName_of_mem_known, if_pos hothers]

/-- Other entries overlay the custom table. -/
theorem ofLayers_of_unknown_ne_nil {fields : List (Text × Value)} (h : unknown fields ≠ []) :
    ofLayers (named fields) =
      (((Assoc.get? ("custom" : Text) (known fields)).getD .null).orElse (.map [])).toDictionary >>=
        fun table => .ok (ofArguments (Assoc.put ("custom" : Text)
          (.map (Assoc.putAll table (named (unknown fields)))) (known fields))) := by
  have hothers : others (named fields) = named (unknown fields) := filter_not_isKnown_named fields
  have hsome : named (unknown fields) ≠ [] := by simpa [named] using h
  rw [ofLayers_eq (filter_isKnown_named fields) isName_of_mem_known, hothers, if_neg hsome]

/-- Settings from arguments that give each of its fields. -/
theorem ofArguments_eq {s : Settings} {args : List (Text × Value)}
    (hown : ∀ f ∈ s.ownFields, Assoc.get? f.1 args = some f.2)
    (hcustom : Assoc.get? ("custom" : Text) args = some s.custom) : ofArguments args = s := by
  simp only [ownFields, List.forall_mem_cons, List.not_mem_nil, false_imp_iff, implies_true,
    and_true] at hown
  obtain ⟨htimeout, hlimit, hhistory, henvironment, hactive, hlanguage, hlevel⟩ := hown
  simp only [ofArguments, htimeout, hlimit, hhistory, henvironment, hactive, hlanguage, hlevel,
    hcustom, Option.getD_some]

theorem custom_ofArguments (args : List (Text × Value)) :
    (ofArguments args).custom = (Assoc.get? ("custom" : Text) args).getD (.map []) := rfl

/-! ## Layers of saved settings -/

theorem map_fst_ownFields (s : Settings) :
    s.ownFields.map Prod.fst = default.ownFields.map Prod.fst := rfl

theorem nodup_ownFields (s : Settings) : (s.ownFields.map Prod.fst).Nodup := by
  rw [map_fst_ownFields]
  decide

/-- The defaults, under every layer. -/
def defaults : List (Text × Value) := default.ownFields ++ [(("custom" : Text), .map [])]

/-- Every setting has a default. -/
theorem get?_defaults : ∀ f ∈ default.ownFields,
    isName f.1 = true ∧ Assoc.get? f.1 defaults = some f.2 := by
  simp only [default, ownFields, ofArguments, List.forall_mem_cons]
  exact ⟨⟨rfl, rfl⟩, ⟨rfl, rfl⟩, ⟨rfl, rfl⟩, ⟨rfl, rfl⟩, ⟨rfl, rfl⟩, ⟨rfl, rfl⟩, ⟨rfl, rfl⟩,
    List.forall_mem_nil _⟩

/-- Arguments that give each setting what layers give it, or else its default, make settings of these
values. -/
theorem ownFields_ofArguments (given : Text → Option Value) {args : List (Text × Value)}
    (hargs : ∀ f ∈ default.ownFields, Assoc.get? f.1 args = (given f.1).or (some f.2)) :
    (ofArguments args).ownFields = default.ownFields.map fun f => (f.1, (given f.1).getD f.2) := by
  change default.ownFields.map (fun f => (f.1, (Assoc.get? f.1 args).getD f.2)) = _
  refine List.map_congr_left fun f hf => ?_
  rw [hargs f hf]
  cases given f.1 <;> rfl

/-- The defaults under what is stored of settings with custom entries. -/
def restored (s : Settings) (custom : List (Text × Value)) : List (Text × Value) :=
  Assoc.putAll defaults (Assoc.putAll s.ownFields custom)

section Restored

variable (s : Settings) {custom : List (Text × Value)} (hdistinct : (custom.map Prod.fst).Nodup)
include hdistinct

/-- The entries that are no settings are the custom ones that are none. -/
theorem unknown_restored : unknown (restored s custom) = unknown custom := by
  have hnone : ((unknown custom).map Prod.fst).Nodup :=
    hdistinct.sublist (List.filter_sublist.map Prod.fst)
  have hown : s.ownFields.filter (fun e => !isName e.1) = [] := rfl
  have hdefaults : defaults.filter (fun e => !isName e.1) = [] := rfl
  have hfilter (entries pairs : List (Text × Value)) :
      (Assoc.putAll entries pairs).filter (fun e => !isName e.1) =
        Assoc.putAll (entries.filter fun e => !isName e.1) (pairs.filter fun e => !isName e.1) :=
    Assoc.filter_putAll (Assoc.respects_of_lawful fun name => !isName name) pairs
  rw [unknown, restored, hfilter, hfilter, hown, hdefaults]
  change Assoc.ofList (Assoc.ofList _) = _
  have hkept : Assoc.ofList (custom.filter fun e => !isName e.1) = unknown custom :=
    Assoc.ofList_of_nodup hnone
  rw [hkept, Assoc.ofList_of_nodup hnone]

/-- A setting has the value of the custom entry with its name, or its own, or the default. -/
theorem get?_known_restored {name : Text} (hname : isName name = true) :
    Assoc.get? name (known (restored s custom)) =
      ((Assoc.get? name custom).or (Assoc.get? name s.ownFields)).or (Assoc.get? name defaults) := by
  have hnodup : ((Assoc.putAll s.ownFields custom).map Prod.fst).Nodup :=
    Assoc.nodup_putAll (nodup_ownFields s) custom
  rw [known, Assoc.get?_filter (Assoc.respects_of_lawful isName) hname, restored, Assoc.get?_putAll hnodup, Assoc.get?_putAll hdistinct]

end Restored

end HttpWorkbench.Settings
