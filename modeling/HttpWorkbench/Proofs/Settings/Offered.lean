import HttpWorkbench.Log.Level
import HttpWorkbench.Proofs.Json.RoundTrip
import HttpWorkbench.Proofs.Sending.TimeLimit
import HttpWorkbench.Proofs.Settings.Layers
import HttpWorkbench.Proofs.Storage.Offered

/-!
# Offered settings

What a settings file is to hold so that commands can use the settings. Nothing checks the values of
settings before a command uses them, so each has to be of the kind that is used.
-/

namespace HttpWorkbench

open Json (IsDocument)

/-- A limit on the time of an exchange: a number of milliseconds that is not too large for a number
of seconds. -/
def Value.IsTimeLimit (v : Value) : Prop :=
  ∃ q, v.amount? = some q ∧ q / 1000 < Binary64.overflowBound

namespace Settings

/-- The settings that commands use are of the kinds that they use. -/
structure AreUsable (s : Settings) : Prop where
  time : s.timeout.IsTimeLimit
  limit : ∃ n : Int, s.historyLimit = .int n
  historyFile : ∃ name : Option Text, s.historyFile = .ofText? name
  environmentFile : ∃ name : Option Text, s.environmentFile = .ofText? name
  activeEnvironment : ∃ name : Option Text, s.activeEnvironment = .ofText? name
  level : ∃ threshold, Log.threshold s.logLevel = .ok threshold

theorem areUsable_default : default.AreUsable where
  time := ⟨_, rfl, Binary64.lt_overflowBound_of_le (by norm_num [defaultTimeout])⟩
  limit := ⟨_, rfl⟩
  historyFile := ⟨none, rfl⟩
  environmentFile := ⟨none, rfl⟩
  activeEnvironment := ⟨none, rfl⟩
  level := ⟨_, rfl⟩

theorem AreUsable.of_ownFields {s t : Settings} (h : s.AreUsable) (hsame : t.ownFields = s.ownFields) :
    t.AreUsable := by
  simp only [ownFields, List.cons.injEq, Prod.mk.injEq, true_and, and_true] at hsame
  obtain ⟨htime, hlimit, hhistory, henvironment, hactive, -, hlevel⟩ := hsame
  exact ⟨htime ▸ h.time, hlimit ▸ h.limit, hhistory ▸ h.historyFile,
    henvironment ▸ h.environmentFile, hactive ▸ h.activeEnvironment, hlevel ▸ h.level⟩

/-- What the document of settings is to be: the settings that it names are of the kinds that are
used, and a table stands under the name of the custom table. Anything but an object is refused
anyway. -/
structure Fits (data : Value) : Prop where
  document : ∃ depth, IsDocument depth data
  usable : ∀ fields, data = .ofFields fields → (ofArguments fields).AreUsable
  custom : ∀ fields v, data = .ofFields fields → Assoc.get? ("custom" : Text) fields = some v →
    v.isTrue = true → ∃ table, v = .map table

/-- A failure that tells why there are no settings. -/
def IsRefusal (failure : Failure) : Prop := ∃ reason, failure = .settings reason

variable {fields : List (Text × Value)}

/-- Of a layer over the defaults, each setting has the layer's value or else its default. -/
theorem ownFields_ofArguments_of_get? {args : List (Text × Value)}
    (hdistinct : (fields.map Prod.fst).Nodup)
    (hargs : ∀ f ∈ default.ownFields,
      Assoc.get? f.1 args = Assoc.get? f.1 (known (Assoc.putAll defaults fields))) :
    (ofArguments args).ownFields = (ofArguments fields).ownFields := by
  refine ownFields_ofArguments (Assoc.get? · fields) fun f hf => ?_
  obtain ⟨hname, hdefault⟩ := get?_defaults f hf
  rw [hargs f hf, known, Assoc.get?_filter (Assoc.respects_of_lawful isName) hname,
    Assoc.get?_putAll hdistinct, hdefault]

/-- A layer that fits makes settings that can be used. -/
theorem Fits.exists_ofLayers {layer : List (Value × Value)} (h : Fits (.map layer)) :
    ∃ s, ofLayers (Assoc.putAll (default.ownEntries ++ [(.str "custom", .map [])]) layer) = .ok s ∧
      s.AreUsable := by
  obtain ⟨depth, hdocument⟩ := h.document
  obtain ⟨fields, rfl, hdistinct⟩ : ∃ fields, layer = named fields ∧ (fields.map Prod.fst).Nodup := by
    generalize hdata : Value.map layer = data at hdocument
    cases hdocument with
    | map hdistinct =>
      cases hdata
      exact ⟨_, rfl, hdistinct⟩
    | _ => cases hdata
  have husable := h.usable fields rfl
  change ∃ s, ofLayers (Assoc.putAll (named defaults) (named fields)) = .ok s ∧ s.AreUsable
  rw [putAll_named]
  by_cases hnone : unknown (Assoc.putAll defaults fields) = []
  · rw [ofLayers_of_unknown_eq_nil hnone]
    exact ⟨_, rfl, husable.of_ownFields (ownFields_ofArguments_of_get? hdistinct fun _ _ => rfl)⟩
  -- Unknown settings go into the custom table, so that has to be one.
  · rw [ofLayers_of_unknown_ne_nil hnone]
    have hcustom : Assoc.get? ("custom" : Text) (known (Assoc.putAll defaults fields)) =
        (Assoc.get? ("custom" : Text) fields).or (some (.map [])) := by
      rw [known, Assoc.get?_filter (Assoc.respects_of_lawful isName) (by decide),
        Assoc.get?_putAll hdistinct]
      rfl
    obtain ⟨table, htable⟩ : ∃ table,
        (((Assoc.get? ("custom" : Text) (known (Assoc.putAll defaults fields))).getD .null).orElse
          (.map [])).toDictionary = .ok table := by
      rw [hcustom]
      cases hget : Assoc.get? ("custom" : Text) fields with
      | none => exact ⟨[], rfl⟩
      | some v =>
        change ∃ table, (v.orElse (.map [])).toDictionary = .ok table
        unfold Value.orElse
        cases htrue : v.isTrue with
        | false => exact ⟨[], rfl⟩
        | true =>
          obtain ⟨table, rfl⟩ := h.custom fields v rfl hget htrue
          exact ⟨table, rfl⟩
    rw [htable, ok_bind]
    refine ⟨_, rfl, husable.of_ownFields (ownFields_ofArguments_of_get? hdistinct fun f hf => ?_)⟩
    refine Assoc.get?_put_of_ne ?_ _ _
    have hnames : ("custom" : Text) ∉ default.ownFields.map Prod.fst := by decide
    exact fun hsame => hnames (hsame ▸ List.mem_map_of_mem hf)

/-- The layer of a file that offers settings fits, or it is told why there is none. -/
theorem yields_readLayer {files : Files} {path : Path} (h : files.Offers Fits path) :
    Yields (fun layer => Fits (.map layer)) IsRefusal (readLayer files path) := by
  obtain ⟨there, hthere, hgiven⟩ := h.exists_pathExists
  rw [readLayer, hthere, ok_bind]
  cases there with
  | false => exact ⟨_, rfl⟩
  | true =>
    simp only [Bool.not_true, Bool.false_eq_true, if_false]
    split
    · exact ⟨_, rfl⟩
    · refine Yields.bind ((h.yields_readDocument (hgiven rfl) _).imp (fun _ h => h) ?_)
        fun data hdata => ?_
      · rintro _ (⟨fault, rfl⟩ | ⟨fault, rfl⟩)
        · exact ⟨_, rfl⟩
        · exact ⟨_, rfl⟩
      · cases data with
        | map layer => exact hdata
        | _ => exact ⟨_, rfl⟩

/-- Loading the settings of a file that offers some gives settings that can be used, or tells why
not. Without a file there are the defaults. -/
theorem yields_load {files : Files} {file : Option Text}
    (h : ∀ name, file = some name → name ≠ "" → files.Offers Fits (.ofText name)) :
    Yields AreUsable IsRefusal (load files .null (.ofText? file)) := by
  have hfile (name : Text) (hname : name ≠ "") :
      load files .null (.str name) = readLayer files (.ofText name) >>= fun layer =>
        ofLayers (Assoc.putAll (default.ownEntries ++ [(.str "custom", .map [])]) layer) := by
    have htrue : (Value.str name).isTrue = true := by
      cases name with
      | nil => exact absurd rfl hname
      | cons c rest => rfl
    have hpath : Path.ofValue (.str name) = .ok (.ofText name) := rfl
    rw [load, if_pos htrue, hpath, ok_bind]
    cases readLayer files (.ofText name) <;> rfl
  cases file with
  | none => exact areUsable_default
  | some name =>
    by_cases hname : name = ""
    · subst hname
      exact areUsable_default
    · change Yields AreUsable IsRefusal (load files .null (.str name))
      rw [hfile name hname]
      refine (yields_readLayer (h name rfl hname)).bind fun layer hlayer => ?_
      obtain ⟨s, hs, husable⟩ := hlayer.exists_ofLayers
      exact .of_ok hs husable

end Settings

end HttpWorkbench
