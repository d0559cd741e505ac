import HttpWorkbench.CommandLine.RequestInput
import HttpWorkbench.Proofs.CommandLine.Told
import HttpWorkbench.Proofs.Environment.Offered
import HttpWorkbench.Proofs.Request.Offered
import HttpWorkbench.Proofs.Settings.Offered

/-!
# What a command is given

The request and the environments of a command come from files, from the standard input and from
options. Where all of these fit, the request is made of texts and the environments resolve texts, or
the command fails in a way that is told to the user.
-/

namespace HttpWorkbench

open Json (IsDocument)

open Failure (IsTold)

/-! ## Headers on the command line -/

namespace Text.HasNoHalves

theorem trim {s : Text} (hs : s.HasNoHalves) : (Text.trim s).HasNoHalves := by
  refine hs.of_subset fun c hc => ?_
  rw [Text.trim, Text.trimWhile, List.mem_reverse] at hc
  have hinner := (List.dropWhile_sublist _).subset hc
  exact (List.dropWhile_sublist _).subset (List.mem_reverse.mp hinner)

end Text.HasNoHalves

theorem HeaderArgument.hasNoHalves_split {argument : Text} (h : argument.HasNoHalves) :
    (split argument).1.HasNoHalves ∧ (split argument).2.HasNoHalves := by
  have hbefore : (Text.cutAt ':' argument).1.HasNoHalves :=
    h.of_subset (List.takeWhile_sublist _).subset
  have hbehind : (Text.cutAt ':' argument).2.HasNoHalves :=
    h.of_subset ((List.drop_sublist _ _).trans (List.dropWhile_sublist _)).subset
  exact ⟨hbefore.trim, hbehind.trim⟩

/-- Texts for headers make a table of texts. -/
theorem HeaderArgument.exists_tableOfValue {arguments : List Value}
    (h : ∀ v ∈ arguments, v.IsEncodableText) :
    ∃ table, tableOfValue (.list arguments) = .ok table ∧
      ∀ e ∈ table, e.1.HasNoHalves ∧ e.2.HasNoHalves := by
  obtain ⟨texts, rfl, hclean⟩ : ∃ texts : List Text, arguments = texts.map .str ∧
      ∀ s ∈ texts, s.HasNoHalves := by
    choose! f hf using h
    refine ⟨arguments.map f, ?_, ?_⟩
    · rw [List.map_map]
      exact (List.map_id arguments).symm.trans (List.map_congr_left fun v hv => (hf v hv).1)
    · rw [List.forall_mem_map]
      exact fun v hv => (hf v hv).2
  refine ⟨table texts, ?_, fun e he => ?_⟩
  · change ((texts.map Value.str).mapM ofValue >>= fun arguments => Except.ok (table arguments)) = _
    rw [mapM_map_eq_ok (f := ofValue) fun _ => rfl]
    rfl
  · rcases Assoc.mem_putAll he with he | he
    · cases he
    · obtain ⟨argument, hargument, rfl⟩ := List.mem_map.mp he
      exact hasNoHalves_split (hclean argument hargument)

namespace CommandLine

open CommandLine.Action (Ensures)

/-! ## The request -/

/-- The options that describe a request fit, with what they and the settings name: texts can be
encoded, and files and the standard input offer what they are read for. -/
structure RequestOptions.Fits (o : RequestOptions) (around : Surroundings) (settings : Settings)
    (files : Files) : Prop where
  file : ∀ name, given? o.file = some name → files.Offers SavedRequest.Fits (.ofText name)
  input : given? o.file = none → o.fromInput = true → Json.Offers SavedRequest.Fits around.input
  method : ∀ s ∈ o.method, s.HasNoHalves
  url : ∀ s ∈ o.url, s.HasNoHalves
  headers : ∀ v ∈ o.headers, v.IsEncodableText
  body : ∀ v ∈ o.body, v.IsEncodableText
  environments : ∀ name,
    (Value.ofText? o.environmentFile).orElse settings.environmentFile = .str name → name ≠ "" →
      files.Offers EnvironmentStore.Fits (.ofText name)

variable {around : Surroundings} {settings : Settings} {files : Files} {o : RequestOptions}

theorem isTold_loadingFailure {failure : Failure}
    (h : SavedRequest.IsRefusal failure ∨ ∃ shown, failure = .requestFileNotFound shown) :
    (loadingFailure failure).IsTold := by
  rcases h with ⟨reason, rfl⟩ | ⟨shown, rfl⟩
  · exact Failure.isTold_command _
  · exact Failure.isTold_command _

theorem mem_of_given? {s : Option Text} {t : Text} (h : given? s = some t) : t ∈ s :=
  (Option.filter_eq_some_iff.mp h).1

theorem RequestOptions.Fits.yields_baseRequest (h : o.Fits around settings files)
    (supply : Supply) :
    Yields (fun r => r.1.HoldsTexts) IsTold (baseRequest o around.input files supply) := by
  unfold baseRequest
  cases hfile : given? o.file with
  | some name =>
    exact .mapError ((SavedRequest.yields_load (h.file name hfile) supply).imp (fun _ h => h)
      fun _ => isTold_loadingFailure)
  | none =>
    cases hinput : o.fromInput with
    | true =>
      exact .mapError ((SavedRequest.yields_ofStream (h.input hfile hinput) _ supply).imp
        (fun _ h => h) fun _ h => isTold_loadingFailure (.inl h))
    | false =>
      cases hurl : given? o.url with
      | some url =>
        have hmake : SavedRequest.make [(.str "method", .str "GET"), (.str "url", .str url)] supply =
          .ok (SavedRequest.ofArguments [("method", .str "GET"), ("url", .str url)] supply) := rfl
        refine .of_ok hmake ?_
        have hbody : Value.null = .ofText? none := rfl
        exact SavedRequest.holdsTexts_of_parts rfl rfl rfl hbody (.ofString "GET")
          (h.url url (mem_of_given? hurl)) nofun nofun
      | none => exact Failure.isTold_command _

/-- A text that is given in place of another, or the other. -/
theorem getD_given? {s : Option Text} {other : Text} (hs : ∀ t ∈ s, t.HasNoHalves)
    (hother : other.HasNoHalves) :
    ((given? s).map Value.str).getD (.str other) = .str ((given? s).getD other) ∧
      ((given? s).getD other).HasNoHalves := by
  cases hgiven : given? s with
  | none => exact ⟨rfl, hother⟩
  | some t => exact ⟨rfl, hs t (mem_of_given? hgiven)⟩

/-- What the options override in a request made of texts are texts again. -/
theorem RequestOptions.Fits.exists_override (h : o.Fits around settings files) {r : SavedRequest}
    (hr : r.HoldsTexts) : ∃ r', override o r = .ok r' ∧ r'.HoldsTexts := by
  obtain ⟨t, ht, hsaved⟩ := hr
  obtain ⟨table, htable, hclean⟩ := HeaderArgument.exists_tableOfValue h.headers
  have hmethod : r.method = .str t.method := by rw [← hsaved]; rfl
  have hurl : r.url = .str t.url := by rw [← hsaved]; rfl
  have hheaders : r.headers = .map (t.headers.map fun h => (.str h.1, .str h.2)) := by
    rw [← hsaved]
    rfl
  have hbody : r.body = .ofText? t.body := by rw [← hsaved]; rfl
  have hput := IsTextTable.putAll (isTextTable_of_headers ht.headers) (isTextTable_of_headers hclean)
  obtain ⟨hmethod', hmethodClean⟩ := getD_given? h.method ht.method
  obtain ⟨hurl', hurlClean⟩ := getD_given? h.url ht.url
  obtain ⟨body, hbody', hbodyClean⟩ : ∃ body : Option Text,
      o.body.getD (.ofText? t.body) = .ofText? body ∧ ∀ s ∈ body, s.HasNoHalves := by
    cases hgiven : o.body with
    | none => exact ⟨t.body, rfl, ht.body⟩
    | some v =>
      obtain ⟨s, rfl, hs⟩ := h.body v hgiven
      exact ⟨some s, rfl, fun _ he => Option.mem_some.mp he ▸ hs⟩
  refine ⟨_, by rw [override, htable]; rfl, ?_⟩
  refine SavedRequest.holdsTexts_of_parts ?_ ?_ ?_ ?_ hmethodClean hurlClean hput
    hbodyClean
  · rw [hmethod]
    exact hmethod'
  · rw [hurl]
    exact hurl'
  · rw [hheaders]
    rfl
  · rw [hbody]
    exact hbody'

/-- The request can be loaded from where the options say. -/
def RequestOptions.LoadsRequest (o : RequestOptions) (around : Surroundings) (files : Files) : Prop :=
  ∃ supply loaded, baseRequest o around.input files supply = .ok loaded

theorem RequestOptions.Fits.ensures_describedRequest (h : o.Fits around settings files) :
    Ensures (·.files = files) (describedRequest around o)
      (fun r s => (r.HoldsTexts ∧ o.LoadsRequest around files) ∧ s.files = files)
      fun failure _ => failure.IsTold := by
  refine .get_bind fun s hs => ?_
  subst hs
  refine .ofResult_bind_of_yields (h.yields_baseRequest s.supply).with_eq fun loaded hloaded => ?_
  obtain ⟨r, hr, hholds⟩ := h.exists_override hloaded.1
  refine .bind (Q := fun _ s' => s'.files = s.files) (.set fun _ _ => rfl) fun _ => ?_
  exact .ofResult fun s' hs' => .of_ok hr ⟨⟨hholds, s.supply, loaded, hloaded.2⟩, hs'⟩

/-! ## The environments -/

theorem isTold_environmentFailure {failure : Failure} (h : EnvironmentStore.IsRefusal failure) :
    (environmentFailure failure).IsTold := by
  obtain ⟨reason, rfl⟩ := h
  exact Failure.isTold_command _

/-- A name on the command line in place of one in the settings is a name or nothing. -/
theorem exists_orElse (given : Option Text) {v : Value} (h : ∃ name : Option Text, v = .ofText? name) :
    ∃ name : Option Text, (Value.ofText? given).orElse v = .ofText? name := by
  unfold Value.orElse
  split
  · exact ⟨given, rfl⟩
  · exact h

theorem ne_empty_of_isTrue {name : Text} (h : (Value.str name).isTrue = true) : name ≠ "" := by
  rintro rfl
  cases h

/-- The environments, if there are any, resolve texts. -/
def ResolveTexts (environments : Option EnvironmentStore) : Prop :=
  ∀ store, environments = some store → ∃ f, store.Resolves f

theorem RequestOptions.Fits.yields_environmentsIn (h : o.Fits around settings files)
    (hsettings : settings.AreUsable) :
    Yields ResolveTexts EnvironmentStore.IsRefusal (environmentsIn o settings files) := by
  obtain ⟨file, hfile⟩ := exists_orElse o.environmentFile hsettings.environmentFile
  obtain ⟨active, hactive⟩ := exists_orElse o.environment hsettings.activeEnvironment
  unfold environmentsIn
  simp only [hfile, hactive]
  cases htrue : (Value.ofText? file).isTrue with
  | false => exact nofun
  | true =>
    cases file with
    | none => cases htrue
    | some name =>
      have hoffers := h.environments name hfile (ne_empty_of_isTrue htrue)
      have hpath : Path.ofValue (Value.ofText? (some name)) = .ok (.ofText name) := rfl
      rw [hpath, if_neg (by decide), ok_bind]
      refine Yields.bind (EnvironmentStore.yields_load hoffers).with_eq fun store hstore => ?_
      obtain ⟨hvalues, hload⟩ := hstore
      split
      · rename_i hselected
        have hkey : (Value.ofText? active).isKey = true := by cases active <;> rfl
        refine Yields.map ?_
        refine (EnvironmentStore.yields_activate hvalues hkey).with_eq.imp ?_ fun _ h => h
        rintro selected ⟨hselected, hactivate⟩ _ ⟨⟩
        exact (EnvironmentStore.Reachable.activate (.load hload) hactivate).exists_resolves hselected
      · rintro _ ⟨⟩
        exact (EnvironmentStore.Reachable.load hload).exists_resolves hvalues

theorem RequestOptions.Fits.ensures_loadEnvironments (h : o.Fits around settings files)
    (hsettings : settings.AreUsable) :
    Ensures (·.files = files) (loadEnvironments o settings)
      (fun environments s =>
        (ResolveTexts environments ∧ environmentsIn o settings files = .ok environments) ∧
          s.files = files)
      fun failure _ => failure.IsTold := by
  refine .get_bind fun s hs => ?_
  subst hs
  refine .ofResult ?_
  rintro s' rfl
  exact .mapError ((h.yields_environmentsIn hsettings).with_eq.imp (fun _ h => ⟨h, rfl⟩)
    fun _ => isTold_environmentFailure)

/-- The request and the environments that the options name can be loaded. -/
structure RequestOptions.Loads (o : RequestOptions) (around : Surroundings) (settings : Settings)
    (files : Files) : Prop where
  request : o.LoadsRequest around files
  environments : ∃ environments, environmentsIn o settings files = .ok environments

end CommandLine

end HttpWorkbench
