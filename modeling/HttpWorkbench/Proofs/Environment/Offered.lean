import HttpWorkbench.Proofs.Request.Saved
import HttpWorkbench.Proofs.Sending.ResolvedCall
import HttpWorkbench.Proofs.Storage.Offered

/-!
# Offered environments

What an environment file is to hold so that texts can be resolved: tables whose variables are texts.
A store of such tables resolves texts to texts, and texts that can be encoded to texts that can be.
-/

namespace HttpWorkbench

open Json (IsDocument)

namespace EnvironmentStore

open Placeholder

open Value (fieldOr)

/-- All variables have texts that can be encoded for values. -/
def HasEncodableValues (store : EnvironmentStore) : Prop :=
  ∀ e ∈ store.environments, ∀ b ∈ e.2, b.2.IsEncodableText

/-- The store resolves texts as the function says, which keeps texts that can be encoded so. -/
structure Resolves (store : EnvironmentStore) (f : Text → Text) : Prop where
  text : ∀ s, store.resolve (.str s) = .ok (.str (f s))
  clean : ∀ s, s.HasNoHalves → (f s).HasNoHalves

theorem resolves_empty : EnvironmentStore.empty.Resolves id := ⟨resolve_empty, fun _ h => h⟩

/-- Values that can be encoded, put into a text that can be encoded, leave it so. -/
theorem hasNoHalves_replacement {table : VariableTable}
    (hvalues : ∀ b ∈ table, b.2.IsEncodableText) {s : Text} (hs : s.HasNoHalves) :
    Text.HasNoHalves ((pieces s).flatMap (replacement table)) := by
  induction s using pieces_induction with
  | nil => exact .nil
  | char c rest hscan ih =>
    rw [pieces_cons hscan]
    exact .cons (hs c List.mem_cons_self) (ih fun d hd => hs d (List.mem_cons_of_mem c hd))
  | placeholder o after ho ih =>
    rw [pieces_append ho, List.flatMap_cons]
    refine .append ?_ (ih fun d hd => hs d (List.mem_append_right _ hd))
    rw [replacement]
    cases hknown : known table o with
    | none => exact fun d hd => hs d (List.mem_append_left _ hd)
    | some value =>
      obtain ⟨b, hb, hvalue⟩ := Assoc.exists_mem_of_get? (known_eq_some_iff.mp hknown)
      obtain ⟨text, htext, hclean⟩ := hvalues b hb
      obtain rfl := Value.str.inj (htext.symm.trans hvalue)
      exact hclean

/-- A store that can be reached resolves texts when its variables are texts that can be encoded. -/
theorem Reachable.exists_resolves {store : EnvironmentStore} (h : store.Reachable)
    (hvalues : store.HasEncodableValues) : ∃ f, store.Resolves f := by
  obtain ⟨table, hbindings, htexts⟩ := h.exists_bindings_forall hvalues
  choose f hf using fun s =>
    exists_resolve_eq hbindings (fun b hb => (htexts b hb).imp fun _ => And.left) s
  refine ⟨f, fun s => (hf s).1, fun s hs => ?_⟩
  rw [(hf s).2.unique (isSubstitution_pieces table s)]
  exact hasNoHalves_replacement htexts hs

/-- A dictionary of dictionaries of texts, or nothing that counts. -/
def HoldsTables (v : Value) : Prop :=
  v.isTrue = true → ∃ tables, v = .map tables ∧
    ∀ e ∈ tables, ∃ table, e.2 = .map table ∧ ∀ b ∈ table, ∃ s : Text, b.2 = .str s

/-- What the document of environments is to be. Anything but an object is refused anyway. -/
structure Fits (data : Value) : Prop where
  document : ∃ depth, IsDocument depth data
  environments : ∀ entries, data = .map entries → HoldsTables (fieldOr "environments" entries .null)
  active : ∀ entries, data = .map entries → (fieldOr "active" entries .null).isTrue = true →
    (fieldOr "active" entries .null).isKey = true

/-- A failure that tells why there are no environments. -/
def IsRefusal (failure : Failure) : Prop := ∃ reason, failure = .environment reason

/-- A store is made of dictionaries of texts. -/
theorem yields_make {n : Nat} {given : Value} (hgiven : IsDocument n given)
    (h : HoldsTables given) : Yields HasEncodableValues IsRefusal (make given .null) := by
  have htables : Yields (fun tables => ∀ e ∈ tables, ∀ b ∈ e.2, b.2.IsEncodableText) IsRefusal
      (tablesOfValue given) := by
    unfold tablesOfValue Value.orElse
    cases htrue : given.isTrue with
    | false => exact List.forall_mem_nil _
    | true =>
      obtain ⟨entries, rfl, hentries⟩ := h htrue
      obtain ⟨m, -, hdocuments⟩ := hgiven.of_map
      refine Yields.mapM fun e he => ?_
      obtain ⟨table, htable, htexts⟩ := hentries e he
      have hdocument := (hdocuments e he).2
      rw [htable] at hdocument
      obtain ⟨k, -, hvalues⟩ := hdocument.of_map
      dsimp only
      rw [htable]
      exact fun b hb => (hvalues b hb).2.isEncodableText (htexts b hb)
  exact htables.bind fun tables hvalues => hvalues

theorem yields_activate {store : EnvironmentStore} (h : store.HasEncodableValues) {name : Value}
    (hname : name.isKey = true) : Yields HasEncodableValues IsRefusal (store.activate name) := by
  have htable : Yields (fun _ => True) IsRefusal (store.table name) := by
    unfold table Value.asKey
    rw [if_pos hname, ok_bind]
    cases Assoc.get? name store.environments with
    | none => exact ⟨_, rfl⟩
    | some bindings => trivial
  unfold activate
  split
  · exact h
  · exact htable.bind fun _ _ => h

theorem Fits.yields_ofDocument {data : Value} (h : Fits data) (path : Path) :
    Yields HasEncodableValues IsRefusal (ofDocument data path) := by
  obtain ⟨depth, hdata⟩ := h.document
  cases data with
  | map entries =>
    obtain ⟨m, rfl, -⟩ := hdata.of_map
    refine (yields_make (hdata.fieldOr "environments" .null) (h.environments entries rfl)).bind
      fun store hvalues => ?_
    dsimp only
    split
    · rename_i hactive
      exact yields_activate hvalues (h.active entries rfl hactive)
    · exact hvalues
  | _ => exact ⟨_, rfl⟩

/-- Loading a store from a file that offers one gives a store with texts for values, or tells why
not. Where there is no file, the store is empty. -/
theorem yields_load {files : Files} {path : Path} (h : files.Offers Fits path) :
    Yields HasEncodableValues IsRefusal (load files path) := by
  obtain ⟨there, hthere, hgiven⟩ := h.exists_pathExists
  rw [load, hthere, ok_bind]
  cases there with
  | false => exact List.forall_mem_nil _
  | true =>
    refine Yields.bind ((h.yields_readDocument (hgiven rfl) _).imp (fun _ h => h) ?_)
      fun data hdata => Fits.yields_ofDocument hdata path
    rintro _ (⟨fault, rfl⟩ | ⟨fault, rfl⟩)
    · exact ⟨_, rfl⟩
    · exact ⟨_, rfl⟩

end EnvironmentStore

end HttpWorkbench
