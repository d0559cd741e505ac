import HttpWorkbench.Proofs.Environment.Reachable
import HttpWorkbench.Proofs.Environment.Substitution

/-!
# Resolving a text

A store whose variables are texts resolves every text to the simultaneous substitution of its
selected table. The shortcuts for texts without doubled braces and for stores that select nothing
change no result.
-/

namespace HttpWorkbench

namespace Placeholder

/-- What a fragment of a text becomes. -/
def fragmentText (table : VariableTable) : Fragment → Text
  | .gap text => text
  | .placeholder o => (known table o).getD o.whole

/-- Putting neighbouring characters together changes nothing of what becomes of them. -/
theorem flatMap_fragments (table : VariableTable) (ps : List Piece) :
    (fragments ps).flatMap (fragmentText table) = ps.flatMap (replacement table) := by
  induction ps with
  | nil => rfl
  | cons p ps ih =>
    rw [List.flatMap_cons, ← ih]
    cases p with
    | placeholder o => rw [fragments, List.flatMap_cons]; rfl
    | char c =>
      rw [fragments]
      split
      · rename_i text more hmore
        rw [hmore, List.flatMap_cons, List.flatMap_cons]
        rfl
      · rw [List.flatMap_cons]
        rfl

/-- Every placeholder has doubled braces. -/
theorem StandsAt.braces {text : Text} {i : Nat} {o : Occurrence} (ho : StandsAt text i o) :
    ("\x7b\x7b" : Text) <:+: text := by
  obtain ⟨body, hwhole, -, -⟩ := ho.1.exists_body
  have hbraces : ("\x7b\x7b" : Text) <+: o.whole := ⟨body, hwhole.symm⟩
  exact (hbraces.trans ho.2).isInfix.trans (List.drop_suffix i text).isInfix

end Placeholder

namespace EnvironmentStore

open Placeholder

/-- With texts for values, a fragment stands for a text. -/
theorem substitute?_eq {table : VariableTable} (hvalues : ∀ b ∈ table, ∃ value, b.2 = .str value)
    (f : Fragment) : substitute? table f = some (.str (fragmentText table f)) := by
  cases f with
  | gap text => rfl
  | placeholder o =>
    rw [substitute?, fragmentText, known]
    cases hget : Assoc.get? (.str o.name) table with
    | none => rfl
    | some v =>
      obtain ⟨b, hb, rfl⟩ := Assoc.exists_mem_of_get? hget
      obtain ⟨value, hvalue⟩ := hvalues b hb
      rw [hvalue]
      rfl

/-- With texts for values, the fragments are replaced one after the other. -/
theorem substituteText_eq {table : VariableTable}
    (hvalues : ∀ b ∈ table, ∃ value, b.2 = .str value) (text : Text) :
    substituteText table text = .ok ((pieces text).flatMap (replacement table)) := by
  have hfragments : (fragments (pieces text)).filterMap (substitute? table) =
      ((fragments (pieces text)).map (fragmentText table)).map .str := by
    rw [List.map_map, ← List.filterMap_eq_map]
    congr 1
    funext f
    exact substitute?_eq hvalues f
  rw [substituteText, hfragments, Value.joinFrom_map_str, ok_bind, Text.join_empty,
    ← List.flatMap_def, flatMap_fragments]

/-- The shortcuts give what replacing placeholders would give. -/
theorem exists_resolve_eq {store : EnvironmentStore} {table : VariableTable}
    (hbindings : store.bindings .null = .ok table)
    (hvalues : ∀ b ∈ table, ∃ value, b.2 = .str value) (text : Text) :
    ∃ result, store.resolve (.str text) = .ok (.str result) ∧ IsSubstitution table text result := by
  by_cases hbraces : ("\x7b\x7b" : Text) <:+: text
  · have htrue : (Value.str text).isTrue = true := by
      refine Value.isTrue_str ?_
      rintro rfl
      exact absurd (List.infix_nil.mp hbraces) nofun
    refine ⟨_, ?_, isSubstitution_pieces table text⟩
    rw [resolve, htrue, Value.isIn, (Text.occurs_iff_isInfix _ _).mpr hbraces]
    simp [hbindings, substituteText_eq hvalues]
  · refine ⟨text, ?_, isSubstitution_self fun i o value ho => absurd ho.braces hbraces⟩
    have hoccurs : Text.occurs "\x7b\x7b" text = false := by
      rw [Bool.eq_false_iff]
      exact fun h => hbraces ((Text.occurs_iff_isInfix _ _).mp h)
    rw [resolve, Value.isIn, hoccurs]
    simp

/-- In every store that can be reached and whose variables are texts, a text is resolved to the
simultaneous substitution of the selected table: no two placeholders of the text overlap, each one
whose name the table has is replaced by its value as it is, and every other character stays. Without
a selected table, or without doubled braces, that is the text itself. -/
theorem resolve_eq_substitution {store : EnvironmentStore} (hstore : store.Reachable)
    (hvalues : store.HasTextValues) (text : Text) :
    (∀ (i j : Nat) (o p : Occurrence), StandsAt text i o → StandsAt text j p → (i, o) ≠ (j, p) →
      i + o.whole.length ≤ j ∨ j + p.whole.length ≤ i) ∧
    ∃ (table : VariableTable) (result : Text),
      store.bindings .null = .ok table ∧ store.resolve (.str text) = .ok (.str result) ∧
      IsSubstitution table text result ∧
      (∀ other, IsSubstitution table text other → other = result) ∧
      (store.active = none ∨ ¬("\x7b\x7b" : Text) <:+: text → result = text) := by
  refine ⟨fun i j o p ho hp hne => ho.disjoint hp hne, ?_⟩
  obtain ⟨table, hbindings, htexts⟩ := hstore.exists_bindings_forall hvalues
  obtain ⟨result, hresolve, hresult⟩ := exists_resolve_eq hbindings htexts text
  refine ⟨table, result, hbindings, hresolve, hresult, fun other h => h.unique hresult, ?_⟩
  rintro (hnone | hbraces)
  · simp only [bindings, hnone, Except.ok.injEq] at hbindings
    subst hbindings
    exact hresult.unique (isSubstitution_self fun i o value ho => nofun)
  · exact hresult.unique (isSubstitution_self fun i o value ho => absurd ho.braces hbraces)

/-- Of two pairs of braces in a row, the inner one is the placeholder; its value, which looks like a
placeholder, is not looked at again, and an unknown name stays. -/
theorem resolve_eq_substitution_nested :
    ∃ store : EnvironmentStore, store.Reachable ∧ store.HasTextValues ∧
      store.resolve (.str "\x7b\x7b\x7b\x7b A \x7d\x7d\x7d\x7d/\x7b\x7bC\x7d\x7d") =
        .ok (.str "\x7b\x7b\x7b\x7bA\x7d\x7d\x7d\x7d/\x7b\x7bC\x7d\x7d") ∧
      IsSubstitution [(.str "A", .str "\x7b\x7bA\x7d\x7d")]
        "\x7b\x7b\x7b\x7b A \x7d\x7d\x7d\x7d/\x7b\x7bC\x7d\x7d"
        "\x7b\x7b\x7b\x7bA\x7d\x7d\x7d\x7d/\x7b\x7bC\x7d\x7d" := by
  let store : EnvironmentStore :=
    ⟨[(.str "dev", [(.str "A", .str "\x7b\x7bA\x7d\x7d")])], some (.str "dev")⟩
  have hmake : make (.map [(.str "dev", .map [(.str "A", .str "\x7b\x7bA\x7d\x7d")])])
      (.str "dev") = .ok store := rfl
  have hstore : store.Reachable := .make hmake
  have hvalues : store.HasTextValues := by
    intro e he b hb
    obtain rfl := List.mem_singleton.mp he
    obtain rfl := List.mem_singleton.mp hb
    exact ⟨_, rfl⟩
  obtain ⟨-, table, result, hbindings, hresolve, hresult, -, -⟩ :=
    resolve_eq_substitution hstore hvalues
      "\x7b\x7b\x7b\x7b A \x7d\x7d\x7d\x7d/\x7b\x7bC\x7d\x7d"
  refine ⟨store, hstore, hvalues, rfl, ?_⟩
  have htable : [(.str "A", .str "\x7b\x7bA\x7d\x7d")] = table := Except.ok.inj hbindings
  have htext : Value.str "\x7b\x7b\x7b\x7bA\x7d\x7d\x7d\x7d/\x7b\x7bC\x7d\x7d" = .str result :=
    Except.ok.inj hresolve
  rw [htable, Value.str.inj htext]
  exact hresult

end EnvironmentStore

end HttpWorkbench
