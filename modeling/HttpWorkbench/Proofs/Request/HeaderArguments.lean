import HttpWorkbench.Proofs.Json.DistinctKeys
import HttpWorkbench.Proofs.Result
import HttpWorkbench.Proofs.Text.Trimmed
import HttpWorkbench.Request.HeaderArgument
import Mathlib.Data.List.Induction

/-!
# Headers that are written as arguments

A header is written as its key, a colon and its value, with blanks around either. Reading the rows of
such texts gives the dictionary of the headers: the first colon ends the key, and nothing but the blanks
around key and value is lost.
-/

namespace HttpWorkbench

namespace Assoc

/-- A table has each key of a row of pairs once, in the order in which they first come up, with the
value that it has last. -/
structure IsDictionaryOf {κ ν : Type} [BEq κ] (pairs table : List (κ × ν)) : Prop where
  keys : table.map Prod.fst = (pairs.map Prod.fst).eraseDups
  once : (table.map Prod.fst).Nodup
  last : ∀ before k v after, pairs = before ++ (k, v) :: after → k ∉ after.map Prod.fst →
    (k, v) ∈ table

section

variable {κ ν : Type} [BEq κ]

theorem putAll_append (entries pairs others : List (κ × ν)) :
    putAll entries (pairs ++ others) = putAll (putAll entries pairs) others :=
  List.foldl_append

variable [LawfulBEq κ]

theorem contains_iff_mem {k : κ} {entries : List (κ × ν)} :
    contains k entries = true ↔ k ∈ entries.map Prod.fst := by
  rw [contains, List.any_eq_true, List.mem_map]
  simp only [beq_iff_eq]

theorem eraseDups_append_singleton (keys : List κ) (k : κ) [Decidable (k ∈ keys)] :
    (keys ++ [k]).eraseDups = if k ∈ keys then keys.eraseDups else keys.eraseDups ++ [k] := by
  rw [List.eraseDups_append]
  by_cases h : k ∈ keys
  · simp [List.removeAll, h]
  · simp [List.removeAll, h, List.eraseDups_cons]

/-- Pairs with other keys leave the value at a key. -/
theorem get?_putAll_of_notMem {k : κ} {entries pairs : List (κ × ν)}
    (h : k ∉ pairs.map Prod.fst) : get? k (putAll entries pairs) = get? k entries := by
  induction pairs generalizing entries with
  | nil => rfl
  | cons p pairs ih =>
    rw [List.map_cons, List.mem_cons, not_or] at h
    exact (ih h.2).trans (get?_put_of_ne (Ne.symm h.1) p.2 entries)

/-- The keys of a dictionary are those of its pairs, each where it first came up. -/
theorem keys_ofList (pairs : List (κ × ν)) :
    (ofList pairs).map Prod.fst = (pairs.map Prod.fst).eraseDups := by
  induction pairs using List.reverseRecOn with
  | nil => rfl
  | append_singleton pairs p ih =>
    have hput : ofList (pairs ++ [p]) = put p.1 p.2 (ofList pairs) := putAll_append [] pairs [p]
    have hcontains : contains p.1 (ofList pairs) = true ↔ p.1 ∈ pairs.map Prod.fst := by
      rw [contains_iff_mem, ih, List.mem_eraseDups]
    rw [hput, keys_put, ih, List.map_append, List.map_singleton]
    by_cases hp : p.1 ∈ pairs.map Prod.fst
    · rw [if_pos (hcontains.mpr hp), eraseDups_append_singleton, if_pos hp]
    · rw [if_neg (mt hcontains.mp hp), eraseDups_append_singleton, if_neg hp]

theorem isDictionaryOf_ofList (pairs : List (κ × ν)) : IsDictionaryOf pairs (ofList pairs) where
  keys := keys_ofList pairs
  once := by
    have hnone : (([] : List (κ × ν)).map Prod.fst).Nodup := List.nodup_nil
    exact nodup_putAll hnone pairs
  last before k v after hpairs hafter := by
    have hput : ofList pairs = putAll (put k v (ofList before)) after := by
      rw [hpairs]
      exact putAll_append [] before ((k, v) :: after)
    have hget : get? k (ofList pairs) = some v := by
      rw [hput, get?_putAll_of_notMem hafter, get?_put_self]
    obtain ⟨e, he, rfl, rfl⟩ := exists_mem_entry_of_get? hget
    exact he

end

end Assoc

namespace Text

/-- The first mark ends what has none. -/
theorem cutAt_append {mark : CodePoint} {s : Text} (hs : mark ∉ s) (rest : Text) :
    cutAt mark (s ++ mark :: rest) = (s, rest) := by
  have hpassed : ∀ c ∈ s, decide (c ≠ mark) = true := by
    intro c hc
    rw [decide_eq_true_eq]
    rintro rfl
    exact hs hc
  rw [cutAt, List.takeWhile_append_of_pos hpassed, List.dropWhile_append_of_pos hpassed]
  simp

end Text

namespace HeaderArgument

open Assoc (IsDictionaryOf)
open Text (isAllBlank)

/-- The key has no colon, and neither key nor value begins or ends with a blank. -/
structure IsClear (pair : Text × Text) : Prop where
  key : .char ':' ∉ pair.1
  keyTrimmed : pair.1.IsTrimmed
  valueTrimmed : pair.2.IsTrimmed

/-- The argument for a header. -/
def line (pair : Text × Text) : Text := pair.1 ++ ": " ++ pair.2

/-- The argument has the key, a colon and the value, and blanks around them. -/
def Spells (pair : Text × Text) (argument : Text) : Prop :=
  ∃ beforeKey afterKey beforeValue afterValue : Text,
    isAllBlank beforeKey = true ∧ isAllBlank afterKey = true ∧
    isAllBlank beforeValue = true ∧ isAllBlank afterValue = true ∧
    argument = beforeKey ++ pair.1 ++ afterKey ++ ":" ++ beforeValue ++ pair.2 ++ afterValue

section Reading

variable {pair : Text × Text} {argument : Text} {pairs : List (Text × Text)} {arguments : List Text}

theorem spells_line (pair : Text × Text) : Spells pair (line pair) := by
  have hseparator : (": " : Text) = ":" ++ " " := rfl
  refine ⟨[], [], " ", [], rfl, rfl, by decide, rfl, ?_⟩
  simp [line, hseparator]

theorem colon_notMem_of_isAllBlank {s : Text} (h : isAllBlank s = true) : .char ':' ∉ s := by
  intro hmem
  have hblank := List.all_eq_true.mp h _ hmem
  exact absurd hblank (by decide)

theorem split_of_spells (hpair : IsClear pair) (h : Spells pair argument) : split argument = pair := by
  obtain ⟨beforeKey, afterKey, beforeValue, afterValue, hleft, hmiddle, hnext, hright, rfl⟩ := h
  have hcolon : .char ':' ∉ beforeKey ++ pair.1 ++ afterKey := by
    simp only [List.mem_append, not_or]
    exact ⟨⟨colon_notMem_of_isAllBlank hleft, hpair.key⟩, colon_notMem_of_isAllBlank hmiddle⟩
  have hmark : (":" : Text) = [.char ':'] := rfl
  have hcut : Text.cutAt ':' (beforeKey ++ pair.1 ++ afterKey ++ ":" ++ beforeValue ++ pair.2 ++
      afterValue) = (beforeKey ++ pair.1 ++ afterKey, beforeValue ++ pair.2 ++ afterValue) := by
    simpa [hmark] using Text.cutAt_append hcolon (beforeValue ++ pair.2 ++ afterValue)
  rw [split, hcut]
  exact Prod.ext (Text.trim_append hleft hpair.keyTrimmed hmiddle)
    (Text.trim_append hnext hpair.valueTrimmed hright)

theorem map_split_of_spells (hpairs : ∀ pair ∈ pairs, IsClear pair)
    (h : List.Forall₂ Spells pairs arguments) : arguments.map split = pairs := by
  induction h with
  | nil => rfl
  | cons hspells _ ih =>
    rw [List.forall_mem_cons] at hpairs
    rw [List.map_cons, split_of_spells hpairs.1 hspells, ih hpairs.2]

/-- Texts are read as arguments. -/
theorem tableOfValue_ofTexts (arguments : List Text) :
    tableOfValue (.ofTexts arguments) = .ok (table arguments) := by
  have hitems : (Value.ofTexts arguments).items = .ok (arguments.map Value.str) := rfl
  have htexts : (arguments.map Value.str).mapM ofValue = .ok arguments :=
    mapM_map_eq_ok (f := ofValue) (g := Value.str) (fun _ => rfl) arguments
  rw [tableOfValue, hitems, ok_bind, htexts, ok_bind]

end Reading

/-- Headers of which no key has a colon, and no key or value begins or ends with a blank, are read from
their arguments, with any blanks around keys, colons and values: each key is there once, where it came
up first, with its last value. -/
theorem table_of_arguments {pairs : List (Text × Text)} (hpairs : ∀ pair ∈ pairs, IsClear pair) :
    ∃ table, IsDictionaryOf pairs table ∧
      tableOfValue (.ofTexts (pairs.map line)) = .ok table ∧
      ∀ arguments, List.Forall₂ Spells pairs arguments →
        tableOfValue (.ofTexts arguments) = .ok table := by
  have hread : ∀ arguments, List.Forall₂ Spells pairs arguments →
      tableOfValue (.ofTexts arguments) = .ok (Assoc.ofList pairs) := by
    intro arguments hspells
    rw [tableOfValue_ofTexts, table, map_split_of_spells hpairs hspells]
  refine ⟨Assoc.ofList pairs, Assoc.isDictionaryOf_ofList pairs, hread _ ?_, hread⟩
  rw [List.forall₂_map_right_iff, List.forall₂_same]
  exact fun pair _ => spells_line pair

/-- Headers of which two have the same key, and one has none. -/
def repeatedHeaders : List (Text × Text) :=
  [("Host", "a"), ("", ""), ("X-Id", "1"), ("Host", "b: \"c d\"")]

/-- A key that comes up again keeps its place and gets the later value, which may have colons and
quotes; key and value may be empty. -/
theorem table_of_arguments_repeated :
    ∃ table, tableOfValue (.ofTexts ["Host: a", ": ", "X-Id: 1", " Host\t:  b: \"c d\"\n"]) =
        .ok table ∧
      table.map Prod.fst = ["Host", "", "X-Id"] ∧ (("Host", "b: \"c d\"") : Text × Text) ∈ table := by
  have hclear : ∀ pair ∈ repeatedHeaders, IsClear pair := by
    simp only [repeatedHeaders, List.forall_mem_cons]
    exact ⟨⟨by decide, by decide, by decide⟩, ⟨by decide, by decide, by decide⟩,
      ⟨by decide, by decide, by decide⟩, ⟨by decide, by decide, by decide⟩, List.forall_mem_nil _⟩
  obtain ⟨table, hdictionary, -, hread⟩ := table_of_arguments hclear
  have hlast := hdictionary.last [("Host", "a"), ("", ""), ("X-Id", "1")] "Host" "b: \"c d\"" [] rfl
  refine ⟨table, hread _ (.cons (spells_line _) (.cons (spells_line _) (.cons (spells_line _)
    (.cons ⟨" ", "\t", "  ", "\n", by decide, by decide, by decide, by decide, rfl⟩ .nil)))),
    hdictionary.keys.trans (by decide), hlast List.not_mem_nil⟩

end HeaderArgument

end HttpWorkbench
