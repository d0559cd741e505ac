import HttpWorkbench.Proofs.Json.Data
import HttpWorkbench.Proofs.Json.RoundTrip
import HttpWorkbench.Proofs.Value.Encodable

/-!
# Documents on one line

A value that a text is read as is written on one line, however deep it nests: characters that are not
plain are spelled out, half characters as well, so that nothing in it stops writing.
-/

namespace HttpWorkbench.Json

namespace Output

variable {a b : Output}

theorem fault_append (ha : a.fault = none) (hb : b.fault = none) : (a ++ b).fault = none := by
  change (append a b).fault = none
  rw [append, ha]
  exact hb

theorem fault_piece {s : Text} (h : s.HasNoHalves) : (piece s).fault = none := by
  rw [piece, Text.Utf8.encodingFault?_eq_none_iff.mpr h]

end Output

open Output (fault_append fault_piece)

theorem hasNoHalves_unitEscapes (n : Nat) : (unitEscapes n).HasNoHalves := by
  have hunit (n : Nat) : (unitEscape n).HasNoHalves :=
    .cons rfl (.cons rfl (Text.hasNoHalves_hexDigits _ _))
  unfold unitEscapes
  split
  · exact hunit n
  · exact (hunit _).append (hunit _)

/-- Half a character is not plain. -/
theorem value_of_isHalf {c : CodePoint} (h : c.isHalf = true) : 0x7E < c.value := by
  cases c with
  | char c => cases h
  | half offset =>
    change 0x7E < 0xD800 + offset.val
    omega

/-- Where characters that are not plain are spelled out, none of them is half of one. -/
theorem hasNoHalves_escapeChar (c : CodePoint) : (escapeChar true c).HasNoHalves := by
  unfold escapeChar
  repeat' split
  all_goals first
    | exact hasNoHalves_unitEscapes _
    | exact .cons rfl (.cons rfl (Text.hasNoHalves_hexDigits _ _))
    | exact .cons rfl (.cons rfl .nil)
    | skip
  rename_i hplain
  refine .cons ?_ .nil
  rw [Bool.eq_false_iff]
  exact fun hhalf => hplain ⟨rfl, value_of_isHalf hhalf⟩

theorem hasNoHalves_writeString (s : Text) : (writeString true s).HasNoHalves := by
  refine .cons rfl (.append (fun c hc => ?_) (.cons rfl .nil))
  obtain ⟨d, -, hc⟩ := List.mem_flatMap.mp hc
  exact hasNoHalves_escapeChar d c hc

/-- A value that holds no others is one piece on a line. -/
theorem hasNoHalves_scalarText {v : Value} {text : Text} (h : scalarText? true v = some text) :
    text.HasNoHalves := by
  cases v with
  | null => exact Option.some.inj h ▸ .ofString "null"
  | bool b => cases b <;> exact Option.some.inj h ▸ .ofString _
  | int n => exact Option.some.inj h ▸ hasNoHalves_intText n
  | float x => exact Option.some.inj h ▸ (isClean_floatText x).hasNoHalves
  | str s => exact Option.some.inj h ▸ hasNoHalves_writeString s
  | _ => cases h

theorem hasNoHalves_line (level : Nat) :
    (Layout.line.newline level).HasNoHalves ∧ (Layout.line.comma level).HasNoHalves :=
  ⟨.ofString "", .ofString ", "⟩

section Parts

variable {level : Nat}

/-- Behind whatever text, the value is written on a line. -/
def IsUnstopped (level : Nat) (v : Value) : Prop :=
  ∀ lead : Text, lead.HasNoHalves → (writeValue .line level lead v).fault = none

/-- Items are written when each of them is. -/
theorem fault_writeItems {items : List Value} (hitems : ∀ x ∈ items, IsUnstopped level x) :
    (writeItems .line level items).fault = none := by
  induction items with
  | nil => rfl
  | cons x items ih =>
    rw [List.forall_mem_cons] at hitems
    exact fault_append (hitems.1 _ (hasNoHalves_line _).2) (ih hitems.2)

/-- An entry is written when its key is a text and its value is written. -/
theorem fault_writeEntry {e : Value × Value} (hname : ∃ name, e.1 = .str name)
    (hvalue : IsUnstopped level e.2) {separator : Text} (hseparator : separator.HasNoHalves) :
    (writeEntry .line level separator e).fault = none := by
  obtain ⟨key, v⟩ := e
  obtain ⟨name, rfl⟩ := hname
  rw [writeEntry]
  exact fault_append (fault_append (fault_append (fault_piece hseparator)
    (fault_piece (hasNoHalves_writeString name))) (fault_piece (.ofString ": ")))
    (hvalue _ (.ofString ""))

/-- Entries are written when each of them is. -/
theorem fault_writeEntries {entries : List (Value × Value)}
    (hnames : ∀ e ∈ entries, ∃ name, e.1 = .str name)
    (hvalues : ∀ e ∈ entries, IsUnstopped level e.2) :
    (writeEntries .line level entries).fault = none := by
  induction entries with
  | nil => rfl
  | cons e entries ih =>
    rw [List.forall_mem_cons] at hnames hvalues
    exact fault_append (fault_writeEntry hnames.1 hvalues.1 (hasNoHalves_line _).2)
      (ih hnames.2 hvalues.2)

end Parts

/-- Writing a value that a text is read as on one line is not stopped. -/
theorem IsData.isUnstopped {v : Value} (h : IsData v) (level : Nat) : IsUnstopped level v := by
  -- The level is free: parts are written one level further in.
  induction h generalizing level with
  | @scalar v h =>
    intro lead hlead
    obtain ⟨text, htext⟩ := Option.isSome_iff_exists.mp h
    have hpiece : (Output.piece (lead ++ text)).fault = none :=
      fault_piece (hlead.append (hasNoHalves_scalarText htext))
    cases v with
    | null | bool | int | float | str =>
      obtain rfl := Option.some.inj htext
      exact hpiece
    | _ => cases h
  | @list items _ ih =>
    intro lead hlead
    cases items with
    | nil => exact fault_append (fault_piece hlead) (fault_piece (.ofString "[]"))
    | cons x items =>
      have hparts := fun y hy => ih y hy (level + 1)
      rw [List.forall_mem_cons] at hparts
      rw [writeValue]
      exact fault_append (fault_append (fault_append (fault_piece hlead)
        (hparts.1 _ (.ofString "["))) (fault_writeItems hparts.2)) (fault_piece (.ofString "]"))
  | @map entries _ hnames _ ih =>
    intro lead hlead
    cases entries with
    | nil => exact fault_append (fault_piece hlead) (fault_piece (.ofString "\x7b\x7d"))
    | cons e entries =>
      have hparts := fun d hd => ih d hd (level + 1)
      rw [List.forall_mem_cons] at hparts hnames
      rw [writeValue]
      exact fault_append (fault_append (fault_append (fault_append (fault_piece hlead)
        (fault_piece (.ofString "\x7b"))) (fault_writeEntry hnames.1 hparts.1 (.ofString "")))
        (fault_writeEntries hnames.2 hparts.2)) (fault_piece (.ofString "\x7d"))

/-- A value that a text is read as is written on one line. -/
theorem IsData.exists_lineText {v : Value} (h : IsData v) : ∃ text, lineText v = .ok text := by
  have hfault : (write .line v).fault = none := h.isUnstopped 0 _ (.ofString "")
  refine ⟨(write .line v).text, ?_⟩
  rw [lineText]
  simp only [hfault]

/-- A value that a document can hold is one that a text is read as. -/
theorem IsDocument.isData {depth : Nat} {v : Value} (h : IsDocument depth v) : IsData v := by
  induction h with
  | null | bool | int | float | str => exact .scalar rfl
  | list _ ih => exact .list ih
  | @map depth fields hdistinct _ _ ih =>
    refine .map (Assoc.hasDistinctKeys_named.mpr hdistinct) ?_ ?_
    · exact List.forall_mem_map.mpr fun f _ => ⟨f.1, rfl⟩
    · exact List.forall_mem_map.mpr ih

end HttpWorkbench.Json
