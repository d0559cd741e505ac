import HttpWorkbench.Proofs.Value.Encodable

/-!
# Documents that break off

Writing stops at the first part of a value that no document can hold: a value of another kind, a key
that is no name, or a text with half a character. What was written until then is the beginning of a
document, the one of the value with null in place of all such parts.
-/

namespace HttpWorkbench

namespace Value

/-- The key, or an empty name in place of a key that no document can have. -/
def mendedKey (k : Value) : Value :=
  match Json.keyName? k with
  | some name => if (Text.Utf8.encodingFault? name).isNone then k else .str ""
  | none => .str ""

mutual

/-- The value with null in place of every part that no document can hold. -/
def mended : Value → Value
  | .str s => if (Text.Utf8.encodingFault? s).isNone then .str s else .null
  | .list xs => .list (mendedItems xs)
  | .map es => .map (mendedEntries es)
  | .bytes _ => .null
  | .language _ => .null
  | .header _ _ => .null
  | v => v
termination_by structural v => v

/-- The items of a list with null in place of such parts. -/
def mendedItems : List Value → List Value
  | [] => []
  | x :: xs => x.mended :: mendedItems xs
termination_by structural xs => xs

/-- The entries of a map with null in place of such parts. -/
def mendedEntries : List (Value × Value) → List (Value × Value)
  | [] => []
  | (k, v) :: es => (mendedKey k, v.mended) :: mendedEntries es
termination_by structural es => es

end

end Value

theorem Text.isNone_encodingFault?_iff {s : Text} :
    (Text.Utf8.encodingFault? s).isNone = true ↔ s.HasNoHalves :=
  Option.isNone_iff_eq_none.trans Text.Utf8.encodingFault?_eq_none_iff

namespace Json

/-! ## Broken off -/

namespace Output

/-- The output is all of another one, or was stopped within it. -/
structure IsPartOf (part whole : Output) : Prop where
  unstopped : whole.fault = none
  all_or_within : part = whole ∨ part.fault ≠ none ∧ ∃ c rest, whole.text = part.text ++ c :: rest

theorem append_of_unstopped {a : Output} (h : a.fault = none) (b : Output) :
    a ++ b = ⟨a.text ++ b.text, b.fault⟩ := by
  change append a b = _
  rw [append, h]

theorem append_of_stopped {a : Output} (h : a.fault ≠ none) (b : Output) : a ++ b = a := by
  obtain ⟨fault, hfault⟩ := Option.ne_none_iff_exists'.mp h
  change append a b = a
  rw [append, hfault]

theorem isPartOf_self {a : Output} (h : a.fault = none) : a.IsPartOf a := ⟨h, .inl rfl⟩

/-- What was stopped before anything was written is part of anything. -/
theorem isPartOf_of_nothing {part whole : Output} (hpart : part.fault ≠ none) (htext : part.text = [])
    (hwhole : whole.fault = none) (hne : whole.text ≠ []) : part.IsPartOf whole := by
  obtain ⟨c, rest, hcons⟩ := List.exists_cons_of_ne_nil hne
  refine ⟨hwhole, .inr ⟨hpart, c, rest, ?_⟩⟩
  rw [htext, hcons, List.nil_append]

/-- Parts one after the other are part of the wholes one after the other: only the last one that is
written can be broken off. -/
theorem IsPartOf.append {a b whole other : Output} (ha : a.IsPartOf whole) (hb : b.IsPartOf other) :
    (a ++ b).IsPartOf (whole ++ other) := by
  have hwhole := append_of_unstopped ha.unstopped other
  refine ⟨by rw [hwhole]; exact hb.unstopped, ?_⟩
  rcases ha.all_or_within with rfl | ⟨hstopped, c, rest, htext⟩
  · rcases hb.all_or_within with rfl | ⟨hstopped, c, rest, htext⟩
    · exact .inl rfl
    · refine .inr ?_
      rw [append_of_unstopped ha.unstopped, hwhole]
      exact ⟨hstopped, c, rest, by simp only [htext, List.append_assoc]⟩
  · refine .inr ?_
    rw [append_of_stopped hstopped, hwhole]
    exact ⟨hstopped, c, rest ++ other.text, by simp only [htext, List.append_assoc, List.cons_append]⟩

/-- A clean piece is written. -/
theorem isPartOf_piece {s : Text} (h : IsClean s) : (piece s).IsPartOf (piece s) :=
  isPartOf_self (by rw [h.piece])

/-- A piece with half a character is not written, and so is part of any piece. -/
theorem isPartOf_piece_of_half {s t : Text} (hs : ¬s.HasNoHalves) (ht : IsClean t) (hne : t ≠ []) :
    (piece s).IsPartOf (piece t) := by
  cases hfault : Text.Utf8.encodingFault? s with
  | none => exact absurd (Text.Utf8.encodingFault?_eq_none_iff.mp hfault) hs
  | some fault =>
    -- A piece is encoded as a whole, so nothing of it is written.
    have hpiece : piece s = ⟨"", some (.unencodable fault)⟩ := by rw [piece, hfault]
    rw [hpiece, ht.piece]
    exact isPartOf_of_nothing (by simp) rfl rfl hne

end Output

/-! ## Documents of mended values -/

/-- Half a character in a file stands for itself. -/
theorem escapeChar_of_isHalf {c : CodePoint} (h : c.isHalf = true) : escapeChar false c = [c] := by
  cases c with
  | char => cases h
  | half offset =>
    have hlarge : ¬(CodePoint.half offset).value < 0x20 := by
      rw [CodePoint.value]
      omega
    simp [escapeChar, hlarge]

/-- A string in a file has half a character if its text has. -/
theorem not_hasNoHalves_writeString {s : Text} (h : ¬s.HasNoHalves) :
    ¬(writeString false s).HasNoHalves := by
  obtain ⟨c, hc, hhalf⟩ : ∃ c ∈ s, c.isHalf = true := by simpa [Text.HasNoHalves] using h
  intro hwritten
  have hmem : c ∈ writeString false s := by
    rw [writeString]
    refine List.mem_append_left _ (List.mem_cons_of_mem _ (List.mem_flatMap.mpr ⟨c, hc, ?_⟩))
    rw [escapeChar_of_isHalf hhalf]
    exact List.mem_singleton_self c
  rw [hwritten c hmem] at hhalf
  cases hhalf

theorem isClean_writeString {s : Text} (h : s.HasNoHalves) : IsClean (writeString false s) := by
  obtain ⟨_, -, hclean, -⟩ := exists_writeString h
  exact hclean

/-- A name under which something is written can be written, or an empty one in its place. -/
theorem exists_keyName?_mendedKey {k : Value} {name : Text} (h : keyName? k = some name) :
    ∃ name', keyName? k.mendedKey = some name' ∧
      (Output.piece (writeString false name)).IsPartOf (.piece (writeString false name')) := by
  unfold Value.mendedKey
  simp only [h]
  split
  · rename_i hname
    have hclean := isClean_writeString (Text.isNone_encodingFault?_iff.mp hname)
    exact ⟨name, h, Output.isPartOf_piece hclean⟩
  · rename_i hname
    rw [Text.isNone_encodingFault?_iff] at hname
    exact ⟨"", rfl, Output.isPartOf_piece_of_half (not_hasNoHalves_writeString hname) (by decide)
      (by decide)⟩

variable {level : Nat} {lead : Text}

theorem writeValue_null (hlead : IsClean lead) :
    writeValue .file level lead .null = ⟨lead ++ "null", none⟩ :=
  (hlead.append (by decide : IsClean "null")).piece

/-- A value of a kind that no document can hold leaves what leads to it. -/
theorem isPartOf_null_of_stop (hlead : IsClean lead) (cause : Misuse) :
    (Output.piece lead ++ .stop cause).IsPartOf (writeValue .file level lead .null) := by
  rw [writeValue_null hlead, hlead.piece]
  refine ⟨rfl, .inr ⟨?_, 'n', "ull", ?_⟩⟩
  · exact Option.some_ne_none _
  · exact (congrArg (· ++ _) (List.append_nil lead)).symm

/-- A text is written, or is part of null in its place. -/
theorem isPartOf_mended_str (hlead : IsClean lead) (s : Text) :
    (writeValue .file level lead (.str s)).IsPartOf (writeValue .file level lead (Value.str s).mended) := by
  rw [Value.mended]
  split
  · rename_i hs
    exact Output.isPartOf_piece (hlead.append (isClean_writeString (Text.isNone_encodingFault?_iff.mp hs)))
  · rename_i hs
    rw [Text.isNone_encodingFault?_iff] at hs
    have hwritten : ¬(lead ++ writeString false s).HasNoHalves := by
      intro h
      exact not_hasNoHalves_writeString hs fun c hc => h c (List.mem_append_right lead hc)
    exact Output.isPartOf_piece_of_half hwritten (hlead.append (by decide : IsClean "null"))
      (List.append_ne_nil_of_right_ne_nil _ (by decide))

/-- An entry is part of the mended one if its value is. -/
theorem writeEntry_isPartOf {separator : Text} (hseparator : IsClean separator) (k : Value) {v : Value}
    (hvalue : (writeValue .file level "" v).IsPartOf (writeValue .file level "" v.mended)) :
    (writeEntry .file level separator (k, v)).IsPartOf
      (writeEntry .file level separator (k.mendedKey, v.mended)) := by
  have hcolon : IsClean ": " := by decide
  rw [writeEntry, writeEntry]
  cases hname : keyName? k with
  | some name =>
    obtain ⟨name', hname', hpart⟩ := exists_keyName?_mendedKey hname
    simp only [hname']
    exact (((Output.isPartOf_piece hseparator).append hpart).append (Output.isPartOf_piece hcolon)).append
      hvalue
  | none =>
    -- The key is refused before anything of the entry is written, its separator included.
    have hkey : k.mendedKey = .str "" := by simp only [Value.mendedKey, hname]
    have hempty : IsClean (writeString Layout.file.ascii "") := by decide
    have hlead : Output.piece separator ++ .piece (writeString Layout.file.ascii "") ++ .piece ": " =
        ⟨separator ++ writeString Layout.file.ascii "" ++ ": ", none⟩ := by
      rw [hseparator.piece, hempty.piece, hcolon.piece, Output.append_mk, Output.append_mk]
    simp only [hkey, keyName?]
    rw [hlead, Output.append_of_unstopped rfl]
    refine Output.isPartOf_of_nothing (Option.some_ne_none _) rfl hvalue.unstopped ?_
    simp [writeString]

mutual

/-- What is written of a value is what is written of the mended value, or breaks off within it. -/
theorem writeValue_isPartOf (level : Nat) {lead : Text} (hlead : IsClean lead) : (v : Value) →
    (writeValue .file level lead v).IsPartOf (writeValue .file level lead v.mended)
  | .list [] => (Output.isPartOf_piece hlead).append (Output.isPartOf_piece (by decide))
  | .list (x :: xs) => by
    rw [Value.mended, Value.mendedItems, writeValue, writeValue]
    refine (((Output.isPartOf_piece hlead).append ?_).append ?_).append ?_
    · exact writeValue_isPartOf _ (.append (by decide) (isClean_newline _)) x
    · exact writeItems_isPartOf _ xs
    · exact Output.isPartOf_piece ((isClean_newline _).append (by decide))
  | .map [] => (Output.isPartOf_piece hlead).append (Output.isPartOf_piece (by decide))
  | .map ((k, v) :: es) => by
    rw [Value.mended, Value.mendedEntries, writeValue, writeValue]
    refine ((((Output.isPartOf_piece hlead).append ?_).append ?_).append ?_).append ?_
    · exact Output.isPartOf_piece (.append (by decide) (isClean_newline _))
    · exact writeEntry_isPartOf (by decide) k (writeValue_isPartOf _ .nil v)
    · exact writeEntries_isPartOf _ es
    · exact Output.isPartOf_piece ((isClean_newline _).append (by decide))
  | .str s => isPartOf_mended_str hlead s
  | .null => Output.isPartOf_piece (hlead.append (by decide))
  | .bool true => Output.isPartOf_piece (hlead.append (by decide))
  | .bool false => Output.isPartOf_piece (hlead.append (by decide))
  | .int n => Output.isPartOf_piece (hlead.append (isClean_intText n))
  | .float x => Output.isPartOf_piece (hlead.append (isClean_floatText x))
  | .bytes _ | .language _ | .header _ _ => isPartOf_null_of_stop hlead _
termination_by structural v => v

theorem writeItems_isPartOf (level : Nat) : (xs : List Value) →
    (writeItems .file level xs).IsPartOf (writeItems .file level (Value.mendedItems xs))
  | [] => Output.isPartOf_self rfl
  | x :: xs => (writeValue_isPartOf level (isClean_comma level) x).append (writeItems_isPartOf level xs)
termination_by structural xs => xs

theorem writeEntries_isPartOf (level : Nat) : (es : List (Value × Value)) →
    (writeEntries .file level es).IsPartOf (writeEntries .file level (Value.mendedEntries es))
  | [] => Output.isPartOf_self rfl
  | (k, v) :: es =>
    (writeEntry_isPartOf (isClean_comma level) k (writeValue_isPartOf level .nil v)).append
      (writeEntries_isPartOf level es)
termination_by structural es => es

end

end Json

end HttpWorkbench
