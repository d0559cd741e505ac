import HttpWorkbench.Proofs.Json.DistinctKeys
import HttpWorkbench.Proofs.Json.RoundTrip
import HttpWorkbench.Value.Text

/-!
# Texts that stand for values

A value in words spells out every half, and so does a document on one line, while a document in a file
is written only as far as it can be encoded. So none of these texts has a half, whatever the value; only
a text that stands for itself can have one.
-/

namespace HttpWorkbench

namespace Text

/-- The text can be encoded: no code point of it is half a character. -/
def HasNoHalves (s : Text) : Prop := ∀ c ∈ s, c.isHalf = false

instance (s : Text) : Decidable s.HasNoHalves := inferInstanceAs (Decidable (∀ c ∈ s, c.isHalf = false))

namespace HasNoHalves

variable {s t : Text}

theorem nil : HasNoHalves [] := List.forall_mem_nil _

theorem cons {c : CodePoint} (hc : c.isHalf = false) (hs : s.HasNoHalves) : HasNoHalves (c :: s) :=
  List.forall_mem_cons.mpr ⟨hc, hs⟩

theorem append (hs : s.HasNoHalves) (ht : t.HasNoHalves) : (s ++ t).HasNoHalves :=
  List.forall_mem_append.mpr ⟨hs, ht⟩

/-- A part of a text that can be encoded can be encoded. -/
theorem of_subset (hs : s.HasNoHalves) (h : t ⊆ s) : t.HasNoHalves := fun c hc => hs c (h hc)

theorem flatMap {α : Type} {f : α → Text} (h : ∀ a, (f a).HasNoHalves) (items : List α) :
    HasNoHalves (items.flatMap f) := by
  intro c hc
  obtain ⟨a, -, hc⟩ := List.mem_flatMap.mp hc
  exact h a c hc

/-- Strings have no halves. -/
theorem ofChars (cs : List Char) : (ofChars cs).HasNoHalves := by
  intro c hc
  obtain ⟨d, -, rfl⟩ := List.mem_map.mp hc
  rfl

theorem ofString (s : String) : (ofString s).HasNoHalves := ofChars s.toList

theorem replicate {c : CodePoint} (hc : c.isHalf = false) (n : Nat) :
    HasNoHalves (List.replicate n c) := by
  intro d hd
  rw [List.eq_of_mem_replicate hd]
  exact hc

theorem join {separator : Text} (hseparator : separator.HasNoHalves) {texts : List Text}
    (h : ∀ s ∈ texts, s.HasNoHalves) : (join separator texts).HasNoHalves := by
  induction texts with
  | nil => exact ofString ""
  | cons s texts ih =>
    rw [List.forall_mem_cons] at h
    cases texts with
    | nil => exact h.1
    | cons t texts => exact (h.1.append hseparator).append (ih h.2)

end HasNoHalves

theorem hasNoHalves_append {s t : Text} :
    Text.HasNoHalves (s ++ t) ↔ s.HasNoHalves ∧ t.HasNoHalves := List.forall_mem_append

/-! ## Spelled out -/

theorem hasNoHalves_hexDigits (width n : Nat) : (hexDigits width n).HasNoHalves :=
  (HasNoHalves.replicate rfl _).append (.ofChars _)

theorem hasNoHalves_numericEscape (n : Nat) : (numericEscape n).HasNoHalves := by
  rw [numericEscape]
  split_ifs
  all_goals exact .cons rfl (.cons rfl (hasNoHalves_hexDigits _ _))

/-- A character that is quoted shows no half, if halves do not stand for themselves. -/
theorem hasNoHalves_quotedChar {visible : CodePoint → Bool}
    (hvisible : ∀ c, visible c = true → c.isHalf = false) {quote : CodePoint}
    (hquote : quote.isHalf = false) (c : CodePoint) : (quotedChar visible quote c).HasNoHalves := by
  rw [quotedChar]
  split_ifs with h₁ h₂ h₃ h₄ h₅
  · refine .cons rfl (.cons ?_ .nil)
    rcases h₁ with rfl | rfl
    · exact hquote
    · rfl
  · exact .cons rfl (.cons rfl .nil)
  · exact .cons rfl (.cons rfl .nil)
  · exact .cons rfl (.cons rfl .nil)
  · exact .cons (hvisible c h₅) .nil
  · exact hasNoHalves_numericEscape c.value

theorem isHalf_quoteFor (cs : Text) : (quoteFor cs).isHalf = false := by
  rw [quoteFor]
  split <;> rfl

/-- Halves are not printable: they lie in a range that is not. -/
theorem isHalf_of_isPrintable {c : CodePoint} (h : isPrintable c = true) : c.isHalf = false := by
  cases c with
  | char c => rfl
  | half offset =>
    obtain ⟨r, hr, hfirst, hlast⟩ :
        ∃ r ∈ unprintableRanges, r.first ≤ 0xD800 ∧ 0xDFFF ≤ r.last := by decide +kernel
    have hbound := offset.isLt
    have hrange : inRanges unprintableRanges (.half offset) = true := by
      refine List.any_eq_true.mpr ⟨r, hr, ?_⟩
      simp only [Bool.and_eq_true, decide_eq_true_eq]
      simp only [CodePoint.value]
      omega
    rw [isPrintable, hrange] at h
    cases h

/-- A quoted text has no halves, even if the text has. -/
theorem hasNoHalves_quoted (cs : Text) : (quoted cs).HasNoHalves := by
  have hvisible (c : CodePoint) (h : isPrintable c = true) : c.isHalf = false :=
    isHalf_of_isPrintable h
  have hquote := isHalf_quoteFor cs
  exact .append (.cons hquote (.flatMap (hasNoHalves_quotedChar hvisible hquote) cs)) (.cons hquote .nil)

theorem hasNoHalves_quotedBytes (bytes : List UInt8) : (quotedBytes bytes).HasNoHalves := by
  have hvisible (c : CodePoint) (h : isVisibleByte c = true) : c.isHalf = false := by
    cases c with
    | char c => rfl
    | half offset =>
      rw [isVisibleByte, Bool.and_eq_true, decide_eq_true_eq, decide_eq_true_eq] at h
      have hhigh := h.2
      simp only [CodePoint.value] at hhigh
      omega
  have hquote := isHalf_quoteFor (bytes.map fun b => CodePoint.ofValue b.toNat)
  exact .append (.cons rfl (.cons hquote (.flatMap (hasNoHalves_quotedChar hvisible hquote) _)))
    (.cons hquote .nil)

end Text

theorem Json.IsClean.hasNoHalves {s : Text} (h : Json.IsClean s) : s.HasNoHalves :=
  fun c hc => (h c hc).1

/-! ## Numbers -/

theorem hasNoHalves_intText (n : Int) : (intText n).HasNoHalves := (Json.isClean_intText n).hasNoHalves

/-- A number in a message is written as in a document, unless it is none or infinite. -/
theorem Binary64.hasNoHalves_text (x : Binary64) : x.text.HasNoHalves := by
  cases x with
  | nan kind => exact .ofString "nan"
  | infinite negative =>
    cases negative with
    | false => exact .ofString "inf"
    | true => exact .cons rfl (.ofString "inf")
  | finite negative m e h => exact (Json.isClean_floatText (.finite negative m e h)).hasNoHalves

theorem hasNoHalves_natText (n : Nat) : (natText n).HasNoHalves := .ofChars _

theorem hasNoHalves_exponentText (e : Int) : (exponentText e).HasNoHalves := by
  refine .cons rfl (.cons ?_ (.append (.replicate rfl _) (hasNoHalves_natText _)))
  split <;> rfl

theorem hasNoHalves_positional (style : NumberStyle) {digits : Text} (h : digits.HasNoHalves)
    (point : Int) : (positional style digits point).HasNoHalves := by
  unfold positional
  split
  · exact .cons rfl (.cons rfl (.append (.replicate rfl _) h))
  · dsimp only
    split
    · refine .append (.append h (.replicate rfl _)) ?_
      split
      · exact .cons rfl (.cons rfl .nil)
      · exact .nil
    · exact .append (h.of_subset (List.take_subset _ _)) (.cons rfl (h.of_subset (List.drop_subset _ _)))

theorem hasNoHalves_scientific {digits : Text} (h : digits.HasNoHalves) (point : Int) :
    (scientific digits point).HasNoHalves := by
  refine .append ?_ (hasNoHalves_exponentText _)
  cases digits with
  | nil => exact .nil
  | cons d rest =>
    have hparts := List.forall_mem_cons.mp h
    cases rest with
    | nil => exact h
    | cons d' rest => exact .cons hparts.1 (.cons rfl hparts.2)

theorem Decimal.hasNoHalves_text (style : NumberStyle) (d : Decimal) :
    (d.text style).HasNoHalves := by
  unfold Decimal.text
  split
  · exact hasNoHalves_positional style (.ofChars _) _
  · exact hasNoHalves_scientific (.ofChars _) _

/-- A number with few digits has no halves. -/
theorem Binary64.hasNoHalves_generalText (x : Binary64) : x.generalText.HasNoHalves := by
  have hsigned (negative : Bool) {magnitude : Text} (h : magnitude.HasNoHalves) :
      (withSign negative magnitude).HasNoHalves := by
    cases negative with
    | false => exact h
    | true => exact .cons rfl h
  cases x with
  | nan mark => exact .ofString "nan"
  | infinite negative =>
    cases negative with
    | false => exact .ofString "inf"
    | true => exact .ofString "-inf"
  | finite negative m e h =>
    refine hsigned negative ?_
    split
    · exact .cons rfl .nil
    · exact Decimal.hasNoHalves_text _ _

/-! ## Values in words -/

namespace Value

open Text

mutual

/-- A value inside another one has no halves. -/
theorem hasNoHalves_quoted : (v : Value) → v.quoted.HasNoHalves
  | .null => .ofString "None"
  | .bool true => .ofString "True"
  | .bool false => .ofString "False"
  | .int n => hasNoHalves_intText n
  | .float x => x.hasNoHalves_text
  | .str s => Text.hasNoHalves_quoted s
  | .bytes b => hasNoHalves_quotedBytes b
  | .list xs =>
    ((HasNoHalves.ofString "[").append (.join (.ofString ", ") (hasNoHalves_quotedItems xs))).append
      (.ofString "]")
  | .map es =>
    ((HasNoHalves.ofString "\x7b").append
      (.join (.ofString ", ") (hasNoHalves_quotedEntries es))).append (.ofString "\x7d")
  | .language l => by
    rw [quoted]
    exact ((((HasNoHalves.ofString "<TargetLanguage.").append (.ofString _)).append (.ofString _)).append
      (Text.hasNoHalves_quoted _)).append (.ofString _)
  | .header k v => by
    rw [quoted]
    exact ((((HasNoHalves.ofString "Header(key=").append (hasNoHalves_quoted k)).append
      (.ofString _)).append (hasNoHalves_quoted v)).append (.ofString _)
termination_by structural v => v

theorem hasNoHalves_quotedItems : (xs : List Value) → ∀ s ∈ quotedItems xs, s.HasNoHalves
  | [] => List.forall_mem_nil _
  | x :: xs => List.forall_mem_cons.mpr ⟨hasNoHalves_quoted x, hasNoHalves_quotedItems xs⟩
termination_by structural xs => xs

theorem hasNoHalves_quotedEntries :
    (es : List (Value × Value)) → ∀ s ∈ quotedEntries es, s.HasNoHalves
  | [] => List.forall_mem_nil _
  | (k, v) :: es => List.forall_mem_cons.mpr
      ⟨((hasNoHalves_quoted k).append (.ofString ": ")).append (hasNoHalves_quoted v),
        hasNoHalves_quotedEntries es⟩
termination_by structural es => es

end

end Value

/-! ## Documents -/

namespace Json

/-- A piece is written if it has no halves, and then it is what is written. -/
theorem Output.hasNoHalves_piece (s : Text) : (Output.piece s).text.HasNoHalves := by
  rw [Output.piece]
  split
  · rename_i hnone
    exact Text.Utf8.encodingFault?_eq_none_iff.mp hnone
  · exact .ofString ""

theorem Output.hasNoHalves_append {a b : Output} (ha : a.text.HasNoHalves) (hb : b.text.HasNoHalves) :
    (a ++ b).text.HasNoHalves := by
  change (Output.append a b).text.HasNoHalves
  rw [Output.append]
  split
  · exact ha
  · exact ha.append hb

theorem Output.hasNoHalves_stop (cause : Misuse) : (Output.stop cause).text.HasNoHalves :=
  .ofString ""

mutual

/-- What is written of a value has no halves, whatever the value and wherever writing stops. -/
theorem hasNoHalves_writeValue (layout : Layout) (level : Nat) (lead : Text) : (v : Value) →
    (writeValue layout level lead v).text.HasNoHalves
  | .list [] => by
    rw [writeValue]
    exact Output.hasNoHalves_append (Output.hasNoHalves_piece _) (Output.hasNoHalves_piece _)
  | .list (x :: xs) => by
    rw [writeValue]
    refine Output.hasNoHalves_append (Output.hasNoHalves_append (Output.hasNoHalves_append ?_ ?_) ?_) ?_
    · exact Output.hasNoHalves_piece _
    · exact hasNoHalves_writeValue layout _ _ x
    · exact hasNoHalves_writeItems layout _ xs
    · exact Output.hasNoHalves_piece _
  | .map [] => by
    rw [writeValue]
    exact Output.hasNoHalves_append (Output.hasNoHalves_piece _) (Output.hasNoHalves_piece _)
  | .map (e :: es) => by
    rw [writeValue]
    refine Output.hasNoHalves_append (Output.hasNoHalves_append (Output.hasNoHalves_append
      (Output.hasNoHalves_append ?_ ?_) ?_) ?_) ?_
    · exact Output.hasNoHalves_piece _
    · exact Output.hasNoHalves_piece _
    · exact hasNoHalves_writeEntry layout _ _ e
    · exact hasNoHalves_writeEntries layout _ es
    · exact Output.hasNoHalves_piece _
  | .null | .bool _ | .int _ | .float _ | .str _ => Output.hasNoHalves_piece _
  | .bytes _ | .language _ | .header _ _ =>
    Output.hasNoHalves_append (Output.hasNoHalves_piece _) (Output.hasNoHalves_stop _)
termination_by structural v => v

theorem hasNoHalves_writeItems (layout : Layout) (level : Nat) : (xs : List Value) →
    (writeItems layout level xs).text.HasNoHalves
  | [] => .ofString ""
  | x :: xs => Output.hasNoHalves_append (hasNoHalves_writeValue layout _ _ x)
      (hasNoHalves_writeItems layout _ xs)
termination_by structural xs => xs

theorem hasNoHalves_writeEntries (layout : Layout) (level : Nat) : (es : List (Value × Value)) →
    (writeEntries layout level es).text.HasNoHalves
  | [] => .ofString ""
  | e :: es => Output.hasNoHalves_append (hasNoHalves_writeEntry layout _ _ e)
      (hasNoHalves_writeEntries layout _ es)
termination_by structural es => es

theorem hasNoHalves_writeEntry (layout : Layout) (level : Nat) (separator : Text) :
    (e : Value × Value) → (writeEntry layout level separator e).text.HasNoHalves
  | (k, v) => by
    rw [writeEntry]
    split
    · exact Output.hasNoHalves_stop _
    · refine Output.hasNoHalves_append (Output.hasNoHalves_append (Output.hasNoHalves_append ?_ ?_) ?_) ?_
      · exact Output.hasNoHalves_piece _
      · exact Output.hasNoHalves_piece _
      · exact Output.hasNoHalves_piece _
      · exact hasNoHalves_writeValue layout _ _ v
termination_by structural e => e

end

/-- A document on one line has no halves. -/
theorem hasNoHalves_lineText {v : Value} {text : Text} (h : lineText v = .ok text) :
    text.HasNoHalves := by
  rw [lineText.eq_def] at h
  simp only at h
  split at h
  · obtain rfl := Except.ok.inj h
    exact hasNoHalves_writeValue _ _ _ v
  · cases h

end Json

/-! ## Documents made of texts -/

/-- A text without halves. -/
def Value.IsEncodableText (v : Value) : Prop := ∃ s : Text, v = .str s ∧ s.HasNoHalves

namespace Json

/-- A document in words has no halves. -/
theorem IsDocument.hasNoHalves_text {depth : Nat} {v : Value} (h : IsDocument depth v) :
    v.text.HasNoHalves := by
  cases h with
  | str hs => exact hs
  | _ => exact Value.hasNoHalves_quoted _

theorem IsDocument.isEncodableText {depth : Nat} {v : Value} (h : IsDocument depth v)
    (htext : ∃ s : Text, v = .str s) : v.IsEncodableText := by
  obtain ⟨s, rfl⟩ := htext
  exact ⟨s, rfl, h.hasNoHalves_text⟩

theorem isDocument_ofString (s : String) (depth : Nat) : IsDocument depth (.str s) :=
  .str (Text.HasNoHalves.ofString s)

theorem isDocument_of_isEncodableText {v : Value} (h : v.IsEncodableText) (depth : Nat) :
    IsDocument depth v := by
  obtain ⟨s, rfl, hs⟩ := h
  exact .str hs

/-- A dictionary from texts to documents is a document. -/
theorem isDocument_map {depth : Nat} {entries : List (Value × Value)}
    (hkeys : Assoc.HasDistinctKeys entries) (htexts : ∀ e ∈ entries, e.1.IsEncodableText)
    (hvalues : ∀ e ∈ entries, IsDocument depth e.2) : IsDocument (depth + 1) (.map entries) := by
  obtain ⟨fields, rfl, hnames⟩ : ∃ fields : List (Text × Value),
      entries = fields.map (fun f => (Value.str f.1, f.2)) ∧ ∀ f ∈ fields, f.1.HasNoHalves := by
    clear hkeys hvalues
    induction entries with
    | nil => exact ⟨[], rfl, List.forall_mem_nil _⟩
    | cons e entries ih =>
      rw [List.forall_mem_cons] at htexts
      obtain ⟨⟨name, hname, hclean⟩, hrest⟩ := htexts
      obtain ⟨fields, rfl, hfields⟩ := ih hrest
      refine ⟨(name, e.2) :: fields, ?_, List.forall_mem_cons.mpr ⟨hclean, hfields⟩⟩
      rw [List.map_cons, ← hname]
  exact .map (Assoc.hasDistinctKeys_named.mp hkeys) hnames fun f hf => hvalues _ (List.mem_map_of_mem hf)

end Json

end HttpWorkbench
