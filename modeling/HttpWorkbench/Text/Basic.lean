import HttpWorkbench.Text.CodePoint

/-!
# Texts

A text is a row of code points. The texts that the program itself writes have no halves and are
given as strings.
-/

namespace HttpWorkbench

/-- A text. -/
abbrev Text := List CodePoint

namespace Text

/-- The text of characters. -/
def ofChars (cs : List Char) : Text := cs.map .char

/-- The text of a string. -/
def ofString (s : String) : Text := ofChars s.toList

/-- A string as a text. -/
instance : Coe String Text := ⟨ofString⟩

/-- The text as a string, where the replacement character stands for every half. -/
def asString (t : Text) : String :=
  String.ofList (t.map fun p =>
    match p with
    | .char c => c
    | .half _ => '\uFFFD')

@[simp] theorem asString_ofString (s : String) : asString (ofString s) = s := by
  simp [asString, ofString, ofChars, Function.comp_def]

/-- Strings are told apart as texts. -/
theorem ofString_injective {s t : String} (h : ofString s = ofString t) : s = t := by
  rw [← asString_ofString s, h, asString_ofString]

@[simp] theorem ofString_append (s t : String) :
    ofString (s ++ t) = ofString s ++ ofString t := by
  simp [ofString, ofChars]

end Text

end HttpWorkbench
