import HttpWorkbench.Json.Reader

/-!
# The grammar of documents

Which texts are JSON values is said here by the rules of the standard alone, with no bound on the
depth and no value beside the standard's. In such a text a backslash stands only in strings, and
there it begins one of the escapes.
-/

namespace HttpWorkbench.Json

/-- The characters that a backslash may stand before in a string, the `u` of four digits apart. -/
def escapeMarks : Text := "\"\\/bfnrt"

/-- A row of escapes and of single characters that have a property and are no backslash. -/
inductive Escaped (p : CodePoint → Prop) : Text → Prop
  | nil : Escaped p []
  | plain {c : CodePoint} {rest : Text} (hc : p c) (hslash : c ≠ '\\') (h : Escaped p rest) :
      Escaped p (c :: rest)
  | short {c : CodePoint} {rest : Text} (hc : c ∈ escapeMarks) (h : Escaped p rest) :
      Escaped p (.char '\\' :: c :: rest)
  | digits {a b c d : CodePoint} {unit : Nat} {rest : Text} (hunit : hexUnit? a b c d = some unit)
      (h : Escaped p rest) : Escaped p (.char '\\' :: .char 'u' :: a :: b :: c :: d :: rest)

/-- A character that stands for itself in a string. -/
def StandsInString (c : CodePoint) : Prop := c ≠ '"' ∧ 0x20 ≤ c.value

instance (c : CodePoint) : Decidable (StandsInString c) := inferInstanceAs (Decidable (_ ∧ _))

/-- Spaces and line ends between tokens. -/
def IsSpaces (cs : Text) : Prop := ∀ c ∈ cs, isSpace c = true

/-- At least one digit. -/
def IsDigits (cs : Text) : Prop := cs ≠ [] ∧ ∀ c ∈ cs, isDigit c = true

/-- A sign, whole digits without a leading zero, a fraction and an exponent, all but the digits
optional. -/
def IsNumber (cs : Text) : Prop :=
  ∃ sign whole fraction exponent : Text, cs = sign ++ whole ++ fraction ++ exponent ∧
    (sign = [] ∨ sign = [.char '-']) ∧
    (whole = [.char '0'] ∨ IsDigits whole ∧ whole.head? ≠ some (.char '0')) ∧
    (fraction = [] ∨ ∃ digits, IsDigits digits ∧ fraction = .char '.' :: digits) ∧
    (exponent = [] ∨ ∃ mark ∈ ("eE" : Text), ∃ sign ∈ (["", "+", "-"] : List Text),
      ∃ digits, IsDigits digits ∧ exponent = mark :: (sign ++ digits))

/-- What a rule of the grammar describes. -/
inductive Kind where
  | value
  | object
  /-- A value with spaces around it. -/
  | item
  /-- Items with commas between them. -/
  | items
  /-- A name, a colon and an item. -/
  | member
  /-- Members with commas between them. -/
  | members
  deriving DecidableEq, Repr

/-- The rules of the grammar. -/
inductive Derives : Kind → Text → Prop
  | word {cs : Text} (h : cs ∈ (["true", "false", "null"] : List Text)) : Derives .value cs
  | number {cs : Text} (h : IsNumber cs) : Derives .value cs
  | string {body : Text} (h : Escaped StandsInString body) :
      Derives .value (.char '"' :: (body ++ [.char '"']))
  | noItems {spaces : Text} (h : IsSpaces spaces) :
      Derives .value (.char '[' :: (spaces ++ [.char ']']))
  | list {items : Text} (h : Derives .items items) :
      Derives .value (.char '[' :: (items ++ [.char ']']))
  | valueOfObject {cs : Text} (h : Derives .object cs) : Derives .value cs
  | noMembers {spaces : Text} (h : IsSpaces spaces) :
      Derives .object (.char '\x7b' :: (spaces ++ [.char '\x7d']))
  | object {members : Text} (h : Derives .members members) :
      Derives .object (.char '\x7b' :: (members ++ [.char '\x7d']))
  | item {left value right : Text} (hleft : IsSpaces left) (h : Derives .value value)
      (hright : IsSpaces right) : Derives .item (left ++ value ++ right)
  | oneItem {item : Text} (h : Derives .item item) : Derives .items item
  | moreItems {item items : Text} (h : Derives .item item) (hmore : Derives .items items) :
      Derives .items (item ++ .char ',' :: items)
  | member {left name right item : Text} (hleft : IsSpaces left)
      (hname : Escaped StandsInString name) (hright : IsSpaces right) (h : Derives .item item) :
      Derives .member (left ++ .char '"' :: (name ++ .char '"' :: (right ++ .char ':' :: item)))
  | oneMember {member : Text} (h : Derives .member member) : Derives .members member
  | moreMembers {member members : Text} (h : Derives .member member)
      (hmore : Derives .members members) : Derives .members (member ++ .char ',' :: members)

/-- The text of a JSON object, with spaces around it. -/
def IsObjectText (text : Text) : Prop :=
  ∃ left object right, text = left ++ object ++ right ∧ IsSpaces left ∧ Derives .object object ∧
    IsSpaces right

namespace Escaped

variable {p q : CodePoint → Prop} {cs ds : Text}

theorem append (hcs : Escaped p cs) (hds : Escaped p ds) : Escaped p (cs ++ ds) := by
  induction hcs with
  | nil => exact hds
  | plain hc hslash _ ih => exact .plain hc hslash ih
  | short hc _ ih => exact .short hc ih
  | digits hunit _ ih => exact .digits hunit ih

theorem mono (hpq : ∀ c, p c → q c) (h : Escaped p cs) : Escaped q cs := by
  induction h with
  | nil => exact .nil
  | plain hc hslash _ ih => exact .plain (hpq _ hc) hslash ih
  | short hc _ ih => exact .short hc ih
  | digits hunit _ ih => exact .digits hunit ih

/-- A text without a backslash needs no escape. -/
theorem of_notMem (h : .char '\\' ∉ cs) : Escaped (fun _ => True) cs := by
  induction cs with
  | nil => exact .nil
  | cons c cs ih =>
    rw [List.mem_cons, not_or] at h
    exact .plain trivial (Ne.symm h.1) (ih h.2)

end Escaped

/-- Characters of a class to which the backslash does not belong need no escape. -/
theorem escaped_of_all {f : CodePoint → Bool} (hf : f '\\' = false) {cs : Text}
    (h : ∀ c ∈ cs, f c = true) : Escaped (fun _ => True) cs := by
  refine .of_notMem fun hmem => ?_
  exact Bool.false_ne_true (hf.symm.trans (h _ hmem))

theorem IsSpaces.escaped {cs : Text} (h : IsSpaces cs) : Escaped (fun _ => True) cs :=
  escaped_of_all rfl h

theorem IsDigits.escaped {cs : Text} (h : IsDigits cs) : Escaped (fun _ => True) cs :=
  escaped_of_all rfl h.2

theorem IsNumber.escaped {cs : Text} (h : IsNumber cs) : Escaped (fun _ => True) cs := by
  obtain ⟨sign, whole, fraction, exponent, rfl, hsign, hwhole, hfraction, hexponent⟩ := h
  have hsigns : Escaped (fun _ => True) sign := by
    rcases hsign with rfl | rfl
    · exact .nil
    · exact .of_notMem (by decide)
  have hwholes : Escaped (fun _ => True) whole := by
    rcases hwhole with rfl | ⟨hdigits, -⟩
    · exact .of_notMem (by decide)
    · exact hdigits.escaped
  have hfractions : Escaped (fun _ => True) fraction := by
    rcases hfraction with rfl | ⟨digits, hdigits, rfl⟩
    · exact .nil
    · exact .plain trivial (by decide) hdigits.escaped
  have hexponents : Escaped (fun _ => True) exponent := by
    rcases hexponent with rfl | ⟨mark, hmark, sign, hsign, digits, hdigits, rfl⟩
    · exact .nil
    · refine .plain trivial ?_ (.append ?_ hdigits.escaped)
      · revert mark
        decide
      · have hnone : ∀ sign ∈ (["", "+", "-"] : List Text), .char '\\' ∉ sign := by decide
        exact .of_notMem (hnone sign hsign)
  exact ((hsigns.append hwholes).append hfractions).append hexponents

/-- Four digits that write a number are hexadecimal digits. -/
theorem exists_hexValue?_of_hexUnit? {a b c d : CodePoint} {unit : Nat}
    (h : hexUnit? a b c d = some unit) : ∀ e ∈ [a, b, c, d], ∃ n, hexValue? e = some n := by
  unfold hexUnit? at h
  obtain ⟨m, hm, h⟩ := Option.bind_eq_some_iff.mp h
  obtain ⟨n, hn, h⟩ := Option.bind_eq_some_iff.mp h
  obtain ⟨k, hk, h⟩ := Option.bind_eq_some_iff.mp h
  obtain ⟨l, hl, -⟩ := Option.bind_eq_some_iff.mp h
  simp [hm, hn, hk, hl]

/-- In a text that the grammar derives, every backslash begins an escape or belongs to one. -/
theorem Derives.escaped {k : Kind} {cs : Text} (h : Derives k cs) : Escaped (fun _ => True) cs := by
  induction h with
  | word h =>
    have hnone : ∀ word ∈ (["true", "false", "null"] : List Text), .char '\\' ∉ word := by decide
    exact .of_notMem (hnone _ h)
  | number h => exact h.escaped
  | string h =>
    exact .plain trivial (by decide) ((h.mono fun _ _ => trivial).append (.of_notMem (by decide)))
  | noItems h => exact .plain trivial (by decide) (h.escaped.append (.of_notMem (by decide)))
  | list _ ih => exact .plain trivial (by decide) (ih.append (.of_notMem (by decide)))
  | valueOfObject _ ih => exact ih
  | noMembers h => exact .plain trivial (by decide) (h.escaped.append (.of_notMem (by decide)))
  | object _ ih => exact .plain trivial (by decide) (ih.append (.of_notMem (by decide)))
  | item hleft _ hright ih => exact (hleft.escaped.append ih).append hright.escaped
  | oneItem _ ih => exact ih
  | moreItems _ _ ih ihmore => exact ih.append (.plain trivial (by decide) ihmore)
  | member hleft hname hright _ ih =>
    have hname' := hname.mono (q := fun _ => True) fun _ _ => trivial
    refine hleft.escaped.append (.plain trivial (by decide) (hname'.append ?_))
    exact .plain trivial (by decide) (hright.escaped.append (.plain trivial (by decide) ih))
  | oneMember _ ih => exact ih
  | moreMembers _ _ ih ihmore => exact ih.append (.plain trivial (by decide) ihmore)

theorem IsObjectText.escaped {text : Text} (h : IsObjectText text) :
    Escaped (fun _ => True) text := by
  obtain ⟨left, object, right, rfl, hleft, hobject, hright⟩ := h
  exact (hleft.escaped.append hobject.escaped).append hright.escaped

/-- An object begins with its brace. -/
theorem Derives.object_eq_cons {cs : Text} (h : Derives .object cs) :
    ∃ rest, cs = .char '\x7b' :: rest := by
  cases h with
  | noMembers _ => exact ⟨_, rfl⟩
  | object _ => exact ⟨_, rfl⟩

/-- An object with one member whose value is a string. -/
theorem isObjectText_of_texts {name value : Text} (hname : Escaped StandsInString name)
    (hvalue : Escaped StandsInString value) :
    IsObjectText (.char '\x7b' :: .char '"' :: (name ++ .char '"' :: .char ':' :: .char '"' ::
      (value ++ [.char '"', .char '\x7d']))) := by
  have hnone : IsSpaces [] := nofun
  refine ⟨[], _, [], ?_, hnone, .object (.oneMember (.member hnone hname hnone
    (.item hnone (.string hvalue) hnone))), hnone⟩
  simp

end HttpWorkbench.Json
