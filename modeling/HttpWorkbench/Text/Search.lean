import HttpWorkbench.Text.Basic

/-!
# Parts of a text

Whether a text occurs in another, where a text is cut, and how texts are put together.
-/

namespace HttpWorkbench.Text

/-- Whether `part` stands somewhere in the text. -/
def occursIn [BEq α] (part : List α) : List α → Bool
  | [] => part.isEmpty
  | x :: rest => part.isPrefixOf (x :: rest) || occursIn part rest

/-- Whether the first text occurs in the second. -/
def occurs (part s : Text) : Bool := occursIn part s

/-- What stands before the first mark and what after it; with no mark, all and nothing. -/
def cutAt (mark : CodePoint) (cs : Text) : Text × Text :=
  (cs.takeWhile (· ≠ mark), (cs.dropWhile (· ≠ mark)).drop 1)

/-- The pieces between marks; one more than there are marks. -/
def splitAll (mark : CodePoint) : Text → List Text
  | [] => [[]]
  | c :: rest =>
    if c = mark then [] :: splitAll mark rest
    else
      match splitAll mark rest with
      | [] => [[c]]
      | piece :: pieces => (c :: piece) :: pieces

/-- The texts with a separator between neighbours. -/
def join (separator : Text) : List Text → Text
  | [] => ""
  | [s] => s
  | s :: t :: rest => s ++ separator ++ join separator (t :: rest)

/-- Every occurrence of a character replaced by a text. -/
def replaceChar (mark : CodePoint) (replacement cs : Text) : Text :=
  cs.flatMap fun c => if c = mark then replacement else [c]

/-- Each ASCII word with a capital first letter and small letters after it. -/
def titleWords : Bool → Text → Text
  | _, [] => []
  | inWord, c :: rest =>
    c.mapChar (if inWord then Char.toLower else Char.toUpper) ::
      titleWords (c.passes Char.isAlpha) rest

/-- An ASCII text with every word capitalised. -/
def title (s : Text) : Text := titleWords false s

theorem occursIn_iff_isInfix [BEq α] [LawfulBEq α] (part xs : List α) :
    occursIn part xs = true ↔ part <:+: xs := by
  induction xs with
  | nil => rw [occursIn, List.isEmpty_iff, List.infix_nil]
  | cons x xs ih =>
    rw [occursIn, Bool.or_eq_true, ih, List.isPrefixOf_iff_prefix, List.infix_cons_iff]

/-- The first text occurs in the second exactly when the second has it in one piece. -/
theorem occurs_iff_isInfix (part s : Text) : occurs part s = true ↔ part <:+: s :=
  occursIn_iff_isInfix part s

@[simp] theorem join_empty (texts : List Text) : join "" texts = texts.flatten := by
  fun_induction join ("" : Text) texts with
  | case1 => rfl
  | case2 s => simp
  | case3 s t rest ih => rw [ih]; simp [ofString, ofChars]

end HttpWorkbench.Text
