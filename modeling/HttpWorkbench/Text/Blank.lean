import HttpWorkbench.Text.Basic

/-!
# Blanks

The characters that trimming removes and that may stand inside the braces of a placeholder:
the white space of Unicode together with the four information separators. The zero-width space
and the byte order mark are not among them.
-/

namespace HttpWorkbench.Text

/-- White space of any script, and the separators U+001C to U+001F. -/
def isBlank (c : CodePoint) : Bool :=
  let n := c.value
  (0x09 ≤ n && n ≤ 0x0D) || (0x1C ≤ n && n ≤ 0x20) || n == 0x85 || n == 0xA0 || n == 0x1680 ||
    (0x2000 ≤ n && n ≤ 0x200A) || n == 0x2028 || n == 0x2029 || n == 0x202F || n == 0x205F ||
    n == 0x3000

/-- Drop what satisfies `p` at both ends. -/
def trimWhile (p : α → Bool) (xs : List α) : List α :=
  ((xs.dropWhile p).reverse.dropWhile p).reverse

/-- The text without blanks at either end. -/
def trim (s : Text) : Text := trimWhile isBlank s

/-- Whether the text is empty or all blanks. -/
def isAllBlank (s : Text) : Bool := s.all isBlank

/-- A character that core calls white space is a blank. -/
theorem isBlank_of_isWhitespace {c : Char} (h : c.isWhitespace = true) :
    isBlank (.char c) = true := by
  simp only [Char.isWhitespace, Bool.or_eq_true, decide_eq_true_eq] at h
  rcases h with ((h | h) | h) | h <;> subst h <;> decide

end HttpWorkbench.Text
