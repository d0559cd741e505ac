import HttpWorkbench.Failure
import HttpWorkbench.Value.Basic

/-!
# Quoting rules

How a text is put between the quotes of a literal. Each rule replaces one character, the quote
that would end the literal, and leaves everything else as it is.
-/

namespace HttpWorkbench.Export

/-- A character that must not stand in a literal, and what is written in its place. -/
structure Escape where
  mark : CodePoint
  replacement : Text
  deriving DecidableEq, Repr

namespace Escape

/-- A backslash before a quote. -/
def backslash (quote : CodePoint) : Escape := ⟨quote, ['\\', quote]⟩

/-- A single-quoted word of a shell is closed, a quoted quote follows, and the word is opened
again. -/
def shell : Escape := ⟨'\x27', ['\x27', '\\', '\x27', '\x27']⟩

/-- A double quote is written twice. -/
def doubled : Escape := ⟨'"', ['"', '"']⟩

/-- A raw string is closed, a quoted backtick is joined to it, and the string is opened again. -/
def raw : Escape := ⟨'\x60', "\x60 + \"\x60\" + \x60"⟩

/-- The text with every mark replaced. -/
def apply (e : Escape) (cs : Text) : Text := Text.replaceChar e.mark e.replacement cs

/-- The value, if it is a text, with every mark replaced. -/
def applyTo (e : Escape) : Value → Except Misuse Text
  | .str s => .ok (e.apply s)
  | .bytes _ => .error (.bytesNeeded "str")
  | v => .error (.noAttribute v.kindName "replace")

@[simp] theorem apply_nil (e : Escape) : e.apply [] = [] := rfl

theorem apply_cons (e : Escape) (c : CodePoint) (cs : Text) :
    e.apply (c :: cs) = (if c = e.mark then e.replacement else [c]) ++ e.apply cs := rfl

/-- A mark is replaced. -/
theorem apply_cons_mark (e : Escape) (cs : Text) :
    e.apply (e.mark :: cs) = e.replacement ++ e.apply cs := by rw [apply_cons, if_pos rfl]

/-- Every other character stays. -/
theorem apply_cons_of_ne {e : Escape} {c : CodePoint} (h : c ≠ e.mark) (cs : Text) :
    e.apply (c :: cs) = c :: e.apply cs := by rw [apply_cons, if_neg h, List.singleton_append]

@[simp] theorem apply_append (e : Escape) (cs ds : Text) :
    e.apply (cs ++ ds) = e.apply cs ++ e.apply ds := by simp [apply, Text.replaceChar]

/-- A text without the mark is left as it is. -/
theorem apply_of_notMem {e : Escape} {cs : Text} (h : e.mark ∉ cs) : e.apply cs = cs := by
  induction cs with
  | nil => rfl
  | cons c cs ih =>
    rw [List.mem_cons, not_or] at h
    rw [apply_cons_of_ne (Ne.symm h.1), ih h.2]

end Escape

end HttpWorkbench.Export
