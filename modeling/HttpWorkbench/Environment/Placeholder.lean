import HttpWorkbench.Text.Blank

/-!
# Placeholders

A placeholder is a name between doubled braces, with blanks allowed inside the braces. A text is
cut into single characters and placeholders from left to right; nothing inside a placeholder is
looked at again.
-/

namespace HttpWorkbench.Placeholder

/-- An ASCII letter or an underscore. -/
def isNameStart (c : CodePoint) : Bool := c.passes fun c => c.isAlpha || c == '_'

/-- A character of a name after the first. -/
def isNameChar (c : CodePoint) : Bool :=
  c.passes fun c => c.isAlphanum || c == '_' || c == '.' || c == '-'

/-- The pattern in the notation of regular expressions. -/
def pattern : Text := "\\\x7b\\\x7b\\s*([A-Za-z_][A-Za-z0-9_.-]*)\\s*\\\x7d\\\x7d"

/-- A placeholder as it stands in a text. -/
structure Occurrence where
  name : Text
  whole : Text
  deriving DecidableEq, Repr

/-- The placeholder at the head of a text. -/
def occurrence? (cs : Text) : Option Occurrence :=
  match cs with
  | .char '\x7b' :: .char '\x7b' :: inner =>
    let fromName := inner.dropWhile Text.isBlank
    match fromName with
    | [] => none
    | c :: _ =>
      if isNameStart c then
        let name := fromName.takeWhile isNameChar
        let behindName := fromName.dropWhile isNameChar
        match behindName.dropWhile Text.isBlank with
        | .char '\x7d' :: .char '\x7d' :: _ =>
          some ⟨name, .char '\x7b' :: .char '\x7b' :: inner.takeWhile Text.isBlank ++ name ++
            behindName.takeWhile Text.isBlank ++ [.char '\x7d', .char '\x7d']⟩
        | _ => none
      else none
  | _ => none

/-- A part of a text. -/
inductive Piece where
  | char (c : CodePoint)
  | placeholder (occurrence : Occurrence)
  deriving DecidableEq, Repr

/-- The parts of a text, after passing over its first `skip` characters. -/
def piecesAfter : Nat → Text → List Piece
  | _, [] => []
  | skip + 1, _ :: rest => piecesAfter skip rest
  | 0, c :: rest =>
    match occurrence? (c :: rest) with
    | some o => .placeholder o :: piecesAfter (o.whole.length - 1) rest
    | none => .char c :: piecesAfter 0 rest

/-- The parts of a text. -/
def pieces (cs : Text) : List Piece := piecesAfter 0 cs

/-- A placeholder, or the text between two of them. -/
inductive Fragment where
  | gap (text : Text)
  | placeholder (occurrence : Occurrence)
  deriving DecidableEq, Repr

/-- Parts with neighbouring characters put together. -/
def fragments : List Piece → List Fragment
  | [] => []
  | .placeholder o :: rest => .placeholder o :: fragments rest
  | .char c :: rest =>
    match fragments rest with
    | .gap text :: more => .gap (c :: text) :: more
    | more => .gap [c] :: more

end HttpWorkbench.Placeholder
