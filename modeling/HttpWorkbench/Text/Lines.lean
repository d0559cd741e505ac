import HttpWorkbench.Text.Basic

/-!
# Lines

The one line end that texts read from a file have, and the line and column of a place.
-/

namespace HttpWorkbench.Text

/-- A carriage return, alone or before a line feed, becomes a line feed. -/
def unifyNewlines : Text → Text
  | [] => []
  | .char '\r' :: .char '\n' :: rest => '\n' :: unifyNewlines rest
  | .char '\r' :: rest => '\n' :: unifyNewlines rest
  | c :: rest => c :: unifyNewlines rest

/-- A place in a text: lines and columns count from one, the offset from zero. -/
structure Place where
  line : Nat
  column : Nat
  offset : Nat
  deriving DecidableEq, Repr

/-- The place after `offset` characters of the text. -/
def placeAt (text : Text) (offset : Nat) : Place :=
  let before := text.take offset
  { line := before.count (.char '\n') + 1
    column := (before.reverse.takeWhile (· ≠ .char '\n')).length + 1
    offset }

/-- The place in words. -/
def Place.message (p : Place) : Text :=
  "line " ++ toString p.line ++ " column " ++ toString p.column ++
    " (char " ++ toString p.offset ++ ")"

end HttpWorkbench.Text
