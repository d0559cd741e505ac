import HttpWorkbench.Value.Access

/-!
# What is shown

What commands show on the two consoles, before anything is drawn: texts with their markup,
tables, panels and highlighted programs.
-/

namespace HttpWorkbench.CommandLine

/-- Results go to one console, diagnostics to the other. -/
inductive Console where
  | out
  | err
  deriving DecidableEq, Repr

/-- Something shown. -/
inductive Display where
  | text (s : Text)
  /-- A text whose markup is not to be read. -/
  | verbatim (s : Text)
  /-- A table, with its title and column heads unless they are hidden. -/
  | table (title : Option Text) (columns : Option (List Text)) (rows : List (List Text))
  | panel (title content : Text)
  | highlighted (highlighter content : Text)
  deriving DecidableEq, Repr

/-- A value as a cell of a table: a text, or empty for nothing. -/
def cellOfValue : Value → Result Text
  | .str s => .ok s
  | .null => .ok ""
  | v => misused (.notDrawable v.kindName)

/-- A value, which has to be a number, rounded to a whole one. -/
def wholeNumber : Value → Result Text
  | .float x => .ok x.wholeText
  | .str _ => misused (.unknownFormatCode "str")
  | v =>
    match v.asInt? with
    | none => misused (.noFormat v.kindName)
    | some n =>
      match Binary64.ofInt? n with
      | some x => .ok x.wholeText
      | none => misused .integerTooLarge

/-- The date and time of a timestamp, to the second, with a blank between them. -/
def dateAndTime : Value → Result Text
  | .str s => .ok (Text.replaceChar 'T' [' '] (s.take 19))
  | .bytes _ => misused (.bytesNeeded "str")
  | .list _ => misused (.noAttribute "list" "replace")
  | .map _ => misused (.unhashable "slice")
  | v => misused (.notIndexable v.kindName)

end HttpWorkbench.CommandLine
