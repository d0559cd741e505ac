import HttpWorkbench.CommandLine.Screen

/-!
# Drawing

What is shown, as plain text: markup is left out, the columns of a table are aligned, and a panel
is its title over its content.
-/

namespace HttpWorkbench.CommandLine

/-- Whether the characters between brackets are a tag of the markup. -/
def isTag : Text → Bool
  | [] => false
  | c :: _ => c == '/' || c == '#' || c == '@' || c.passes Char.isLower

/-- The characters without their tags, where `pending` holds, nearest first, what was read since a
bracket was opened. -/
def unmarkedFrom : Option Text → Text → Text
  | none, [] => []
  | some pending, [] => '[' :: pending.reverse
  | none, c :: rest =>
    if c = '[' then unmarkedFrom (some []) rest else c :: unmarkedFrom none rest
  | some pending, c :: rest =>
    if c = '[' then .char '[' :: pending.reverse ++ unmarkedFrom (some []) rest
    else if c = ']' then
      if isTag pending.reverse then unmarkedFrom none rest
      else .char '[' :: pending.reverse ++ .char ']' :: unmarkedFrom none rest
    else unmarkedFrom (some (c :: pending)) rest

/-- A text without its markup. -/
def unmarked (s : Text) : Text := unmarkedFrom none s

/-- A text filled up with blanks to a width. -/
def padded (width : Nat) (s : Text) : Text :=
  s ++ List.replicate (width - s.length) (.char ' ')

/-- The width of each column. -/
def columnWidths (rows : List (List Text)) : List Nat :=
  rows.foldl (fun widths row =>
    (row.zipIdx.map fun (cell, i) => max cell.length (widths.getD i 0)) ++
      widths.drop row.length) []

/-- A row with its cells in columns. -/
def drawnRow (widths : List Nat) (row : List Text) : Text :=
  Text.join "  " (row.zipWith (fun cell width => padded width cell) widths)

/-- Something shown, as plain text. -/
def Display.plain : Display → Text
  | .text s => unmarked s
  | .verbatim s => s
  | .table title columns rows =>
    let rows := columns.toList ++ rows.map (·.map unmarked)
    let widths := columnWidths rows
    Text.join "\n" (title.toList ++ rows.map (drawnRow widths))
  | .panel title content => title ++ "\n" ++ unmarked content
  | .highlighted _ content => content

end HttpWorkbench.CommandLine
