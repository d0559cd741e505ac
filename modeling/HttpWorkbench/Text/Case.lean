import HttpWorkbench.Text.Basic
import HttpWorkbench.Text.Case.Table

/-!
# Lower and upper case

Full case mappings: a letter may become several, and a capital sigma at the end of a word takes
its final form. Every other letter is mapped without regard to its neighbours.
-/

namespace HttpWorkbench.Text

/-- The moved code point, where the run covers it. -/
def CaseRun.image? (r : CaseRun) (n : Nat) : Option Nat :=
  if r.first ≤ n ∧ n ≤ r.last ∧ (n - r.first) % r.step = 0 then some ((n : Int) + r.shift).toNat
  else none

/-- A letter's form according to the two tables; characters in neither are kept. -/
def mapCase (runs : List CaseRun) (expansions : List (Nat × List Nat)) (c : CodePoint) : Text :=
  match expansions.lookup c.value with
  | some ns => ns.map CodePoint.ofValue
  | none =>
    match runs.findSome? (·.image? c.value) with
    | some n => [.ofValue n]
    | none => [c]

/-- The lower-case form of one letter by itself. -/
def lowerLetter (c : CodePoint) : Text := mapCase lowerRuns lowerExpansions c

/-- The upper-case form of one letter. -/
def upperLetter (c : CodePoint) : Text := mapCase upperRuns upperExpansions c

/-- Whether the nearest character that is not passed over has case. -/
def nextIsCased (cs : Text) : Bool :=
  match cs.dropWhile (inRanges caseIgnorableRanges) with
  | [] => false
  | c :: _ => inRanges casedRanges c

/-- Whether a sigma with `before` (nearest first) and `after` around it ends a word. -/
def endsWord (before after : Text) : Bool := nextIsCased before && !nextIsCased after

/-- Lower-case form of the rest of a text, of which `before` (nearest first) has been read. -/
def lowerFrom (before : Text) : Text → Text
  | [] => []
  | c :: rest =>
    (if c = 'Σ' then [.char (if endsWord before rest then 'ς' else 'σ')] else lowerLetter c) ++
      lowerFrom (c :: before) rest

/-- The text in lower case. -/
def lower (s : Text) : Text := lowerFrom [] s

/-- The text in upper case. -/
def upper (s : Text) : Text := s.flatMap upperLetter

end HttpWorkbench.Text
