import HttpWorkbench.Text.Blank
import HttpWorkbench.Text.Digit

/-!
# Typed integers

An integer as a user types it: blanks around it, a sign, digits of any script, and single
underscores between digits. Longer numbers than 4300 digits are refused.
-/

namespace HttpWorkbench.TypedInteger

/-- Blanks that may stand around a number: white space, but not the information separators. -/
def isPadding (c : CodePoint) : Bool :=
  Text.isBlank c && !(0x1C ≤ c.value && c.value ≤ 0x1F)

/-- The digits of a number without sign, none missing beside an underscore. `expected` says that a
digit has to follow. -/
def digits? (expected : Bool) : Text → Option (List Nat)
  | [] => if expected then none else some []
  | .char '_' :: rest => if expected then none else digits? true rest
  | c :: rest =>
    match Text.digitValue? c with
    | some d => (digits? false rest).map (d :: ·)
    | none => none

/-- The number that digits write. -/
def ofDigits (digits : List Nat) : Nat := digits.foldl (fun n d => 10 * n + d) 0

/-- The number of an unsigned text. -/
def magnitude? (cs : Text) : Option Nat :=
  match digits? true cs with
  | some digits => if digits.length ≤ 4300 then some (ofDigits digits) else none
  | none => none

/-- The integer that a text writes. -/
def read? (s : Text) : Option Int :=
  match Text.trimWhile isPadding s with
  | .char '-' :: rest => (magnitude? rest).map fun n => -(n : Int)
  | .char '+' :: rest => (magnitude? rest).map fun n => (n : Int)
  | cs => (magnitude? cs).map fun n => (n : Int)

end HttpWorkbench.TypedInteger
