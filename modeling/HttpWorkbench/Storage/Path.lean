import HttpWorkbench.Failure
import HttpWorkbench.Value.Basic

/-!
# Paths

A path is shown in its reduced form: repeated slashes and parts that mean the same directory are
dropped, parts that lead upwards stay.
-/

namespace HttpWorkbench

/-- A reduced path. -/
structure Path where
  /-- The leading slashes; empty for a path that starts in the working directory. -/
  root : Text
  parts : List Text
  deriving DecidableEq, Repr

namespace Path

/-- The leading slashes that count: two only when there are exactly two. -/
def rootOf (cs : Text) : Text :=
  match (cs.takeWhile (· == .char '/')).length with
  | 0 => ""
  | 2 => "//"
  | _ => "/"

/-- The path that a text names. -/
def ofText (s : Text) : Path :=
  { root := rootOf s
    parts := (Text.splitAll '/' s).filter fun p => p != "" && p != "." }

/-- The path that a value names. -/
def ofValue : Value → Result Path
  | .str s => .ok (ofText s)
  | .bytes _ => misused .bytesPath
  | v => misused (.notPath v.kindName)

/-- The path in its reduced form. -/
def text (p : Path) : Text :=
  match p.parts with
  | [] => if p.root = "" then "." else p.root
  | parts => p.root ++ Text.join "/" parts

/-- Whether the path holds the character that no file name may hold. -/
def holdsNull (p : Path) : Bool := p.parts.any fun s => s.contains '\x00'

/-- Whether a half stands for a byte of a file name that is no text. -/
def isByteStandIn (c : CodePoint) : Bool := 0xDC80 ≤ c.value && c.value ≤ 0xDCFF

/-- Why the system cannot be given the path, if so: it holds halves of characters. Of halves in a
row, those at the front that stand for bytes pass if they are all there are. -/
def encodingFaultFrom (position : Nat) : Text → Option Text.Utf8.EncodingFault
  | [] => none
  | c :: rest =>
    if c.isHalf && !isByteStandIn c then
      some ⟨position, c :: rest.takeWhile CodePoint.isHalf⟩
    else encodingFaultFrom (position + 1) rest

/-- Why the system cannot be given the path, if so. -/
def encodingFault? (p : Path) : Option Text.Utf8.EncodingFault := encodingFaultFrom 0 p.text

/-- How many bytes a name has for the system. -/
def nameSize (s : Text) : Nat :=
  s.foldl (fun n c => n + if isByteStandIn c then 1 else (Text.Utf8.bytesOf c).length) 0

/-- The longest name of a file or directory, in bytes. -/
def longestName : Nat := 255

/-- The longest path that can be followed, in bytes. -/
def longestPath : Nat := 4095

/-- The last part from its last dot on, unless the dot is at either end. -/
def suffix (p : Path) : Text :=
  match p.parts.getLast? with
  | none => ""
  | some name =>
    let after := (name.reverse.takeWhile (· ≠ .char '.')).reverse
    if after.isEmpty || name.length ≤ after.length + 1 then [] else '.' :: after

end Path

end HttpWorkbench
