import HttpWorkbench.Failure
import HttpWorkbench.Value.Basic

/-!
# Writing documents

Values as JSON texts, on one line or indented. Values that no document can hold make writing
fail, and so does half a character that is not spelled out. A document is written piece by piece;
what was written before the failure is kept, since a file that is being written shows it.
-/

namespace HttpWorkbench.Json

/-- Why writing stopped. -/
inductive WriteFault where
  | misuse (cause : Misuse)
  | unencodable (fault : Text.Utf8.EncodingFault)
  deriving DecidableEq, Repr

/-- The failure that a fault is. -/
def WriteFault.failure : WriteFault → Failure
  | .misuse cause => .misuse cause
  | .unencodable fault => .unencodable fault

/-- What was written, and what stopped writing, if anything. -/
structure Output where
  text : Text
  fault : Option WriteFault
  deriving DecidableEq, Repr

namespace Output

/-- Nothing written. -/
def empty : Output := ⟨"", none⟩

/-- A piece written, unless it cannot be encoded. -/
def piece (s : Text) : Output :=
  match Text.Utf8.encodingFault? s with
  | none => ⟨s, none⟩
  | some fault => ⟨"", some (.unencodable fault)⟩

/-- Writing stopped. -/
def stop (cause : Misuse) : Output := ⟨"", some (.misuse cause)⟩

/-- Write on, unless writing has stopped. -/
def append (a b : Output) : Output :=
  match a.fault with
  | some _ => a
  | none => ⟨a.text ++ b.text, b.fault⟩

instance : Append Output := ⟨append⟩

end Output

/-- How documents look. -/
structure Layout where
  /-- Spaces for each level, each item on a line of its own; otherwise one line. -/
  indent : Option Nat
  /-- Whether characters outside ASCII are spelled out. -/
  ascii : Bool

/-- The layout of files. -/
def Layout.file : Layout := ⟨some 2, false⟩

/-- The layout of request bodies. -/
def Layout.line : Layout := ⟨none, true⟩

namespace Layout

/-- What stands before an item at a level. -/
def newline (layout : Layout) (level : Nat) : Text :=
  match layout.indent with
  | some n => '\n' :: List.replicate (n * level) ' '
  | none => ""

/-- What stands between items at a level. -/
def comma (layout : Layout) (level : Nat) : Text :=
  match layout.indent with
  | some _ => "," ++ layout.newline level
  | none => ", "

end Layout

/-- A sixteen-bit unit as an escape. -/
def unitEscape (n : Nat) : Text := '\\' :: 'u' :: Text.hexDigits 4 n

/-- A character beyond ASCII as one escape or as the escapes of its two halves. -/
def unitEscapes (n : Nat) : Text :=
  if n < 0x10000 then unitEscape n
  else unitEscape (0xD800 + (n - 0x10000) / 0x400) ++ unitEscape (0xDC00 + (n - 0x10000) % 0x400)

/-- One character of a string. -/
def escapeChar (ascii : Bool) (c : CodePoint) : Text :=
  if c = '"' then ['\\', '"']
  else if c = '\\' then ['\\', '\\']
  else if c = '\n' then ['\\', 'n']
  else if c = '\r' then ['\\', 'r']
  else if c = '\t' then ['\\', 't']
  else if c = '\x0c' then ['\\', 'f']
  else if c = '\x08' then ['\\', 'b']
  else if c.value < 0x20 then unitEscape c.value
  else if ascii ∧ 0x7E < c.value then unitEscapes c.value
  else [c]

/-- A string between quotes. -/
def writeString (ascii : Bool) (s : Text) : Text :=
  .char '"' :: s.flatMap (escapeChar ascii) ++ [.char '"']

/-- A number of the format. -/
def floatText (x : Binary64) : Text := x.shortestText .document

/-- The name under which a key is written. -/
def keyName? : Value → Option Text
  | .str s => some s
  | .float x => some (floatText x)
  | .bool b => some (if b then "true" else "false")
  | .null => some "null"
  | .int n => some (intText n)
  | _ => none

/-- The text of a value that holds no others. -/
def scalarText? (ascii : Bool) : Value → Option Text
  | .null => some "null"
  | .bool b => some (if b then "true" else "false")
  | .int n => some (intText n)
  | .float x => some (floatText x)
  | .str s => some (writeString ascii s)
  | _ => none

mutual

/-- A value at a level of indentation. What leads to it is one piece with a value that holds no
others, and a piece of its own before any other. -/
def writeValue (layout : Layout) (level : Nat) (lead : Text) : Value → Output
  | .list [] => .piece lead ++ .piece "[]"
  | .list (x :: xs) =>
    .piece lead ++ writeValue layout (level + 1) ("[" ++ layout.newline (level + 1)) x ++
      writeItems layout (level + 1) xs ++ .piece (layout.newline level ++ "]")
  | .map [] => .piece lead ++ .piece "\x7b\x7d"
  | .map (e :: es) =>
    .piece lead ++ .piece ("\x7b" ++ layout.newline (level + 1)) ++
      writeEntry layout (level + 1) "" e ++ writeEntries layout (level + 1) es ++
      .piece (layout.newline level ++ "\x7d")
  | v =>
    match scalarText? layout.ascii v with
    | some text => .piece (lead ++ text)
    | none => .piece lead ++ .stop (.notSerializable v.kindName)
termination_by structural v => v

/-- Items after the first of a list. -/
def writeItems (layout : Layout) (level : Nat) : List Value → Output
  | [] => .empty
  | x :: xs => writeValue layout level (layout.comma level) x ++ writeItems layout level xs
termination_by structural xs => xs

/-- Entries after the first of a map. -/
def writeEntries (layout : Layout) (level : Nat) : List (Value × Value) → Output
  | [] => .empty
  | e :: es => writeEntry layout level (layout.comma level) e ++ writeEntries layout level es
termination_by structural es => es

/-- An entry after a separator, which is not written when the key is none of a document. -/
def writeEntry (layout : Layout) (level : Nat) (separator : Text) : Value × Value → Output
  | (k, v) =>
    match keyName? k with
    | none => .stop (.keyNotSerializable k.kindName)
    | some name =>
      .piece separator ++ .piece (writeString layout.ascii name) ++ .piece ": " ++
        writeValue layout level "" v
termination_by structural e => e

end

/-- A value as a document. -/
def write (layout : Layout) (v : Value) : Output := writeValue layout 0 "" v

/-- A value on one line. -/
def lineText (v : Value) : Result Text :=
  let output := write .line v
  match output.fault with
  | none => .ok output.text
  | some fault => .error fault.failure

end HttpWorkbench.Json
