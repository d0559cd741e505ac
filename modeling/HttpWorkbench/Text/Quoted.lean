import HttpWorkbench.Text.Basic
import HttpWorkbench.Text.Printable

/-!
# Quoted texts

How a text or a byte string is shown inside a message: between single quotes, or double quotes
where it holds single quotes only, with everything invisible spelled out.
-/

namespace HttpWorkbench.Text

/-- The hexadecimal digits of `n`, at least `width` of them. -/
def hexDigits (width n : Nat) : Text :=
  let digits := Text.ofChars (Nat.toDigits 16 n)
  List.replicate (width - digits.length) (.char '0') ++ digits

/-- A code point as the shortest of the three numeric escapes that can hold it. -/
def numericEscape (n : Nat) : Text :=
  if n ≤ 0xFF then '\\' :: 'x' :: hexDigits 2 n
  else if n ≤ 0xFFFF then '\\' :: 'u' :: hexDigits 4 n
  else '\\' :: 'U' :: hexDigits 8 n

/-- Single quotes, unless the text has those and no double quotes. -/
def quoteFor (cs : Text) : CodePoint :=
  if cs.contains '\x27' && !cs.contains '"' then '"' else '\x27'

/-- One character between the given quotes; `visible` says which characters stand for themselves. -/
def quotedChar (visible : CodePoint → Bool) (quote c : CodePoint) : Text :=
  if c = quote ∨ c = '\\' then ['\\', c]
  else if c = '\n' then ['\\', 'n']
  else if c = '\r' then ['\\', 'r']
  else if c = '\t' then ['\\', 't']
  else if visible c then [c]
  else numericEscape c.value

/-- The text between quotes. -/
def quoted (cs : Text) : Text :=
  let q := quoteFor cs
  q :: cs.flatMap (quotedChar isPrintable q) ++ [q]

/-- Whether a byte is shown as the ASCII character it encodes. -/
def isVisibleByte (c : CodePoint) : Bool := 0x20 ≤ c.value && c.value < 0x7F

/-- The byte string between quotes, marked by a leading `b`. -/
def quotedBytes (bytes : List UInt8) : Text :=
  let cs : Text := bytes.map fun b => .ofValue b.toNat
  let q := quoteFor cs
  .char 'b' :: q :: cs.flatMap (quotedChar isVisibleByte q) ++ [q]

end HttpWorkbench.Text
