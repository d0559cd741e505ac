import HttpWorkbench.Failure
import HttpWorkbench.Value.Basic

/-!
# Reading documents

A reader for JSON texts. Beside the standard it knows `NaN`, `Infinity` and `-Infinity`; numbers
without point and exponent are integers of any size up to 4300 digits; a name that is repeated
keeps its first place and takes its last value; half a character that is spelled out by itself is
kept. A step gives what it read and the rest of the text; one that fails tells how much of the text
was left, from which the place is computed once at the end. Lists and objects nest only so deep.
-/

namespace HttpWorkbench.Json

/-- Why reading stopped, and how many characters were left there. -/
inductive Stop where
  | malformed (reason : Reason) (left : Nat)
  | longInteger (digits : Nat)
  | tooDeep (isList : Bool)
  deriving DecidableEq, Repr

/-- How deep lists and objects may nest. -/
def depthLimit : Nat := 987

/-- The four characters that may stand between tokens. -/
def isSpace (c : CodePoint) : Bool := c == ' ' || c == '\t' || c == '\n' || c == '\r'

/-- The text from the next token on. -/
def skipSpace (cs : Text) : Text := cs.dropWhile isSpace

/-- The value of a hexadecimal digit. -/
def hexValue? (c : CodePoint) : Option Nat :=
  let n := c.value
  if 0x30 ≤ n ∧ n ≤ 0x39 then some (n - 0x30)
  else if 0x61 ≤ n ∧ n ≤ 0x66 then some (n - 0x61 + 10)
  else if 0x41 ≤ n ∧ n ≤ 0x46 then some (n - 0x41 + 10)
  else none

/-- The number that four hexadecimal digits write. -/
def hexUnit? (a b c d : CodePoint) : Option Nat := do
  let a ← hexValue? a
  let b ← hexValue? b
  let c ← hexValue? c
  let d ← hexValue? d
  some (((a * 16 + b) * 16 + c) * 16 + d)

/-- What a backslash and one character stand for. -/
def escape? (c : CodePoint) : Option CodePoint :=
  if c = '"' ∨ c = '\\' ∨ c = '/' then some c
  else if c = 'b' then some '\x08'
  else if c = 'f' then some '\x0c'
  else if c = 'n' then some '\n'
  else if c = 'r' then some '\r'
  else if c = 't' then some '\t'
  else none

/-- The character of a pair of sixteen-bit units, when they are the halves of one. -/
def joinHalves? (high low : Nat) : Option CodePoint :=
  if 0xD800 ≤ high ∧ high < 0xDC00 ∧ 0xDC00 ≤ low ∧ low < 0xE000 then
    some (.ofValue (0x10000 + (high - 0xD800) * 0x400 + (low - 0xDC00)))
  else none

/-- A character in front of what a step read. -/
def consRead (c : CodePoint) (step : Except Stop (Text × Text)) :
    Except Stop (Text × Text) :=
  step.map fun (s, rest) => (c :: s, rest)

/-- The rest of a string after its opening quote; `start` is the text from that quote on. -/
def readString (start : Text) : Text → Except Stop (Text × Text)
  | [] => .error (.malformed .unterminatedString start.length)
  | c :: rest =>
    if c = '"' then .ok ([], rest)
    else if c = '\\' then
      match rest with
      | [] => .error (.malformed .unterminatedString start.length)
      | e :: tail =>
        if e = 'u' then
          match tail with
          | h₁ :: h₂ :: h₃ :: h₄ :: after =>
            match hexUnit? h₁ h₂ h₃ h₄, after with
            | some unit, b :: v :: l₁ :: l₂ :: l₃ :: l₄ :: x :: more =>
              let alone := consRead (.ofValue unit)
                (readString start (b :: v :: l₁ :: l₂ :: l₃ :: l₄ :: x :: more))
              if 0xD800 ≤ unit ∧ unit < 0xDC00 ∧ b = '\\' ∧ v = 'u' then
                match hexUnit? l₁ l₂ l₃ l₄ with
                | none => .error (.malformed .invalidUnicodeEscape (more.length + 6))
                | some low =>
                  match joinHalves? unit low with
                  | some joined => consRead joined (readString start (x :: more))
                  | none => alone
              else alone
            | some unit, y :: after => consRead (.ofValue unit) (readString start (y :: after))
            | _, _ => .error (.malformed .invalidUnicodeEscape (tail.length + 1))
          | _ => .error (.malformed .invalidUnicodeEscape (tail.length + 1))
        else
          match escape? e with
          | some d => consRead d (readString start tail)
          | none => .error (.malformed .invalidEscape (rest.length + 1))
    else if c.value < 0x20 then .error (.malformed .invalidControl (rest.length + 1))
    else consRead c (readString start rest)

/-- Whether the character is one of the ten ASCII digits. -/
def isDigit (c : CodePoint) : Bool := c.passes Char.isDigit

/-- The number that ASCII digits write. -/
def digitsValue (cs : Text) : Nat := cs.foldl (fun n c => n * 10 + (c.value - 0x30)) 0

/-- The parts of a number: its sign, whole digits, fraction digits and exponent. -/
structure NumberParts where
  negative : Bool
  whole : Text
  fraction : Text
  exponent : Option Int

/-- The whole digits: one zero, or digits that do not start with zero. -/
def readWhole? : Text → Option (Text × Text)
  | [] => none
  | c :: rest =>
    if c = '0' then some (['0'], rest)
    else if isDigit c then some (c :: rest.takeWhile isDigit, rest.dropWhile isDigit)
    else none

/-- The digits after a point; without any the point is not part of the number. -/
def readFraction (cs : Text) : Text × Text :=
  match cs with
  | .char '.' :: rest =>
    let digits := rest.takeWhile isDigit
    if digits.isEmpty then ([], cs) else (digits, rest.dropWhile isDigit)
  | _ => ([], cs)

/-- The exponent; without digits the mark is not part of the number. -/
def readExponent (cs : Text) : Option Int × Text :=
  match cs with
  | mark :: rest =>
    if mark = 'e' ∨ mark = 'E' then
      let (negative, tail) :=
        match rest with
        | .char '-' :: tail => (true, tail)
        | .char '+' :: tail => (false, tail)
        | tail => (false, tail)
      let digits := tail.takeWhile isDigit
      if digits.isEmpty then (none, cs)
      else
        let n : Int := digitsValue digits
        (some (if negative then -n else n), tail.dropWhile isDigit)
    else (none, cs)
  | [] => (none, cs)

/-- The longest number at the head of the text. -/
def readNumber? (cs : Text) : Option (NumberParts × Text) :=
  let (negative, unsigned) :=
    match cs with
    | .char '-' :: rest => (true, rest)
    | _ => (false, cs)
  (readWhole? unsigned).map fun (whole, rest) =>
    let (fraction, rest) := readFraction rest
    let (exponent, rest) := readExponent rest
    (⟨negative, whole, fraction, exponent⟩, rest)

/-- The value of a number: an integer when it has neither fraction nor exponent. -/
def NumberParts.value (p : NumberParts) : Except Stop Value :=
  match p.fraction, p.exponent with
  | [], none =>
    if 4300 < p.whole.length then .error (.longInteger p.whole.length)
    else
      let n : Int := digitsValue p.whole
      .ok (.int (if p.negative then -n else n))
  | fraction, exponent =>
    .ok (.float (.ofDecimal p.negative (digitsValue (p.whole ++ fraction))
      (exponent.getD 0 - fraction.length)))

/-- The words that stand for values. -/
def words : List (Text × Value) := [
  ("null", .null), ("true", .bool true), ("false", .bool false),
  ("NaN", .float (.nan .document)), ("Infinity", .float (.infinite false)),
  ("-Infinity", .float (.infinite true))]

/-- A word or a number. -/
def readScalar (cs : Text) : Except Stop (Value × Text) :=
  match words.find? fun w => w.1.isPrefixOf cs with
  | some (word, v) => .ok (v, cs.drop word.length)
  | none =>
    match readNumber? cs with
    | some (parts, rest) => do
      let v ← parts.value
      .ok (v, rest)
    | none => .error (.malformed .expectedValue cs.length)

mutual

/-- The value at the head of the text; `depth` more lists and objects may nest around its parts. -/
def readValue : Nat → Nat → Text → Except Stop (Value × Text)
  | 0, _, cs => .error (.malformed .expectedValue cs.length)
  | fuel + 1, depth, cs =>
    match cs with
    | .char '"' :: rest => do
      let (s, rest) ← readString cs rest
      .ok (.str s, rest)
    | .char '\x7b' :: rest =>
      match depth, skipSpace rest with
      | 0, _ => .error (.tooDeep false)
      | _, .char '\x7d' :: rest => .ok (.map [], rest)
      | depth + 1, rest => do
        let (members, rest) ← readMembers fuel depth rest
        .ok (.map (Assoc.ofList members), rest)
    | .char '[' :: rest =>
      match depth, skipSpace rest with
      | 0, _ => .error (.tooDeep true)
      | _, .char ']' :: rest => .ok (.list [], rest)
      | depth + 1, rest => do
        let (items, rest) ← readItems fuel depth rest
        .ok (.list items, rest)
    | cs => readScalar cs

/-- The items of a list up to its closing bracket. -/
def readItems : Nat → Nat → Text → Except Stop (List Value × Text)
  | 0, _, cs => .error (.malformed .expectedValue cs.length)
  | fuel + 1, depth, cs => do
    let (v, rest) ← readValue fuel depth cs
    match skipSpace rest with
    | .char ']' :: rest => .ok ([v], rest)
    | .char ',' :: rest =>
      let (vs, rest) ← readItems fuel depth (skipSpace rest)
      .ok (v :: vs, rest)
    | rest => .error (.malformed .expectedComma rest.length)

/-- The members of an object up to its closing brace. -/
def readMembers : Nat → Nat → Text → Except Stop (List (Value × Value) × Text)
  | 0, _, cs => .error (.malformed .expectedName cs.length)
  | fuel + 1, depth, cs =>
    match cs with
    | .char '"' :: rest => do
      let (name, rest) ← readString cs rest
      match skipSpace rest with
      | .char ':' :: rest =>
        let (v, rest) ← readValue fuel depth (skipSpace rest)
        let entry : Value × Value := (.str name, v)
        match skipSpace rest with
        | .char '\x7d' :: rest => .ok ([entry], rest)
        | .char ',' :: rest =>
          let (more, rest) ← readMembers fuel depth (skipSpace rest)
          .ok (entry :: more, rest)
        | rest => .error (.malformed .expectedComma rest.length)
      | rest => .error (.malformed .expectedColon rest.length)
    | cs => .error (.malformed .expectedName cs.length)

end

/-- A whole text as one value. Two units of fuel for each character are enough. -/
def readDocument (cs : Text) : Except Stop Value :=
  match cs with
  | .char '\uFEFF' :: _ => .error (.malformed .byteOrderMark cs.length)
  | cs => do
    let (v, rest) ← readValue (2 * cs.length + 2) depthLimit (skipSpace cs)
    match skipSpace rest with
    | [] => .ok v
    | rest => .error (.malformed .extraData rest.length)

/-- Why a text is no document. -/
inductive ReadFault where
  | malformed (fault : Fault)
  /-- A document that is well-formed as far as it was read, and cannot be taken in. -/
  | excessive (cause : Misuse)
  deriving DecidableEq, Repr

/-- Read a text. -/
def read (text : Text) : Except ReadFault Value :=
  match readDocument text with
  | .ok v => .ok v
  | .error (.malformed reason left) =>
    .error (.malformed ⟨reason, Text.placeAt text (text.length - left)⟩)
  | .error (.longInteger digits) => .error (.excessive (.longInteger digits))
  | .error (.tooDeep isList) => .error (.excessive (.documentTooDeep isList))

/-- The failure that a fault is, where `malformed` tells how malformed texts are told. -/
def ReadFault.failure (malformed : Fault → Failure) : ReadFault → Failure
  | .malformed fault => malformed fault
  | .excessive cause => .misuse cause

end HttpWorkbench.Json
