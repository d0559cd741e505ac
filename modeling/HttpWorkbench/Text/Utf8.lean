import HttpWorkbench.Text.Quoted

/-!
# UTF-8

Decoding stops at the first byte sequence that no character has, and tells its bytes, its place
and what is wrong with it. A sequence is cut at the first byte that cannot continue it, so the
bytes reported are the longest beginning of a character that is there. Encoding stops at the
first half of a character and tells all the halves in a row there.
-/

namespace HttpWorkbench.Text.Utf8

/-- What is wrong with a byte sequence. -/
inductive Reason
  | invalidStart
  | invalidContinuation
  | unexpectedEnd
  deriving DecidableEq, Repr

/-- The bytes that no character has, and how many bytes stand before them. -/
structure Fault where
  position : Nat
  bytes : List UInt8
  reason : Reason
  deriving DecidableEq, Repr

/-- Whether the byte continues a character. -/
def isContinuation (b : UInt8) : Bool := 0x80 ≤ b && b < 0xC0

/-- How many bytes a character with this first byte has, if there is one. -/
def sequenceLength? (b : UInt8) : Option Nat :=
  if b < 0x80 then some 1
  else if b < 0xC2 then none
  else if b < 0xE0 then some 2
  else if b < 0xF0 then some 3
  else if b < 0xF5 then some 4
  else none

/-- Whether a second byte may follow the first: it continues a character, is not part of an
overlong form or a half, and stays below the last code point. -/
def mayFollow (first second : UInt8) : Bool :=
  isContinuation second &&
    (first != 0xE0 || 0xA0 ≤ second) && (first != 0xED || second < 0xA0) &&
    (first != 0xF0 || 0x90 ≤ second) && (first != 0xF4 || second < 0x90)

/-- The six payload bits of a continuation byte. -/
def payload (b : UInt8) : Nat := b.toNat % 0x40

/-- Decode bytes of which `position` have been read before. -/
def decodeFrom (position : Nat) : List UInt8 → Except Fault Text
  | [] => .ok []
  | b :: rest =>
    match sequenceLength? b, rest with
    | none, _ => .error ⟨position, [b], .invalidStart⟩
    | some 1, rest => (decodeFrom (position + 1) rest).map (Char.ofNat b.toNat :: ·)
    | some _, [] => .error ⟨position, [b], .unexpectedEnd⟩
    | some n, c :: rest =>
      if !mayFollow b c then .error ⟨position, [b], .invalidContinuation⟩
      else
        match n, rest with
        | 2, rest =>
          (decodeFrom (position + 2) rest).map
            (Char.ofNat ((b.toNat - 0xC0) * 0x40 + payload c) :: ·)
        | _, [] => .error ⟨position, [b, c], .unexpectedEnd⟩
        | n, d :: rest =>
          if !isContinuation d then .error ⟨position, [b, c], .invalidContinuation⟩
          else
            match n, rest with
            | 3, rest =>
              (decodeFrom (position + 3) rest).map
                (Char.ofNat (((b.toNat - 0xE0) * 0x40 + payload c) * 0x40 + payload d) :: ·)
            | _, [] => .error ⟨position, [b, c, d], .unexpectedEnd⟩
            | _, e :: rest =>
              if !isContinuation e then .error ⟨position, [b, c, d], .invalidContinuation⟩
              else
                (decodeFrom (position + 4) rest).map
                  (Char.ofNat ((((b.toNat - 0xF0) * 0x40 + payload c) * 0x40 + payload d) * 0x40
                    + payload e) :: ·)

/-- The text that the bytes encode. -/
def decode (bytes : List UInt8) : Except Fault Text := decodeFrom 0 bytes

/-- The bytes of a character; a half has none. -/
def bytesOf : CodePoint → List UInt8
  | .char c => String.utf8EncodeChar c
  | .half _ => []

/-- The bytes of a text without halves. -/
def encode (s : Text) : List UInt8 := s.flatMap bytesOf

/-- The halves in a row at which encoding stops, and how many characters stand before them. -/
structure EncodingFault where
  position : Nat
  halves : Text
  deriving DecidableEq, Repr

/-- Where encoding a text stops, if it does. -/
def encodingFault? (cs : Text) : Option EncodingFault :=
  match cs.dropWhile fun c => !c.isHalf with
  | [] => none
  | rest => some ⟨cs.length - rest.length, rest.takeWhile CodePoint.isHalf⟩

/-- Encoding stops nowhere exactly when the text has no half. -/
theorem encodingFault?_eq_none_iff {cs : Text} :
    encodingFault? cs = none ↔ ∀ c ∈ cs, c.isHalf = false := by
  induction cs with
  | nil => simp [encodingFault?]
  | cons c rest ih =>
    cases h : c.isHalf with
    | true => simp [encodingFault?, h]
    | false =>
      have keep : encodingFault? (c :: rest) = none ↔ encodingFault? rest = none := by
        unfold encodingFault?
        rw [List.dropWhile_cons_of_pos (by simp [h])]
        split <;> simp
      rw [keep, ih]
      simp [h]

/-- The words for a reason. -/
def Reason.message : Reason → Text
  | .invalidStart => "invalid start byte"
  | .invalidContinuation => "invalid continuation byte"
  | .unexpectedEnd => "unexpected end of data"

/-- The fault in words; one byte is shown, of several the first and last place. -/
def Fault.message (f : Fault) : Text :=
  let place :=
    match f.bytes with
    | [b] => "byte 0x" ++ hexDigits 2 b.toNat ++ " in position " ++ toString f.position
    | bytes => "bytes in position " ++ toString f.position ++ "-" ++
        toString (f.position + bytes.length - 1)
  "'utf-8' codec can't decode " ++ place ++ ": " ++ f.reason.message

/-- The fault in words; one half is shown, of several the first and last place. -/
def EncodingFault.message (f : EncodingFault) : Text :=
  let place :=
    match f.halves with
    | [c] => "character '" ++ numericEscape c.value ++ "' in position " ++ toString f.position
    | halves => "characters in position " ++ toString f.position ++ "-" ++
        toString (f.position + halves.length - 1)
  "'utf-8' codec can't encode " ++ place ++ ": surrogates not allowed"

end HttpWorkbench.Text.Utf8
