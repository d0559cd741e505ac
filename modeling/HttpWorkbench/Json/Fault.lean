import HttpWorkbench.Text.Lines

/-!
# Malformed documents

Why a text is no JSON document, and where.
-/

namespace HttpWorkbench.Json

/-- What was found or missed at a place of the text. -/
inductive Reason where
  | expectedValue
  | expectedComma
  | expectedColon
  | expectedName
  | extraData
  | unterminatedString
  | invalidEscape
  | invalidUnicodeEscape
  | invalidControl
  | byteOrderMark
  deriving DecidableEq, Repr

/-- The words for a reason. -/
def Reason.message : Reason → Text
  | .expectedValue => "Expecting value"
  | .expectedComma => "Expecting ',' delimiter"
  | .expectedColon => "Expecting ':' delimiter"
  | .expectedName => "Expecting property name enclosed in double quotes"
  | .extraData => "Extra data"
  | .unterminatedString => "Unterminated string starting at"
  | .invalidEscape => "Invalid \\escape"
  | .invalidUnicodeEscape => "Invalid \\uXXXX escape"
  | .invalidControl => "Invalid control character at"
  | .byteOrderMark => "Unexpected UTF-8 BOM (decode using utf-8-sig)"

/-- A reason and its place. -/
structure Fault where
  reason : Reason
  place : Text.Place
  deriving DecidableEq, Repr

/-- The fault in words. -/
def Fault.message (f : Fault) : Text := f.reason.message ++ ": " ++ f.place.message

end HttpWorkbench.Json
