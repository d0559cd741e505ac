import HttpWorkbench.Value.Text

/-!
# Misused values

What goes wrong when an operation meets a value of a kind it cannot work with. Each cause keeps
what its message names, and belongs to one of six classes; some callers treat the classes
apart.
-/

namespace HttpWorkbench

/-- The class of a misuse. -/
inductive MisuseClass where
  /-- The kind of the value lacks an operation that is looked up by name. -/
  | missingAttribute
  /-- The kind of the value does not fit. -/
  | wrongKind
  /-- The kind fits, the value does not. -/
  | wrongValue
  /-- A number is beyond the range of the result. -/
  | overflow
  /-- A table cell cannot be drawn. -/
  | notDrawable
  /-- A value is nested too deeply. -/
  | tooDeep
  deriving DecidableEq, Repr

/-- An operation met a value that it cannot work with. -/
inductive Misuse where
  | noAttribute (kind name : Text)
  | notIterable (kind : Text)
  | noMembers (kind : Text)
  | notIndexable (kind : Text)
  | notUnpackable (kind : Text)
  | unhashable (kind : Text)
  | notJoinable
  | itemNotText (index : Nat) (kind : Text)
  | bytesNeeded (kind : Text)
  | bytesPrefixNeeded
  | textNeededOnLeft (kind : Text)
  | patternNeedsText (kind : Text)
  | unordered (relation left right : Text)
  | badSlice
  | pairNotSequence (index : Nat)
  | notSerializable (kind : Text)
  | keyNotSerializable (kind : Text)
  | keywordsNotText
  | repeatedArgument (operation name : Text)
  | unexpectedArgument (record name : Text)
  | missingArguments (record : Text) (names : List Text)
  | notPath (kind : Text)
  | bytesPath
  | notLevel (shown : Text)
  | incompleteGenerator (name : Text) (missing : List Text)
  | noFormat (kind : Text)
  | tooFewParts (found : Nat)
  | tooManyParts
  | pairLength (index length : Nat)
  | unknownFormatCode (kind : Text)
  | negativeLimit (shown : Text)
  | longInteger (digits : Nat)
  | byteOutOfRange
  | nullInPath
  | integerTooLarge
  | quotientTooLarge
  | notDrawable (kind : Text)
  | noArithmetic (operator left right : Text)
  /-- A list, or else an object, of a document is nested too deeply. -/
  | documentTooDeep (isList : Bool)
  | valueTooDeep
  deriving DecidableEq, Repr

namespace Misuse

/-- The class of a cause. -/
def category : Misuse → MisuseClass
  | .noAttribute .. => .missingAttribute
  | .tooFewParts _ | .tooManyParts | .pairLength .. | .unknownFormatCode _ | .negativeLimit _
  | .longInteger _ | .byteOutOfRange | .nullInPath => .wrongValue
  | .integerTooLarge | .quotientTooLarge => .overflow
  | .notDrawable _ => .notDrawable
  | .documentTooDeep _ | .valueTooDeep => .tooDeep
  | _ => .wrongKind

/-- Quoted names in a row, the last after an `and`. -/
def nameList : List Text → Text
  | [] => ""
  | [a] => Text.quoted a
  | [a, b] => Text.quoted a ++ " and " ++ Text.quoted b
  | names =>
    Text.join ", " (names.dropLast.map Text.quoted) ++ ", and " ++
      Text.quoted (names.getLast?.getD "")

/-- The cause in words. -/
def message : Misuse → Text
  | .noAttribute kind name => "'" ++ kind ++ "' object has no attribute '" ++ name ++ "'"
  | .notIterable kind => "'" ++ kind ++ "' object is not iterable"
  | .noMembers kind => "argument of type '" ++ kind ++ "' is not iterable"
  | .notIndexable kind => "'" ++ kind ++ "' object is not subscriptable"
  | .notUnpackable kind => "cannot unpack non-iterable " ++ kind ++ " object"
  | .unhashable kind => "unhashable type: '" ++ kind ++ "'"
  | .notJoinable => "can only join an iterable"
  | .itemNotText index kind =>
    "sequence item " ++ toString index ++ ": expected str instance, " ++ kind ++ " found"
  | .bytesNeeded kind => "a bytes-like object is required, not '" ++ kind ++ "'"
  | .bytesPrefixNeeded => "startswith first arg must be bytes or a tuple of bytes, not str"
  | .textNeededOnLeft kind => "'in <string>' requires string as left operand, not " ++ kind
  | .patternNeedsText kind => "expected string or bytes-like object, got '" ++ kind ++ "'"
  | .unordered relation left right =>
    "'" ++ relation ++ "' not supported between instances of '" ++ left ++ "' and '" ++ right ++ "'"
  | .badSlice => "slice indices must be integers or None or have an __index__ method"
  | .pairNotSequence index =>
    "cannot convert dictionary update sequence element #" ++ toString index ++ " to a sequence"
  | .notSerializable kind => "Object of type " ++ kind ++ " is not JSON serializable"
  | .keyNotSerializable kind => "keys must be str, int, float, bool or None, not " ++ kind
  | .keywordsNotText => "keywords must be strings"
  | .repeatedArgument operation name =>
    operation ++ "() got multiple values for argument '" ++ name ++ "'"
  | .unexpectedArgument record name =>
    record ++ ".__init__() got an unexpected keyword argument '" ++ name ++ "'"
  | .missingArguments record names =>
    record ++ ".__init__() missing " ++ toString names.length ++ " required positional argument" ++
      (if names.length = 1 then "" else "s") ++ ": " ++ nameList names
  | .notPath kind => "expected str, bytes or os.PathLike object, not " ++ kind
  | .bytesPath =>
    "argument should be a str object or an os.PathLike object returning str, not <class 'bytes'>"
  | .notLevel shown => "Level not an integer or a valid string: " ++ shown
  | .incompleteGenerator name missing =>
    "Can't instantiate abstract class " ++ name ++ " with abstract methods " ++
      Text.join ", " missing
  | .noFormat kind => "unsupported format string passed to " ++ kind ++ ".__format__"
  | .tooFewParts found => "not enough values to unpack (expected 2, got " ++ toString found ++ ")"
  | .tooManyParts => "too many values to unpack (expected 2)"
  | .pairLength index length =>
    "dictionary update sequence element #" ++ toString index ++ " has length " ++
      toString length ++ "; 2 is required"
  | .unknownFormatCode kind => "Unknown format code 'f' for object of type '" ++ kind ++ "'"
  | .negativeLimit shown => "max_items must be non-negative, got " ++ shown
  | .longInteger digits =>
    "Exceeds the limit (4300 digits) for integer string conversion: value has " ++
      toString digits ++ " digits; use sys.set_int_max_str_digits() to increase the limit"
  | .byteOutOfRange => "byte must be in range(0, 256)"
  | .nullInPath => "embedded null byte"
  | .integerTooLarge => "int too large to convert to float"
  | .quotientTooLarge => "integer division result too large for a float"
  | .notDrawable kind =>
    "unable to render " ++ kind ++ "; a string or other renderable object is required"
  | .noArithmetic operator left right =>
    "unsupported operand type(s) for " ++ operator ++ ": '" ++ left ++ "' and '" ++ right ++ "'"
  | .documentTooDeep isList =>
    "maximum recursion depth exceeded while decoding a JSON " ++
      (if isList then "array" else "object") ++ " from a unicode string"
  | .valueTooDeep => "maximum recursion depth exceeded"

end Misuse

end HttpWorkbench
