import HttpWorkbench.Assoc
import HttpWorkbench.Language
import HttpWorkbench.Number.Written
import HttpWorkbench.Text.Search

/-!
# Values

What documents, option tables and callers hand over before anything has been checked: the
values of a document, and beside them byte strings, languages and headers. Records keep such
values in their fields, since nothing forbids a document to put a number where a text belongs;
an operation that needs a text says so when it meets something else.
-/

namespace HttpWorkbench

/-- A value of any kind. Maps keep the order of their entries. -/
inductive Value where
  | null
  | bool (b : Bool)
  | int (n : Int)
  | float (x : Binary64)
  | str (s : Text)
  | bytes (content : List UInt8)
  | list (items : List Value)
  | map (entries : List (Value × Value))
  | language (l : Language)
  | header (key value : Value)

namespace Value

instance : Inhabited Value := ⟨.null⟩

/-- The name that messages give to the kind of a value. -/
def kindName : Value → Text
  | .null => "NoneType"
  | .bool _ => "bool"
  | .int _ => "int"
  | .float _ => "float"
  | .str _ => "str"
  | .bytes _ => "bytes"
  | .list _ => "list"
  | .map _ => "dict"
  | .language _ => "TargetLanguage"
  | .header _ _ => "Header"

/-- Whether a condition on the value holds: what is null, zero or empty does not count. -/
def isTrue : Value → Bool
  | .null => false
  | .bool b => b
  | .int n => n != 0
  | .float x => !x.isZero
  | .str s => !s.isEmpty
  | .bytes b => !b.isEmpty
  | .list xs => !xs.isEmpty
  | .map es => !es.isEmpty
  | .language _ => true
  | .header _ _ => true

theorem isTrue_str {s : Text} (h : s ≠ []) : (Value.str s).isTrue = true := by
  cases s with
  | nil => exact absurd rfl h
  | cons c s => rfl

/-- Whether the value is a text. -/
def isText : Value → Bool
  | .str _ => true
  | _ => false

/-- The value, or another one in place of what does not count. -/
def orElse (v other : Value) : Value := if v.isTrue then v else other

/-- The integer that a truth value or an integer stands for. -/
def asInt? : Value → Option Int
  | .bool b => some (if b then 1 else 0)
  | .int n => some n
  | _ => none

mutual

/-- Whether a list or a map takes two values for the same. Numbers and truth values are compared by
what they count, maps without regard to order; what is no number is known by its mark. -/
def same : Value → Value → Bool
  | .list xs, .list ys => sameItems xs ys
  | .map es, .map fs => es.length == fs.length && sameEntries es fs
  | .header k v, .header k' v' => k.same k' && v.same v'
  | .null, .null => true
  | .str s, .str t => s == t
  | .bytes a, .bytes b => a == b
  | .language l, .language m => l == m
  | .float x, .float y => x.same y
  | .float x, w => w.asInt?.any fun n => x.compareInt? n == some .eq
  | v, .float y => v.asInt?.any fun n => y.compareInt? n == some .eq
  | v, w =>
    match v.asInt?, w.asInt? with
    | some a, some b => a == b
    | _, _ => false
termination_by structural v => v

/-- Whether two lists are the same, place by place. -/
def sameItems : List Value → List Value → Bool
  | [], [] => true
  | x :: xs, y :: ys => x.same y && sameItems xs ys
  | _, _ => false
termination_by structural xs => xs

/-- Whether each entry of the first map is an entry of the second. -/
def sameEntries : List (Value × Value) → List (Value × Value) → Bool
  | [], _ => true
  | (k, v) :: es, fs =>
    (match fs.find? fun f => k.same f.1 with
      | some f => v.same f.2
      | none => false) && sameEntries es fs
termination_by structural es => es

end

instance : BEq Value := ⟨same⟩

/-- Whether two values are equal. They are when they are the same, except that what is no number
equals nothing. -/
def isEqual : Value → Value → Bool
  | .float x, .float y => x.isEqual y
  | v, w => v.same w

@[simp] theorem isEqual_str (s t : Text) : isEqual (.str s) (.str t) = (s == t) := rfl

mutual

/-- Whether the value can be a key: lists and maps cannot, nor a header that holds one. -/
def isKey : Value → Bool
  | .list _ => false
  | .map _ => false
  | .header k v => k.isKey && v.isKey
  | _ => true

end

/-- The kind that keeps a value from being a key. -/
def unkeyedKind : Value → Text
  | .header k v => if k.isKey then v.unkeyedKind else k.unkeyedKind
  | v => v.kindName

/-- A text as a value. -/
instance : Coe Text Value := ⟨.str⟩

/-- A map from texts. -/
def ofFields (fields : List (Text × Value)) : Value :=
  .map (fields.map fun (k, v) => (.str k, v))

/-- A list of texts. -/
def ofTexts (texts : List Text) : Value := .list (texts.map .str)

/-- An optional text. -/
def ofText? : Option Text → Value
  | some s => .str s
  | none => .null

end Value

end HttpWorkbench
