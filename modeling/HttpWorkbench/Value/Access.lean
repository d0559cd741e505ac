import HttpWorkbench.Failure
import HttpWorkbench.Text.Blank
import HttpWorkbench.Text.Case

/-!
# Working with values

Reading a value as what an operation needs: as items, as entries, as a text. Each operation works
on the kinds that support it and names the kind of any other value in its failure.
-/

namespace HttpWorkbench.Value

/-- The items that a value runs through: those of a list, the characters of a text, the numbers
of a byte string, the keys of a map. -/
def items? : Value → Option (List Value)
  | .list xs => some xs
  | .str s => some (s.map fun c => .str [c])
  | .bytes b => some (b.map fun n => .int n.toNat)
  | .map es => some (es.map Prod.fst)
  | _ => none

/-- The items of a value that has any. -/
def items (v : Value) : Result (List Value) :=
  match v.items? with
  | some xs => .ok xs
  | none => misused (.notIterable v.kindName)

/-- The entries of a map; `operation` names what asks for them. -/
def entriesFor (operation : Text) : Value → Result (List (Value × Value))
  | .map es => .ok es
  | v => misused (.noAttribute v.kindName operation)

/-- The entry of a map under a text, if there is one. -/
def field? (name : Text) (entries : List (Value × Value)) : Option Value :=
  Assoc.get? (.str name) entries

/-- The entry under a text, or a value in its place. -/
def fieldOr (name : Text) (entries : List (Value × Value)) (other : Value) : Value :=
  (field? name entries).getD other

/-- A key that can be looked up or stored. -/
def asKey (v : Value) : Result Value :=
  if v.isKey then .ok v else misused (.unhashable v.unkeyedKind)

/-- The pairs that the items of a list of pairs stand for, numbered from `index`. -/
def pairsFrom (index : Nat) : List Value → Result (List (Value × Value))
  | [] => .ok []
  | v :: rest =>
    match v.items? with
    | none => misused (.pairNotSequence index)
    | some [key, value] => do
      let key ← key.asKey
      let more ← pairsFrom (index + 1) rest
      .ok ((key, value) :: more)
    | some parts => misused (.pairLength index parts.length)

/-- The dictionary that a map, or a row of pairs, stands for. -/
def toDictionary : Value → Result (List (Value × Value))
  | .map es => .ok es
  | v => do
    let rows ← v.items
    let pairs ← pairsFrom 0 rows
    .ok (Assoc.ofList pairs)

/-- The two parts of an entry that is a row of two. -/
def twoParts (v : Value) : Result (Value × Value) :=
  match v.items? with
  | none => misused (.notUnpackable v.kindName)
  | some [a, b] => .ok (a, b)
  | some parts =>
    if parts.length < 2 then misused (.tooFewParts parts.length) else misused .tooManyParts

/-- Apply a text operation, named for the failure, to a text or, in its own way, to bytes. -/
def onText (operation : Text) (text : Text → Text) (bytes : List UInt8 → List UInt8) :
    Value → Result Value
  | .str s => .ok (.str (text s))
  | .bytes b => .ok (.bytes (bytes b))
  | v => misused (.noAttribute v.kindName operation)

/-- ASCII white space among bytes. -/
def isBlankByte (b : UInt8) : Bool := b == 0x20 || (0x09 ≤ b && b ≤ 0x0D)

/-- A byte with its ASCII capital made small. -/
def lowerByte (b : UInt8) : UInt8 := if 0x41 ≤ b && b ≤ 0x5A then b + 0x20 else b

/-- A byte with its ASCII small letter made capital. -/
def upperByte (b : UInt8) : UInt8 := if 0x61 ≤ b && b ≤ 0x7A then b - 0x20 else b

/-- The value without blanks at either end. -/
def trimmed (v : Value) : Result Value :=
  v.onText "strip" Text.trim (Text.trimWhile isBlankByte)

/-- The value in lower case. -/
def lowered (v : Value) : Result Value := v.onText "lower" Text.lower (List.map lowerByte)

/-- The value in upper case. -/
def uppered (v : Value) : Result Value := v.onText "upper" Text.upper (List.map upperByte)

/-- Whether a value occurs in another: as an item, a key, a part of a text. -/
def isIn (part : Value) : Value → Result Bool
  | .list xs => .ok (xs.any (· == part))
  | .map es => do
    let key ← part.asKey
    .ok (Assoc.contains key es)
  | .str s =>
    match part with
    | .str p => .ok (Text.occurs p s)
    | v => misused (.textNeededOnLeft v.kindName)
  | .bytes b =>
    match part with
    | .bytes p => .ok (Text.occursIn p b)
    | .int n =>
      if 0 ≤ n ∧ n < 256 then .ok (b.any fun x => (x.toNat : Int) == n) else misused .byteOutOfRange
    | .bool t => .ok (b.any fun x => x.toNat == if t then 1 else 0)
    | v => misused (.bytesNeeded v.kindName)
  | v => misused (.noMembers v.kindName)

/-- Texts with a separator between neighbours, numbered from `index`. -/
def joinFrom (separator : Text) (index : Nat) : List Value → Result (List Text)
  | [] => .ok []
  | .str s :: rest => do
    let more ← joinFrom separator (index + 1) rest
    .ok (s :: more)
  | v :: _ => misused (.itemNotText index v.kindName)

@[simp] theorem joinFrom_map_str (separator : Text) (index : Nat) (texts : List Text) :
    joinFrom separator index (texts.map .str) = .ok texts := by
  induction texts generalizing index with
  | nil => rfl
  | cons s texts ih => rw [List.map_cons, joinFrom, ih]; rfl

/-- The items of a value, all texts, with a separator between neighbours. -/
def joined (separator : Text) (v : Value) : Result Text :=
  match v.items? with
  | none => misused .notJoinable
  | some xs => do
    let texts ← joinFrom separator 0 xs
    .ok (Text.join separator texts)

end HttpWorkbench.Value
