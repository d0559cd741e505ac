import HttpWorkbench.Export.Escape
import HttpWorkbench.Value.Access
import HttpWorkbench.Value.Text

/-!
# Templates

A template is a text with gaps, choices and repetitions, filled from a context that binds names
to values. A name is looked up when it is first needed, so a template that fails says which name
was missing, and names that a choice leaves out need not be bound.
-/

namespace HttpWorkbench.Export

/-- What the gaps of a template are filled from. -/
structure Context where
  bindings : List (Text × Value)
  /-- Whether the innermost repetition is at its last item. -/
  isLast : Bool

namespace Context

/-- A context of bindings, outside any repetition. -/
def ofBindings (bindings : List (Text × Value)) : Context := ⟨bindings, false⟩

/-- The value of a name. -/
def lookup (context : Context) (name : Text) : Except TemplateReason Value :=
  match Assoc.get? name context.bindings with
  | some v => .ok v
  | none => .error (.unbound name)

/-- The context for one item of a repetition. -/
def atItem (context : Context) (name : Text) (item : Value) (isLast : Bool) : Context :=
  ⟨(name, item) :: context.bindings, isLast⟩

end Context

/-- The name of a value's kind where a part of the value is missing. -/
def ownerName : Value → Text
  | .null => "None"
  | .language _ => "request_explorer.codegen.registry.TargetLanguage object"
  | v => v.kindName ++ " object"

/-- The two parts that an item of a repetition can have. -/
inductive ItemPart where
  | key
  | value
  deriving DecidableEq, Repr

/-- The name of a part. -/
def ItemPart.name : ItemPart → Text
  | .key => "key"
  | .value => "value"

/-- A part of a value: of a header, or the entry of a map under the part's name. -/
def ItemPart.ofValue : ItemPart → Value → Except TemplateReason Value
  | .key, .header k _ => .ok k
  | .value, .header _ v => .ok v
  | part, .map entries =>
    match Value.field? part.name entries with
    | some v => .ok v
    | none => .error (.noPart "dict object" part.name)
  | part, v => .error (.noPart (ownerName v) part.name)

/-- What fills a gap. -/
inductive Filling where
  | name (name : Text)
  | part (owner : Text) (part : ItemPart)
  deriving DecidableEq, Repr

/-- The value of a filling. -/
def Filling.value (context : Context) : Filling → Except TemplateReason Value
  | .name n => context.lookup n
  | .part owner p => do
    let v ← context.lookup owner
    p.ofValue v

/-- What decides a choice. -/
inductive Condition where
  /-- A named value counts as true. -/
  | holds (name : Text)
  /-- A name is not bound to null. A name that is not bound at all passes. -/
  | given (name : Text)
  deriving DecidableEq, Repr

/-- The outcome of a condition. -/
def Condition.decide (context : Context) : Condition → Except TemplateReason Bool
  | .holds name => do
    let v ← context.lookup name
    .ok v.isTrue
  | .given name =>
    match Assoc.get? name context.bindings with
    | some .null => .ok false
    | _ => .ok true

/-- A piece of a template. -/
inductive Piece where
  | text (s : Text)
  /-- A value in words. -/
  | word (filling : Filling)
  /-- A value, which has to be a text, by a quoting rule. -/
  | escaped (filling : Filling) (escape : Escape)
  | choice (condition : Condition) (yes no : List Piece)
  | each (item list : Text) (body : List Piece)
  /-- A comma, except at the last item of a repetition. -/
  | comma

/-- A template. -/
abbrev Template := List Piece

/-- Whole lines of text. -/
def Piece.lines (ls : List Text) : Piece := .text (ls.flatMap (· ++ "\n"))

/-- A named value, by a quoting rule. -/
def Piece.quoted (name : Text) (escape : Escape) : Piece := .escaped (.name name) escape

/-- A part of an item, between double quotes. -/
def Piece.headerPart (part : ItemPart) : Piece :=
  .escaped (.part "header" part) (.backslash '"')

/-- Something for each header that is sent. -/
def Piece.eachHeader (body : List Piece) : Piece := .each "header" "headers" body

/-- The items, each with whether it is the last. -/
def markLast : List α → List (α × Bool)
  | [] => []
  | [x] => [(x, true)]
  | x :: y :: rest => (x, false) :: markLast (y :: rest)

mutual

/-- The text of a piece. -/
def Piece.render (context : Context) : Piece → Except TemplateReason Text
  | .text s => .ok s
  | .word filling => do
    let v ← filling.value context
    .ok v.text
  | .escaped filling escape => do
    let v ← filling.value context
    let s ← (escape.applyTo v).mapError .misuse
    .ok s
  | .choice condition yes no => do
    let b ← condition.decide context
    if b then renderAll context yes else renderAll context no
  | .each item list body => do
    let v ← context.lookup list
    match v.items? with
    | none => .error (.misuse (.notIterable v.kindName))
    | some items => do
      let parts ← (markLast items).mapM fun (v, isLast) =>
        renderAll (context.atItem item v isLast) body
      .ok parts.flatten
  | .comma => .ok (if context.isLast then [] else [','])
termination_by structural piece => piece

/-- The text of a row of pieces. -/
def renderAll (context : Context) : List Piece → Except TemplateReason Text
  | [] => .ok []
  | piece :: rest => do
    let first ← piece.render context
    let others ← renderAll context rest
    .ok (first ++ others)
termination_by structural pieces => pieces

end

/-- The text of a template. -/
def Template.render (template : Template) (context : Context) : Except TemplateReason Text :=
  renderAll context template

end HttpWorkbench.Export
