import HttpWorkbench.Export.Body
import HttpWorkbench.Export.Template

/-!
# Generators

A generator turns a descriptor into the text of a program: it decides which parts of the request
are sent, adds what its language needs, and fills its template. It keeps nothing between two
descriptors. A report tells beside the text what was passed over, or why there is no text.
-/

namespace HttpWorkbench.Export

/-- The parts of a request that a program sends. -/
structure SentParts where
  method : Value
  url : Value
  /-- The headers with a usable key. -/
  headers : List Header
  /-- The body; null when the method carries none. -/
  body : Value
  /-- Whether the body is sent and has the shape of an object. -/
  isJson : Bool

/-- What of a descriptor is sent. -/
def SentParts.ofDescriptor (d : Descriptor) : Result SentParts := do
  let carried ← carriesBody d.method d.body
  let headers ← usableHeaders d.headers
  let isJson ← if carried then isJsonBody d.body else .ok false
  let body := if carried then d.body else .null
  .ok { method := d.method, url := d.url, headers, body, isJson }

/-- The bindings that every template knows. -/
def SentParts.bindings (parts : SentParts) : List (Text × Value) :=
  [("method", parts.method), ("url", parts.url),
    ("headers", .list (parts.headers.map Header.toValue)), ("body", parts.body),
    ("json_body", .bool parts.isJson)]

/-- A template, its name, and the directory that messages show for it. -/
structure TemplateFile where
  directory : Text
  name : Text
  template : Template

/-- The template that a name leads to in a directory. Empty parts and dots in the name mean nothing,
and a name that leads upwards finds nothing. -/
def TemplateFile.find (file : TemplateFile) (name : Text) : Except TemplateReason Template :=
  let parts := Text.splitAll '/' name
  if parts.contains ".." then .error (.notFound name none)
  else if parts.filter (fun (p : Text) => p != "" && p != ".") = [file.name] then .ok file.template
  else .error (.notFound name (some file.directory))

/-- A generator. -/
structure Generator where
  className : Text
  moduleName : Text
  /-- The tag of the language. -/
  languageName : Text
  /-- The language as users read it. -/
  displayName : Text
  /-- The ending of files with programs of the language. -/
  fileExtension : Text
  /-- The name of the highlighter for the language. -/
  syntaxName : Text
  file : Option TemplateFile
  /-- The bindings that the language adds. -/
  extend : Descriptor → SentParts → Result (List (Text × Value))

namespace Generator

/-- The bindings for a descriptor. -/
def bindings (g : Generator) (d : Descriptor) : Result (List (Text × Value)) := do
  let parts ← SentParts.ofDescriptor d
  let more ← g.extend d parts
  .ok (parts.bindings ++ more)

/-- The name of the template that the generator fills. -/
def templateName (g : Generator) : Option Text := g.file.map (·.name)

/-- Whether the generator has a template of the name. -/
def hasTemplate (g : Generator) (name : Value) : Bool :=
  g.file.any fun file => name == .str file.name

/-- The template that a name leads to. Only in a directory does a name have to be a text. -/
def findTemplate (g : Generator) (name : Value) : Except TemplateReason Template :=
  match g.file, name with
  | some file, .str name => file.find name
  | file, name =>
    if !name.isKey then .error (.misuse (.unhashable name.unkeyedKind))
    else if file.isNone then .error (.notFound name.text none)
    else
      match name with
      | .bytes _ => .error (.misuse (.bytesNeeded "str"))
      | v => .error (.misuse (.noAttribute v.kindName "split"))

/-- The context of a table of values. -/
def contextOfTable (table : List (Value × Value)) : Except TemplateReason Context := do
  let bindings : List (Text × Value) ← table.mapM fun (k, v) =>
    match k with
    | .str name => .ok (name, v)
    | _ => .error (.misuse .keywordsNotText)
  if Assoc.contains ("self" : Text) bindings then
    .error (.misuse (.repeatedArgument "Template.render" "self"))
  else .ok (.ofBindings bindings)

/-- The template of a name, filled from a table. -/
def renderNamed (g : Generator) (name : Value) (table : List (Value × Value)) : Result Text :=
  let text : Except TemplateReason Text := do
    let template ← g.findTemplate name
    let context ← contextOfTable table
    template.render context
  match text with
  | .ok code => .ok code
  | .error reason => .error (.template name.text reason)

/-- The program for a descriptor. -/
def render (g : Generator) (d : Descriptor) : Result Text :=
  match g.file with
  | none => .error (.noTemplate g.className)
  | some file => do
    let bindings ← g.bindings d
    match file.template.render (.ofBindings bindings) with
    | .ok code => .ok code
    | .error reason => .error (.template file.name reason)

/-- What a user may have meant otherwise. -/
def warnings (d : Descriptor) : Result (List Text) := do
  let usable ← usableHeaders d.headers
  let skipped := d.headers.length - usable.length
  .ok <|
    if skipped = 0 then []
    else [toString skipped ++ " header(s) with a blank name skipped"]

end Generator

/-- A program with what is to be said about it, or the failure that kept it from being made. -/
structure Report where
  code : Text
  warnings : List Text
  metadata : List (Text × Value)
  failure : Option Failure

namespace Report

/-- The failure in words. -/
def errorMessage (r : Report) : Option Text :=
  r.failure.map fun failure => "Code generation failed: " ++ failure.message

/-- The figures of a program. -/
def figures (g : Generator) (d : Descriptor) : Result (List (Text × Value)) := do
  let parts ← SentParts.ofDescriptor d
  let carried ← carriesBody d.method d.body
  .ok [("language", .str g.languageName), ("file_extension", .str g.fileExtension),
    ("method", d.method), ("header_count", .int parts.headers.length), ("has_body", .bool carried),
    ("json_body", .bool parts.isJson)]

/-- The report of a generator on a descriptor. -/
def make (g : Generator) (d : Descriptor) : Report :=
  let content : Result Report := do
    let warnings ← Generator.warnings d
    let code ← g.render d
    let metadata ← figures g d
    .ok { code, warnings, metadata, failure := none }
  match content with
  | .ok report => report
  | .error failure => { code := "", warnings := [], metadata := [], failure := some failure }

end Report

end HttpWorkbench.Export
