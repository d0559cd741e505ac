import HttpWorkbench.Export.Curl
import HttpWorkbench.Export.JavaScript
import HttpWorkbench.Export.Python
import HttpWorkbench.Export.Php
import HttpWorkbench.Export.CSharp
import HttpWorkbench.Export.Go
import HttpWorkbench.Value.Sorted

/-!
# Registry of generators

Which generator serves a language, and which other names lead to the language. One instance of a
generator is shared by all who ask for it; it is dropped when the generator is replaced or
removed. Registering can fail between two aliases, and the aliases before stay.
-/

namespace HttpWorkbench.Export

/-- What can be registered for a language. -/
inductive GeneratorClass where
  | complete (generator : Generator)
  /-- A class that leaves some of its parts open, so that it has no instances. -/
  | incomplete (name : Text) (missing : List Text)

namespace GeneratorClass

/-- The name of the class. -/
def name : GeneratorClass → Text
  | .complete g => g.className
  | .incomplete name _ => name

/-- The generator that an instance of the class is. -/
def instantiate : GeneratorClass → Result Generator
  | .complete g => .ok g
  | .incomplete name missing => misused (.incompleteGenerator name missing)

/-- The class that every generator completes. -/
def base : GeneratorClass :=
  .incomplete "CodeGenerator" ["display_name", "file_extension", "language_name"]

end GeneratorClass

/-- A further name of a language. Only a text leads to it. -/
inductive Alias where
  | text (s : Text)
  | bytes (content : List UInt8)
  deriving DecidableEq, Repr

namespace Alias

/-- The alias that a value is, its case aside. -/
def ofValue (v : Value) : Result Alias := do
  let key ← v.lowered
  match key with
  | .str s => .ok (.text s)
  | .bytes b => .ok (.bytes b)
  | v => misused (.noAttribute v.kindName "lower")

/-- The alias as a value. -/
def toValue : Alias → Value
  | .text s => .str s
  | .bytes b => .bytes b

/-- The language whose tag the alias is, if there is one. -/
def tagged? : Alias → Option Language
  | .text s => Language.ofTag? s
  | .bytes _ => none

end Alias

/-- An instance that is shared, told from others by its number. -/
structure Instance where
  number : Nat
  generator : Generator

/-- Generators, further names of their languages, and shared instances. -/
structure Registry where
  classes : List (Language × GeneratorClass)
  aliases : List (Alias × Language)
  shared : List (Language × Instance)
  /-- How many instances have been made. -/
  made : Nat

namespace Registry

/-- Nothing registered. -/
def empty : Registry := ⟨[], [], [], 0⟩

/-- The languages with a generator, in listing order. -/
def languages (r : Registry) : List Language :=
  Language.all.filter fun l => Assoc.contains l r.classes

/-- The language that a text names, registered or not: an alias first, else a tag. Case and blanks
around the name do not count. -/
def named? (r : Registry) (name : Text) : Option Language :=
  let key := Text.lower (Text.trim name)
  match Assoc.get? (.text key) r.aliases with
  | some l => some l
  | none => Language.ofTag? key

/-- The language that a value names, registered or not. -/
def meant? (r : Registry) : Value → Option Language
  | .language l => some l
  | .str name => r.named? name
  | _ => none

/-- The registered language that a value names, with its class. -/
def find? (r : Registry) (language : Value) : Option (Language × GeneratorClass) := do
  let l ← r.meant? language
  let c ← Assoc.get? l r.classes
  some (l, c)

/-- The registered language that a value names, with its class, or a refusal. -/
def find (r : Registry) (language : Value) : Result (Language × GeneratorClass) :=
  match r.find? language with
  | some found => .ok found
  | none => .error (.unsupportedLanguage language.text r.languages)

/-- The registered language that a value names. -/
def resolve (r : Registry) (language : Value) : Result Language := do
  let (l, _) ← r.find language
  .ok l

/-- Whether a value names a registered language. -/
def isSupported (r : Registry) (language : Value) : Bool := (r.find? language).isSome

/-- The language that something is registered for: its tag, in any case. -/
def targetOf (language : Value) : Result Language :=
  match language with
  | .language l => .ok l
  | v =>
    match Language.ofTag? (Text.lower v.text) with
    | some l => .ok l
    | none => .error (.unsupportedLanguage v.text [])

/-- Why an alias may not be added, if so. A replacement may take any name. -/
def aliasConflict? (r : Registry) (target : Language) (given : Value) (key : Alias)
    (replace : Bool) : Option RegistryReason :=
  if replace then none
  else if key.tagged?.isSome then some (.aliasIsTag given.text)
  else
    match Assoc.get? key r.aliases with
    | some owner => if owner = target then none else some (.aliasTaken given.text owner)
    | none => none

/-- Add aliases of a language one after the other, up to the first that is refused. -/
def addAliases (r : Registry) (target : Language) (replace : Bool) :
    List Value → Registry × Result Unit
  | [] => (r, .ok ())
  | given :: rest =>
    match Alias.ofValue given with
    | .error failure => (r, .error failure)
    | .ok key =>
      if key.tagged? = some target then addAliases r target replace rest
      else
        match r.aliasConflict? target given key replace with
        | some reason => (r, .error (.registry reason))
        | none =>
          addAliases { r with aliases := Assoc.put key target r.aliases } target replace rest

/-- Bind a class to a language and add aliases. The first registration of a language wins, unless a
later one is to replace it. -/
def register (r : Registry) (language : Value) (candidate : Option GeneratorClass)
    (aliases : Value) (replace : Bool) : Registry × Result Unit :=
  match candidate with
  | none => (r, .error (.registry .notGenerator))
  | some c =>
    match targetOf language with
    | .error failure => (r, .error failure)
    | .ok target =>
      if Assoc.contains target r.classes && !replace then (r, .ok ())
      else
        let r := { r with
          classes := Assoc.put target c r.classes
          shared := Assoc.erase target r.shared }
        match (aliases.orElse (.list [])).items with
        | .error failure => (r, .error failure)
        | .ok items => r.addAliases target replace items

/-- Remove a language's generator, its aliases and its shared instance. -/
def unregister (r : Registry) (language : Value) : Result Registry := do
  let target ← r.resolve language
  .ok { r with
    classes := Assoc.erase target r.classes
    shared := Assoc.erase target r.shared
    aliases := r.aliases.filter fun a => a.2 ≠ target }

/-- The class of the generator for a language. -/
def classOf (r : Registry) (language : Value) : Result GeneratorClass := do
  let (_, c) ← r.find language
  .ok c

/-- A new instance of a language's generator. -/
def create (r : Registry) (language : Value) : Result (Registry × Instance) := do
  let c ← r.classOf language
  let generator ← c.instantiate
  .ok ({ r with made := r.made + 1 }, ⟨r.made, generator⟩)

/-- The shared instance of a language's generator. -/
def get (r : Registry) (language : Value) : Result (Registry × Instance) := do
  let (target, c) ← r.find language
  match Assoc.get? target r.shared with
  | some found => .ok (r, found)
  | none =>
    let generator ← c.instantiate
    let made : Instance := ⟨r.made, generator⟩
    .ok ({ r with shared := Assoc.put target made r.shared, made := r.made + 1 }, made)

/-- Whether asking twice gives one instance, and whether a new one is the shared one. -/
def sharing (r : Registry) (language : Value) : Result (Registry × Bool × Bool) := do
  let (r, first) ← r.get language
  let (r, second) ← r.get language
  let (r, fresh) ← r.create language
  let (r, again) ← r.get language
  .ok (r, first.number == second.number, fresh.number == again.number)

/-- The aliases of a language, in order. -/
def aliasesOf (r : Registry) (target : Language) : Result (List Alias) :=
  Value.sortBy Alias.toValue ((r.aliases.filter fun a => a.2 = target).map Prod.fst)

/-- The aliases of the language that a value names. -/
def aliasesFor (r : Registry) (language : Value) : Result (List Alias) := do
  let target ← r.resolve language
  r.aliasesOf target

/-- A tag with the names that are listed for it: the aliases of whatever the tag leads to. -/
def namesOf (r : Registry) (l : Language) : Result (Text × List Alias) := do
  let aliases ← r.aliasesFor (.str l.tag)
  .ok (l.tag, .text l.tag :: aliases)

/-- Every registered tag with the names that are listed for it. -/
def names (r : Registry) : Result (List (Text × List Alias)) := r.languages.mapM r.namesOf

/-- What users are told about a language. -/
structure LanguageInfo where
  name : Text
  displayName : Text
  className : Text
  fileExtension : Text
  aliases : List Alias
  moduleName : Text

/-- The description of the language that a value names. -/
def info (r : Registry) (language : Value) : Result (Registry × LanguageInfo) := do
  let target ← r.resolve language
  let (r, shared) ← r.get (.language target)
  let g := shared.generator
  let aliases ← r.aliasesOf target
  .ok (r, {
    name := g.languageName
    displayName := g.displayName
    className := g.className
    fileExtension := g.fileExtension
    aliases
    moduleName := g.moduleName })

/-- The languages that come with the program, with their generators and aliases. -/
def builtIn : List (Language × Generator × List Text) := [
  (.curl, Curl.generator, ["shell"]),
  (.javascript, JavaScript.generator, ["js", "fetch"]),
  (.python, Python.generator, ["py", "requests"]),
  (.php, Php.generator, []),
  (.csharp, CSharp.generator, ["c#", "cs"]),
  (.go, Go.generator, ["golang"])]

/-- The registry with every language that comes with the program. -/
def standard : Registry :=
  builtIn.foldl (fun r (l, g, aliases) =>
    (r.register (.language l) (some (.complete g)) (.ofTexts aliases) false).1) empty

end Registry

end HttpWorkbench.Export
