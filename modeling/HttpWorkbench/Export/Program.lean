import HttpWorkbench.Export.Registry

/-!
# Exporting requests

A request in, the text of a program out, by the registry of built-in languages.
-/

namespace HttpWorkbench.Export

/-- The generator that serves the language that a value names. -/
def generatorFor (registry : Registry) (language : Value) : Result Generator := do
  let (_, shared) ← registry.get language
  .ok shared.generator

/-- The program for a descriptor. -/
def render (registry : Registry) (d : Descriptor) (language : Value) : Result Text := do
  let generator ← generatorFor registry language
  generator.render d

/-- A request in one of the forms in which callers have it. -/
inductive Source where
  | descriptor (d : Descriptor)
  | saved (r : SavedRequest)
  | value (v : Value)

/-- The descriptor of a request. -/
def Source.toDescriptor : Source → Result Descriptor
  | .descriptor d => .ok d
  | .saved r => Descriptor.ofSaved r
  | .value v => Descriptor.ofValue v

/-- The program for a request. -/
def program (registry : Registry) (source : Source) (language : Value) : Result Text := do
  let d ← source.toDescriptor
  render registry d language

/-- The report on a request. Only a request without a shape and a language without a generator
leave no report. -/
def report (registry : Registry) (source : Source) (language : Value) : Result Report := do
  let d ← source.toDescriptor
  let generator ← generatorFor registry language
  .ok (Report.make generator d)

end HttpWorkbench.Export
