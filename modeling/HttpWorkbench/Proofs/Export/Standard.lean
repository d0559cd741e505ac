import HttpWorkbench.Export.Program
import HttpWorkbench.Proofs.Export.TextRequest

/-!
# The languages that come with the program

Every language is registered from the start, and its tag leads to its own generator.
-/

namespace HttpWorkbench

/-- The generator that comes with the program for a language. -/
def Language.generator : Language → Export.Generator
  | .curl => Export.Curl.generator
  | .javascript => Export.JavaScript.generator
  | .python => Export.Python.generator
  | .php => Export.Php.generator
  | .csharp => Export.CSharp.generator
  | .go => Export.Go.generator

namespace Export

/-- A tag leads to the generator of its language. -/
theorem generatorFor_standard_tag (l : Language) :
    generatorFor .standard (.str l.tag) = .ok l.generator := by
  cases l <;> rfl

/-- A program in a language that is named by its tag is what the language's generator writes. -/
theorem render_standard_tag (l : Language) (d : Descriptor) :
    render .standard d (.str l.tag) = l.generator.render d := by
  rw [render, generatorFor_standard_tag, ok_bind]

/-- The program for a request made of texts is what the template of the language writes. -/
theorem render_standard_of_template (l : Language) (r : TextRequest) {file : TemplateFile}
    {more : List (Text × Value)} {code : Text} (hfile : l.generator.file = some file)
    (hmore : l.generator.extend r.descriptor r.parts = .ok more)
    (hcode : file.template.render (r.context more) = .ok code) :
    render .standard r.descriptor (.str l.tag) = .ok code := by
  rw [render_standard_tag]
  exact r.render_descriptor hfile hmore hcode

end Export

end HttpWorkbench
