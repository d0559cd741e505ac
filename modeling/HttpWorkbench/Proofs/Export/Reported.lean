import HttpWorkbench.Export.Program
import HttpWorkbench.Proofs.Result

/-!
# Failures that are reported

A report holds the program that rendering gives, or the failure that kept it from being made. It
covers the rendering only. Where the headers of a request have no shape that they can be read in,
there is no descriptor to render, and asking for a report fails instead.
-/

namespace HttpWorkbench

namespace Descriptor

end Descriptor

namespace Export

/-- What is rendered has parts that are sent. -/
theorem Generator.exists_parts_of_render {g : Generator} {d : Descriptor} {code : Text}
    (h : g.render d = .ok code) : ∃ parts, SentParts.ofDescriptor d = .ok parts := by
  unfold Generator.render at h
  split at h
  · cases h
  · obtain ⟨bindings, hbindings, -⟩ := bind_eq_ok_iff.mp h
    obtain ⟨parts, hparts, -⟩ := bind_eq_ok_iff.mp hbindings
    exact ⟨parts, hparts⟩

/-- What is rendered can be reported on: the figures and warnings look at nothing else. -/
theorem exists_figures_of_parts {g : Generator} {d : Descriptor} {parts : SentParts}
    (h : SentParts.ofDescriptor d = .ok parts) :
    ∃ warnings metadata, Generator.warnings d = .ok warnings ∧ Report.figures g d = .ok metadata := by
  obtain ⟨carried, hcarried, hrest⟩ := bind_eq_ok_iff.mp h
  obtain ⟨usable, husable, -⟩ := bind_eq_ok_iff.mp hrest
  have hwarnings : ∃ warnings, Generator.warnings d = .ok warnings := by
    rw [Generator.warnings, husable]
    exact ⟨_, rfl⟩
  have hfigures : ∃ metadata, Report.figures g d = .ok metadata := by
    rw [Report.figures, h, ok_bind, hcarried]
    exact ⟨_, rfl⟩
  obtain ⟨warnings, hwarnings⟩ := hwarnings
  obtain ⟨metadata, hfigures⟩ := hfigures
  exact ⟨warnings, metadata, hwarnings, hfigures⟩

/-- What a generator reports on a descriptor is what it renders, or why it renders nothing. -/
theorem Report.make_cases (g : Generator) (d : Descriptor) :
    (∃ code, g.render d = .ok code ∧ (Report.make g d).code = code ∧
      (Report.make g d).failure = none) ∨
    ∃ failure cause, g.render d = .error cause ∧ Report.make g d = ⟨"", [], [], some failure⟩ := by
  cases hrender : g.render d with
  | ok code =>
    obtain ⟨parts, hparts⟩ := Generator.exists_parts_of_render hrender
    obtain ⟨warnings, metadata, hwarnings, hfigures⟩ := exists_figures_of_parts (g := g) hparts
    refine .inl ⟨code, rfl, ?_⟩
    rw [Report.make, hwarnings, hrender, hfigures]
    exact ⟨rfl, rfl⟩
  | error cause =>
    cases hwarnings : Generator.warnings d with
    | ok warnings => exact .inr ⟨cause, cause, rfl, by rw [Report.make, hwarnings, hrender]; rfl⟩
    | error failure => exact .inr ⟨failure, cause, rfl, by rw [Report.make, hwarnings]; rfl⟩

theorem program_eq_render {registry : Registry} {language : Value} {g : Generator}
    (hlanguage : generatorFor registry language = .ok g) {source : Source} {d : Descriptor}
    (hsource : source.toDescriptor = .ok d) : program registry source language = g.render d := by
  rw [program, hsource, ok_bind, render, hlanguage, ok_bind]

end Export

end HttpWorkbench
