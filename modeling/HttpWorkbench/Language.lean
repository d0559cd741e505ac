import HttpWorkbench.Text.Basic

/-!
# Target languages

The closed set of languages that a request can be exported to, in the order in which they are
listed. The tag is the name that users type, the member name the one that messages show.
-/

namespace HttpWorkbench

/-- A language that requests are exported to. -/
inductive Language where
  | curl
  | javascript
  | python
  | php
  | csharp
  | go
  deriving DecidableEq, Repr

namespace Language

/-- Every language, in listing order. -/
def all : List Language := [.curl, .javascript, .python, .php, .csharp, .go]

/-- The name that users type. -/
def tag : Language → String
  | .curl => "curl"
  | .javascript => "javascript"
  | .python => "python"
  | .php => "php"
  | .csharp => "csharp"
  | .go => "go"

/-- The name that messages show. -/
def memberName : Language → String
  | .curl => "CURL"
  | .javascript => "JAVASCRIPT"
  | .python => "PYTHON"
  | .php => "PHP"
  | .csharp => "CSHARP"
  | .go => "GO"

/-- The language with this tag. -/
def ofTag? (tag : Text) : Option Language := all.find? fun l => l.tag == tag

theorem mem_all (l : Language) : l ∈ all := by cases l <;> decide

/-- Tags tell languages apart. -/
theorem tag_injective {l m : Language} (h : l.tag = m.tag) : l = m := by
  cases l <;> cases m <;> simp_all [tag]

/-- Every language is found by its tag. -/
theorem ofTag?_tag (l : Language) : ofTag? l.tag = some l := by
  have same (m : Language) : (Text.ofString m.tag == Text.ofString l.tag) = (m == l) := by
    rw [Bool.eq_iff_iff, beq_iff_eq, beq_iff_eq]
    exact ⟨fun h => tag_injective (Text.ofString_injective h), fun h => h ▸ rfl⟩
  simp only [ofTag?, same]
  cases l <;> decide

/-- A tag is that of the language it is found for. -/
theorem eq_tag_of_ofTag? {tag : Text} {l : Language} (h : ofTag? tag = some l) : tag = l.tag := by
  rw [ofTag?] at h
  have hsame := List.find?_some h
  exact (beq_iff_eq.mp hsame).symm

end Language

end HttpWorkbench
