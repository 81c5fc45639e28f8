import DesignLint.Proofs.BracedWalk
import DesignLint.Proofs.IndentedWalk
import DesignLint.Source.Model

/-! The spans in the structure of any text. Whatever the text is, its classes follow one another, their
methods follow one another inside them, and their constructors lie where the family of the language
puts them. -/

namespace DesignLint

/-- Where the constructor of a class lies: on the first method with its name, or apart from every
method. -/
def Family.Places : Family → ClassDecl → ConstructorDecl → Prop
  | .indented, c, k => ∃ before m after, c.methods = before ++ m :: after ∧
      m.name = Indented.constructorName ∧ (∀ a ∈ before, a.name ≠ Indented.constructorName) ∧
      k.startLine = m.startLine ∧ k.endLine = m.endLine
  | .braced, c, k => ∀ m ∈ c.methods, k.endLine < m.startLine ∨ m.endLine < k.startLine

namespace Family

variable {lines : List Line}

theorem classes_wellFormed (f : Family) {c : ClassDecl} (hc : c ∈ f.classes lines) :
    c.WellFormed lines.length := by
  cases f with
  | indented => exact Indented.classes_wellFormed hc
  | braced => exact Braced.classes_wellFormed hc

theorem classes_ordered (f : Family) :
    (f.classes lines).Pairwise fun a b => a.endLine < b.startLine := by
  cases f with
  | indented => exact Indented.classes_ordered lines
  | braced => exact Braced.classes_ordered lines

theorem classes_places (f : Family) {c : ClassDecl} (hc : c ∈ f.classes lines) {k : ConstructorDecl}
    (hk : k ∈ c.constructor?) : f.Places c k := by
  cases f with
  | indented =>
    obtain ⟨d, hd, rfl⟩ := Indented.mem_classes.1 hc
    exact Indented.findConstructor_spec hk
  | braced => exact ((Braced.classes_spans lines).closed c hc).apart k hk

end Family

theorem Language.ofName?_name (l : Language) : Language.ofName? l.name = some l := by
  cases l <;> decide +kernel

namespace SourceModel

theorem ofText_name (text : String) (l : Language) :
    ofText text (some l.name) = ofLines l (Text.lines text) := by
  simp only [ofText, Option.bind_some, Language.ofName?_name]

/-- The classes of any text in any language follow one another, with nested and disjoint spans. -/
theorem classes_of_text_wellFormed (text : String) (l : Language) :
    (∀ c ∈ (ofText text (some l.name)).classes, c.WellFormed (Text.lines text).length) ∧
    (ofText text (some l.name)).classes.Pairwise (fun a b => a.endLine < b.startLine) ∧
    ∀ c ∈ (ofText text (some l.name)).classes, ∀ k ∈ c.constructor?, l.family.Places c k := by
  rw [ofText_name]
  refine ⟨fun c hc => ?_, ?_, fun c hc k hk => ?_⟩
  · exact l.family.classes_wellFormed hc
  · exact l.family.classes_ordered
  · exact l.family.classes_places hc hk

end SourceModel

end DesignLint
