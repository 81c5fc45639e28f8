import DesignLint.Pattern
import DesignLint.Source.Declaration

/-! Type tests in the lines of a method: places where code asks what type a value has. -/

namespace DesignLint

/-- How the type of a value is asked for. `other` stands for a kind that is not counted. -/
inductive TypeTestKind
  | instanceOf
  | typeEquality
  | typeOf
  | typeField
  | other (name : String)
  deriving Repr, DecidableEq

def TypeTestKind.name : TypeTestKind → String
  | .instanceOf => "instanceof"
  | .typeEquality => "type_equality"
  | .typeOf => "typeof"
  | .typeField => "type_field"
  | .other name => name

def TypeTestKind.ofName : String → TypeTestKind
  | "instanceof" => .instanceOf
  | "type_equality" => .typeEquality
  | "typeof" => .typeOf
  | "type_field" => .typeField
  | name => .other name

structure TypeTest where
  line : Int
  kind : TypeTestKind
  code : String
  deriving Repr, DecidableEq

namespace Source

/-- A form of type test. Its pattern gives the name that the type is compared with where that matters. -/
structure TypeTestForm where
  kind : TypeTestKind
  pattern : Pattern (Option Pattern.Taken)
  /-- Behind which characters the form may start. -/
  starts : Option Char → Bool

/-- The type tests of a way of writing code: the forms to look for, the names that do not count, and
whether a case label is a type test when the lines before it are given. -/
structure TypeTestForms where
  forms : List TypeTestForm
  plainTags : List String
  isDispatch : List Line → Bool

def optionalQuote : Pattern Unit := do
  let _ ← Pattern.optional (.one fun c => c == '\x22' || c == '\x27')
  pure ()

def caseLabel : Pattern Unit := do
  .blanks
  .text "case"
  .blanks1
  optionalQuote
  let _ ← Pattern.word
  optionalQuote
  .blanks
  .char ':'

def TypeTestForms.ofForm (forms : TypeTestForms) (line : Line) (number : Int)
    (form : TypeTestForm) : List TypeTest :=
  (form.pattern.findAll form.starts line).filterMap fun found =>
    if found.value.any fun tag => String.ofList tag.chars ∈ forms.plainTags then none
    else some ⟨number, form.kind, String.ofList found.code⟩

def TypeTestForms.onLine (forms : TypeTestForms) (before : List Line) (line : Line) (number : Int) :
    List TypeTest :=
  forms.forms.flatMap (forms.ofForm line number)
    ++ if caseLabel.accepts line && forms.isDispatch before
      then [⟨number, .typeField, String.ofList (Text.trim line)⟩] else []

def TypeTestForms.find (forms : TypeTestForms) (lines : List Line) (start : Int) : List TypeTest :=
  lines.zipIdx.flatMap fun (line, k) => forms.onLine (lines.take k) line (start + k)

end Source

end DesignLint
