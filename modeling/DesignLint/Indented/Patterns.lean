import DesignLint.Source.Reference
import DesignLint.Source.TypeTest

/-! What the lines of an indentation-delimited source say: headers of classes and methods, mentions
of the own object, type tests and instantiations. -/

namespace DesignLint.Indented

open Pattern

def classHeader : Pattern Taken := do
  text "class"
  blanks1
  word

def classWithBases : Pattern (Taken × Taken) := do
  let name ← classHeader
  blanks
  char '('
  let bases ← many (· != ')')
  char ')'
  pure (name, bases)

/-- A class is an interface when its bases mention one of the two markers. -/
def isInterfaceBase (bases : List Char) : Bool :=
  Text.contains "ABC".toList bases || Text.contains "Protocol".toList bases

def abstractMark : List Char := "@abstractmethod".toList

def methodHeader : Pattern Taken := do
  let _ ← Pattern.optional (do text "async"; blanks1)
  text "def"
  blanks1
  let name ← word
  blanks
  char '('
  pure name

def constructorName : String := "__init__"

def qualifier : String := "self"

/-- Names with an underscore at both ends are not members that a class shares. -/
def isPrivateName (name : String) : Bool :=
  name.startsWith "_" && name.endsWith "_"

def references (line : Line) : List Reference :=
  (Source.references qualifier line).filter fun r => !isPrivateName r.name

def dotted : Pattern Unit := do
  let _ ← many1 fun c => Text.isWord c || c == '.'
  pure ()

/-- `isinstance(value, Type)` with one type or a tuple of types. -/
def instanceTest : Pattern (Option Taken) := do
  text "isinstance"
  blanks
  char '('
  blanks
  dotted
  blanks
  char ','
  blanks
  Pattern.or (do char '('; let _ ← many (· != ')'); char ')') dotted
  blanks
  char ')'
  pure none

/-- `type(value)` compared with a type by `==`, `!=`, `is` or `is not`. -/
def equalityTest : Pattern (Option Taken) := do
  text "type"
  blanks
  char '('
  blanks
  dotted
  blanks
  char ')'
  blanks
  firstOf [
    (do let _ ← one (fun c => c == '=' || c == '!'); char '='),
    (do text "is"; blanks1; text "not"; let _ ← one Text.isBlank),
    (do text "is"; let _ ← one Text.isBlank)]
  blanks
  dotted
  pure none

def fieldTest : Pattern (Option Taken) := do
  char '.'
  blanks
  firstOf (["type", "kind", "_type", "__type__", "category", "variant"].map text)
  blanks
  let _ ← one fun c => c == '=' || c == '!'
  char '='
  blanks
  Source.optionalQuote
  let _ ← word
  Source.optionalQuote
  pure none

def typeTests : Source.TypeTestForms where
  forms := [
    ⟨.instanceOf, instanceTest, anywhere⟩, ⟨.typeEquality, equalityTest, anywhere⟩,
    ⟨.typeField, fieldTest, anywhere⟩]
  plainTags := []
  isDispatch _ := true

def instantiation : Pattern (Char × Taken) := do
  let c ← one Char.isUpper
  let rest ← many fun c => c.isAlphanum || c == '_'
  blanks
  char '('
  pure (c, rest)

/-- Errors and type constructors are not dependencies. -/
def plainTypes : List String := [
  "Exception", "Error", "ValueError", "TypeError", "RuntimeError", "KeyError", "AttributeError",
  "IndexError", "StopIteration", "NotImplementedError", "Dict", "List", "Set", "Tuple", "Optional",
  "Union", "Any", "Callable", "Type", "Literal"]

/-- Does the line declare the type, rather than make a value of it? -/
def declares (line : Line) (name : List Char) : Bool :=
  Text.contains ("def ".toList ++ name) line || Text.contains ("class ".toList ++ name) line

def instantiations (line : Line) : List String :=
  (instantiation.findAll atWord line).filterMap fun found =>
    let name := found.value.1 :: found.value.2.chars
    if String.ofList name ∈ plainTypes || declares line name then none else some (String.ofList name)

end DesignLint.Indented
