import DesignLint.Source.Reference
import DesignLint.Source.TypeTest

/-! What the lines of a brace-delimited source say: headers of classes, interfaces and members,
mentions of the own object, type tests and instantiations. -/

namespace DesignLint.Braced

open Pattern

def optionalWord (w : String) : Pattern Unit := do
  let _ ← Pattern.optional (do text w; blanks1)
  pure ()

def modifiers (ws : List String) : Pattern Unit :=
  repeated do
    firstOf (ws.map text)
    blanks1

def classHeader : Pattern Taken := do
  optionalWord "export"
  optionalWord "default"
  optionalWord "abstract"
  text "class"
  blanks1
  word

def interfaceHeader : Pattern Taken := do
  optionalWord "export"
  optionalWord "default"
  text "interface"
  blanks1
  word

def abstractHeader : Pattern Taken := do
  optionalWord "export"
  optionalWord "default"
  text "abstract"
  blanks1
  text "class"
  blanks1
  word

def constructorHeader : Pattern Unit := do
  let _ ← Pattern.optional (do firstOf (["public", "private", "protected"].map text); blanks1)
  text "constructor"
  blanks
  char '('

def typeParams : Pattern Unit := do
  let _ ← Pattern.optional (do char '<'; let _ ← many (· != '>'); char '>')
  pure ()

def methodHeader : Pattern Taken := do
  modifiers ["public", "private", "protected", "static", "async", "override", "readonly", "get",
    "set"]
  let _ ← Pattern.optional (char '*')
  blanks
  let name ← word
  blanks
  typeParams
  blanks
  char '('
  pure name

/-- The signature of an abstract method, up to its opening parenthesis. -/
def signature : Pattern Taken := do
  modifiers ["public", "private", "protected", "static", "abstract", "readonly", "async"]
  let name ← word
  let _ ← Pattern.optional (char '?')
  blanks
  typeParams
  blanks
  char '('
  pure name

/-- Words that stand before a parenthesis without naming a method. -/
def reservedNames : List String := [
  "if", "for", "while", "switch", "catch", "return", "function", "with", "super", "constructor",
  "new", "typeof", "await", "yield"]

def constructorName : String := "constructor"

def qualifier : String := "this"

def references (line : Line) : List Reference :=
  Source.references qualifier line

/-- `value instanceof Type`. The first word ends at a blank, so it can be read from its start. -/
def instanceTest : Pattern (Option Taken) := do
  let _ ← word
  blanks1
  text "instanceof"
  blanks1
  let _ ← word
  pure none

def comparison : Pattern Unit := do
  let _ ← one fun c => c == '=' || c == '!'
  char '='
  let _ ← Pattern.optional (char '=')
  pure ()

def typeOfTest : Pattern (Option Taken) := do
  text "typeof"
  blanks1
  let _ ← many1 fun c => Text.isWord c || c == '.'
  blanks
  comparison
  blanks
  let _ ← one fun c => c == '\x22' || c == '\x27'
  let tag ← word
  let _ ← one fun c => c == '\x22' || c == '\x27'
  pure (some tag)

def fieldTest : Pattern (Option Taken) := do
  char '.'
  blanks
  firstOf (["type", "kind", "_type", "__type", "category", "variant", "discriminator"].map text)
  blanks
  comparison
  blanks
  Source.optionalQuote
  let _ ← word
  Source.optionalQuote
  pure none

def dispatch : Pattern Unit := do
  textIgnoringCase "switch"
  blanks
  char '('
  blanks
  let _ ← word
  char '.'
  firstOf (["type", "kind", "_type", "category", "variant", "discriminator"].map textIgnoringCase)
  blanks
  char ')'

/-- Comparing with the name of a primitive type is no type test, and a case label is one only below
a switch over a field that tells the type. -/
def typeTests : Source.TypeTestForms where
  forms := [
    ⟨.instanceOf, instanceTest, atWord⟩, ⟨.typeOf, typeOfTest, anywhere⟩,
    ⟨.typeField, fieldTest, anywhere⟩]
  plainTags := ["string", "number", "boolean", "undefined"]
  isDispatch before := (dispatch.search? (['\n'].intercalate before)).isSome

def instantiation : Pattern (Char × Taken) := do
  text "new"
  blanks1
  let c ← one Char.isUpper
  let rest ← many fun c => c.isAlphanum || c == '_'
  blanks
  typeParams
  blanks
  char '('
  pure (c, rest)

/-- Errors, containers and the types of the platform are not dependencies. -/
def plainTypes : List String := [
  "Error", "TypeError", "RangeError", "SyntaxError", "Array", "Object", "Map", "Set", "WeakMap",
  "WeakSet", "Promise", "Date", "RegExp", "URL", "URLSearchParams", "FormData", "Headers", "Request",
  "Response", "Event", "CustomEvent", "EventEmitter"]

def instantiations (line : Line) : List String :=
  (instantiation.findAll anywhere line).filterMap fun found =>
    let name := String.ofList (found.value.1 :: found.value.2.chars)
    if name ∈ plainTypes then none else some name

end DesignLint.Braced
