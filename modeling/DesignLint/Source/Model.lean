import DesignLint.Source.Dialect

/-! The structure of one source: its classes, its interfaces and the stub methods of its classes. -/

namespace DesignLint

structure SourceModel where
  /-- The name of the language, as given when it is not one that can be checked. -/
  languageName : String
  language? : Option Language := none
  lines : List Line := []
  classes : List ClassDecl := []
  interfaces : List InterfaceDecl := []
  implementations : List Implementation := []

namespace SourceModel

def isEmpty (m : SourceModel) : Bool :=
  m.classes.isEmpty && m.interfaces.isEmpty && m.implementations.isEmpty

/-- Special methods are never stubs, except the constructor. -/
def isSpecialMethod (name : String) : Bool :=
  name.startsWith "__" && name.endsWith "__" && name != "__init__"

def stub? (f : Family) (lines : List Line) (m : MethodDecl) : Option (StubKind × Stub) :=
  if isSpecialMethod m.name then none
  else do
    let body ← f.body? lines m.startLine m.headerEnd m.endLine
    let kind ← f.stubKind? m.name body
    pure (kind, ⟨m.name, m.startLine, f.stubCode m.name kind⟩)

def implementation (f : Family) (lines : List Line) (c : ClassDecl) : Implementation :=
  let stubs := c.methods.filterMap (stub? f lines)
  { name := c.name
    startLine := c.startLine
    totalMethods := c.methods.length
    empty := (stubs.filter (·.1 == .empty)).map (·.2)
    notImplemented := (stubs.filter (·.1 == .notImplemented)).map (·.2) }

def ofLines (language : Language) (lines : List Line) : SourceModel :=
  let f := language.family
  let classes := f.classes lines
  { languageName := language.name
    language? := some language
    lines
    classes
    interfaces := if language.hasInterfaces then f.interfaces lines else []
    implementations := classes.map (implementation f lines) }

/-- The structure of a text in the language with the given name; empty when that language cannot be
checked. -/
def ofText (text : String) (languageName : Option String) : SourceModel :=
  match languageName.bind Language.ofName? with
  | some language => ofLines language (Text.lines text)
  | none => { languageName := languageName.getD "" }

end SourceModel

end DesignLint
