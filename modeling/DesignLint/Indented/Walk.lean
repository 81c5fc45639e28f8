import DesignLint.Indented.Patterns
import DesignLint.Source.Group
import DesignLint.Source.Parameter

/-! The classes of an indentation-delimited source. The walk reads one line at a time; a method can
be open only inside an open class. A class or method ends where a line returns to its indentation,
and a signature runs on while its parentheses are open. -/

namespace DesignLint.Indented

/-- A class whose end has not been reached, with the indentation of its header. -/
structure OpenClass where
  decl : ClassDecl
  indent : Nat

/-- A method whose end has not been reached, with the indentation of its header and the parentheses
of its signature that are still open. -/
structure OpenMethod where
  decl : MethodDecl
  indent : Nat
  openParens : Int

inductive State
  | outside
  | inClass (c : OpenClass)
  | inMethod (c : OpenClass) (m : OpenMethod)

def OpenClass.begin (name : List Char) (i : Nat) (line : Line) : OpenClass :=
  ⟨.begin name i, Text.indent line⟩

def OpenClass.addMethod (c : OpenClass) (m : OpenMethod) : OpenClass :=
  { c with decl := c.decl.addMethod m.decl }

def OpenMethod.begin (name : List Char) (i : Nat) (line : Line) : OpenMethod :=
  ⟨.begin name i, Text.indent line, max 0 (Source.parenBalance line)⟩

def OpenMethod.extendHeader (m : OpenMethod) (i : Nat) (line : Line) : OpenMethod :=
  { m with
    decl := { m.decl with headerEnd := i, endLine := i }
    openParens := m.openParens + Source.parenBalance line }

def OpenMethod.extend (m : OpenMethod) (i : Nat) (refs : List Reference) : OpenMethod :=
  { m with decl := { m.decl with endLine := i }.mention refs }

def State.close (last : Nat) : State → List ClassDecl
  | .outside => []
  | .inClass c => [c.decl.endAt last]
  | .inMethod c m => [(c.addMethod m).decl.endAt last]

def State.inHeader : State → Bool
  | .inMethod _ m => 0 < m.openParens
  | _ => false

def State.inBody (indent : Nat) : State → Bool
  | .inMethod _ m => m.indent < indent
  | _ => false

/-- A line of a class outside its methods: it may be the header of the next one. -/
def member (c : OpenClass) (i : Nat) (line : Line) : State :=
  match methodHeader.match? (Text.trim line) with
  | some (name, _) => .inMethod c (.begin name.chars i line)
  | none => .inClass c

/-- Reads line `i`: the class that it closes, if any, and the state behind it. -/
def State.step (i : Nat) (line : Line) (st : State) : List ClassDecl × State :=
  let indent := Text.indent line
  if st.inHeader then
    match st with
    | .inMethod c m => ([], .inMethod c (m.extendHeader i line))
    | st => ([], st)
  else if (Text.trim line).isEmpty then ([], st)
  else
    match if st.inBody indent then none else classHeader.match? (Text.trim line) with
    | some (name, _) => (st.close (i - 1), .inClass (.begin name.chars i line))
    | none =>
      match st with
      | .outside => ([], .outside)
      | .inClass c =>
        if indent ≤ c.indent then (st.close (i - 1), .outside) else ([], member c i line)
      | .inMethod c m =>
        if indent ≤ c.indent then (st.close (i - 1), .outside)
        else if st.inBody indent then
          let refs := references line
          ([], .inMethod { c with decl := c.decl.mention refs } (m.extend i refs))
        else ([], member (c.addMethod m) i line)

def State.walk (i : Nat) (st : State) : List Line → List ClassDecl
  | [] => st.close (i - 1)
  | line :: lines =>
    let (closed, st) := st.step i line
    closed ++ st.walk (i + 1) lines

/-- The name that a parameter declares: the part before its type and default. -/
def parameterName (p : List Char) : List Char :=
  Text.trim (p.takeWhile fun c => c != ':' && c != '=')

/-- The object itself and the two separators are not injected. -/
def isInjected (p : List Char) : Bool :=
  !(["self".toList, ['*'], ['/']].contains (parameterName p))

def signatureParams (lines : List Line) : List String :=
  match lines with
  | [] => []
  | header :: rest =>
    let anchor := (Text.find? constructorName.toList header).getD 0
    let group := Source.Group.read (header.drop anchor) rest
    ((Source.parameters group.text).filter isInjected).map String.ofList

def findConstructor (lines : List Line) (c : ClassDecl) : ClassDecl :=
  { c with
    constructor? := (c.methods.find? (·.name == constructorName)).map fun m =>
      ⟨m.startLine, m.endLine, signatureParams (lines.drop m.startLine)⟩ }

def classes (lines : List Line) : List ClassDecl :=
  (State.outside.walk 0 lines).map (findConstructor lines)

end DesignLint.Indented
