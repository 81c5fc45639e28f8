import DesignLint.Braced.Patterns
import DesignLint.Source.Group
import DesignLint.Source.Parameter

/-! The classes of a brace-delimited source. The walk counts braces line by line, without going below
zero: classes start at depth zero and their members at depth one, and each ends on a line with a
closing brace that returns to its depth. -/

namespace DesignLint.Braced

/-- The member of a class whose end has not been reached. -/
inductive Member
  | none
  | constructor
  | method (m : MethodDecl)

structure OpenClass where
  decl : ClassDecl
  member : Member := .none

structure State where
  depth : Nat := 0
  current : Option OpenClass := none

/-- Signatures of overloads and abstract methods end with a semicolon and open no body. -/
def isBodiless (s : List Char) : Bool :=
  !s.contains '\x7b' && s.getLast? == some ';'

def startsMethod? (line : Line) : Option (List Char) :=
  match methodHeader.match? (Text.trim line) with
  | some (name, _) =>
    if String.ofList name.chars ∈ reservedNames || isBodiless (Text.trim line) then none
    else some name.chars
  | none => none

/-- The parameters of the constructor whose header is on `line`, which the lines `rest` follow. -/
def constructorParams (line : Line) (rest : List Line) : List String :=
  let anchor := (Text.find? constructorName.toList line).getD 0
  (Source.parameters (Source.Group.read (line.drop anchor) rest).text).map String.ofList

/-- A line of the class outside its members: it may start one. -/
def OpenClass.enter (c : OpenClass) (i : Nat) (line : Line) (rest : List Line) : OpenClass :=
  if constructorHeader.accepts (Text.trim line) then
    { decl := { c.decl with constructor? := some ⟨i, i, constructorParams line rest⟩ }
      member := .constructor }
  else
    match startsMethod? line with
    | some name => { c with member := .method (.begin name i) }
    | none => c

/-- A line at depth `depth` before its braces are counted. Members start at depth one. -/
def OpenClass.enterAt (c : OpenClass) (depth : Nat) (i : Nat) (line : Line) (rest : List Line) :
    OpenClass :=
  match c.member with
  | .none => if depth = 1 then c.enter i line rest else c
  | _ => c

def OpenClass.extend (c : OpenClass) (i : Nat) (line : Line) : OpenClass :=
  match c.member with
  | .none => c
  | .constructor =>
    { c with decl := { c.decl with
        constructor? := c.decl.constructor?.map fun k => { k with endLine := i } } }
  | .method m =>
    let refs := references line
    { decl := c.decl.mention refs, member := .method ({ m with endLine := i }.mention refs) }

def OpenClass.closeMember (c : OpenClass) : OpenClass :=
  match c.member with
  | .method m => { decl := c.decl.addMethod m }
  | _ => { decl := c.decl }

def OpenClass.close (c : OpenClass) (last : Nat) : ClassDecl :=
  c.closeMember.decl.endAt last

/-- What line `i` starts before its braces are counted: a class at depth zero, which closes the class
whose header opened no brace, or a member. -/
def State.start (i : Nat) (line : Line) (rest : List Line) (st : State) :
    List ClassDecl × Option OpenClass :=
  match if st.depth = 0 then classHeader.match? (Text.trim line) else none with
  | some (name, _) => (st.current.toList.map fun c => c.close (i - 1), some ⟨.begin name.chars i, .none⟩)
  | none => ([], st.current.map fun c => c.enterAt st.depth i line rest)

/-- Reads line `i`, which the lines `rest` follow: the classes that it closes and the state behind
it. -/
def State.step (i : Nat) (line : Line) (rest : List Line) (st : State) : List ClassDecl × State :=
  let (opens, closes) := Text.braces line
  let (closed, started) := st.start i line rest
  let current := started.map fun c => c.extend i line
  let depth := st.depth + opens - closes
  if closes = 0 ∨ 1 < depth then (closed, ⟨depth, current⟩)
  else
    let current := current.map fun c => c.closeMember
    if depth = 0 then (closed ++ current.toList.map fun c => c.close i, ⟨0, none⟩)
    else (closed, ⟨depth, current⟩)

def State.walk (i : Nat) (st : State) : List Line → List ClassDecl
  | [] => st.current.toList.map fun c => c.close (i - 1)
  | line :: rest =>
    let (closed, st) := st.step i line rest
    closed ++ st.walk (i + 1) rest

def classes (lines : List Line) : List ClassDecl :=
  State.walk 0 {} lines

end DesignLint.Braced
