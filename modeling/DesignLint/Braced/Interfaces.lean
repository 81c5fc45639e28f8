import DesignLint.Braced.Patterns

/-! The interfaces of a brace-delimited source: interfaces and abstract classes at depth zero, and in
them the signatures at depth one that open no brace. -/

namespace DesignLint.Braced

structure InterfaceState where
  depth : Nat := 0
  current : Option InterfaceDecl := none

/-- An interface without abstract methods is none. -/
def keepInterface (current : Option InterfaceDecl) : List InterfaceDecl :=
  current.toList.filter fun d => 0 < d.count

def startsInterface? (line : Line) : Option (List Char) :=
  ((interfaceHeader.or abstractHeader).match? (Text.trim line)).map (·.1.chars)

def declaresMethod? (line : Line) : Option (List Char) :=
  if (Text.trim line).contains '\x7b' then none
  else
    match signature.match? (Text.trim line) with
    | some (name, _) => if String.ofList name.chars ∈ reservedNames then none else some name.chars
    | none => none

/-- What line `i` at depth `depth` does to the open interface. -/
def takeLine (depth : Nat) (i : Nat) (line : Line) (current : Option InterfaceDecl) :
    Option InterfaceDecl :=
  if depth = 0 then
    match startsInterface? line with
    | some name => some (.begin name i)
    | none => current
  else if depth = 1 then
    current.map fun d =>
      match declaresMethod? line with
      | some name => d.addMethod name
      | none => d
  else current

def InterfaceState.step (i : Nat) (line : Line) (st : InterfaceState) :
    List InterfaceDecl × InterfaceState :=
  let (opens, closes) := Text.braces line
  let current := takeLine st.depth i line st.current
  let depth := st.depth + opens - closes
  if depth = 0 ∧ 0 < closes then (keepInterface current, { depth }) else ([], { depth, current })

def InterfaceState.walk (i : Nat) (st : InterfaceState) : List Line → List InterfaceDecl
  | [] => keepInterface st.current
  | line :: rest =>
    let (closed, st) := st.step i line
    closed ++ st.walk (i + 1) rest

def interfaces (lines : List Line) : List InterfaceDecl :=
  InterfaceState.walk 0 {} lines

end DesignLint.Braced
