import DesignLint.Indented.Patterns

/-! The interfaces of an indentation-delimited source: classes with a marker base, and in them the
methods behind an abstract decorator. -/

namespace DesignLint.Indented

/-- The method behind a decorator, other decorators and blank lines left out. -/
def decoratedMethod? : List Line → Option (List Char)
  | [] => none
  | line :: lines =>
    let s := Text.trim line
    if s.isEmpty || s.head? == some '@' then decoratedMethod? lines
    else (methodHeader.match? s).map (·.1.chars)

/-- An interface whose end has not been reached, with the indentation of its header. -/
structure OpenInterface where
  decl : InterfaceDecl
  indent : Nat

/-- An interface without abstract methods is none. -/
def OpenInterface.close (o : Option OpenInterface) : List InterfaceDecl :=
  match o with
  | some o => if 0 < o.decl.count then [o.decl] else []
  | none => []

def OpenInterface.begin? (i : Nat) (line : Line) : Option OpenInterface :=
  match classWithBases.match? (Text.trim line) with
  | some ((name, bases), _) =>
    if isInterfaceBase bases.chars then some ⟨.begin name.chars i, Text.indent line⟩ else none
  | none => none

def OpenInterface.extend (o : OpenInterface) (line : Line) (rest : List Line) : OpenInterface :=
  if abstractMark.isPrefixOf (Text.trim line) then
    match decoratedMethod? rest with
    | some name => { o with decl := o.decl.addMethod name }
    | none => o
  else o

def interfacesFrom (i : Nat) (current : Option OpenInterface) : List Line → List InterfaceDecl
  | [] => OpenInterface.close current
  | line :: rest =>
    if classHeader.accepts (Text.trim line) then
      OpenInterface.close current ++ interfacesFrom (i + 1) (OpenInterface.begin? i line) rest
    else
      match current with
      | none => interfacesFrom (i + 1) none rest
      | some o =>
        if (Text.trim line).isEmpty then interfacesFrom (i + 1) (some o) rest
        else if Text.indent line ≤ o.indent then
          OpenInterface.close (some o) ++ interfacesFrom (i + 1) none rest
        else interfacesFrom (i + 1) (some (o.extend line rest)) rest

def interfaces (lines : List Line) : List InterfaceDecl :=
  interfacesFrom 0 none lines

end DesignLint.Indented
