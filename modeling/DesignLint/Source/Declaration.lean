/-! What the line walks recover from a source: classes with their methods and constructor, interfaces,
and for each class its stub methods. Line numbers count from zero and spans include both ends. -/

namespace DesignLint

def addName (names : List String) (name : String) : List String :=
  if name ∈ names then names else names ++ [name]

/-- A method with the members of its own object that its lines mention. -/
structure MethodDecl where
  name : String
  startLine : Nat
  endLine : Nat
  /-- The last line of the signature. -/
  headerEnd : Nat
  usedVariables : List String := []
  calledMethods : List String := []
  deriving Repr, DecidableEq

structure ConstructorDecl where
  startLine : Nat
  endLine : Nat
  params : List String
  deriving Repr, DecidableEq

structure ClassDecl where
  name : String
  startLine : Nat
  endLine : Nat
  methods : List MethodDecl := []
  instanceVariables : List String := []
  constructor? : Option ConstructorDecl := none
  deriving Repr, DecidableEq

structure InterfaceDecl where
  name : String
  startLine : Nat
  count : Nat := 0
  methods : List String := []
  deriving Repr, DecidableEq

inductive StubKind
  | empty
  | notImplemented
  deriving Repr, DecidableEq

structure Stub where
  name : String
  line : Int
  code : String
  deriving Repr, DecidableEq

/-- The stub methods of a class beside the number of all its methods. -/
structure Implementation where
  name : String
  startLine : Int
  totalMethods : Int
  empty : List Stub := []
  notImplemented : List Stub := []
  deriving Repr, DecidableEq

def Implementation.stubCount (i : Implementation) : Nat :=
  i.empty.length + i.notImplemented.length

/-- A mention of a member of the own object: a variable, or a method that is called. -/
structure Reference where
  name : String
  isCall : Bool
  deriving Repr, DecidableEq

def MethodDecl.begin (name : List Char) (i : Nat) : MethodDecl where
  name := String.ofList name
  startLine := i
  endLine := i
  headerEnd := i

def ClassDecl.begin (name : List Char) (i : Nat) : ClassDecl where
  name := String.ofList name
  startLine := i
  endLine := i

def InterfaceDecl.begin (name : List Char) (i : Nat) : InterfaceDecl where
  name := String.ofList name
  startLine := i

def InterfaceDecl.addMethod (d : InterfaceDecl) (name : List Char) : InterfaceDecl :=
  { d with count := d.count + 1, methods := d.methods ++ [String.ofList name] }

def ClassDecl.addMethod (c : ClassDecl) (m : MethodDecl) : ClassDecl :=
  { c with methods := c.methods ++ [m] }

/-- The class with its last line; a class ends no earlier than it starts. -/
def ClassDecl.endAt (c : ClassDecl) (i : Nat) : ClassDecl :=
  { c with endLine := max c.startLine i }

def MethodDecl.mention (m : MethodDecl) (refs : List Reference) : MethodDecl :=
  refs.foldl (fun m r =>
    if r.isCall then { m with calledMethods := addName m.calledMethods r.name }
    else { m with usedVariables := addName m.usedVariables r.name }) m

def ClassDecl.mention (c : ClassDecl) (refs : List Reference) : ClassDecl :=
  refs.foldl (fun c r =>
    if r.isCall then c
    else { c with instanceVariables := addName c.instanceVariables r.name }) c

end DesignLint
