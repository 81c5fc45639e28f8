import DesignLint.Data.Assoc
import DesignLint.Source.Model

/-! Single responsibility: a class is cohesive when its methods hang together. Two methods are linked
when they use a variable in common or one calls the other; the groups of methods that chains of links
connect are the responsibilities of the class. -/

namespace DesignLint

structure CohesionResult where
  className : String
  startLine : Int
  /-- The number of groups. -/
  lcom4 : Int
  components : List (List String) := []
  suggestion : String := ""
  deriving Repr, DecidableEq

namespace Cohesion

/-- Special methods other than the constructor are left out. -/
def qualifies (m : MethodDecl) : Bool :=
  !m.name.startsWith "__" || m.name == "__init__"

def related (m n : MethodDecl) : Bool :=
  m.usedVariables.any (fun v => n.usedVariables.contains v)
    || m.calledMethods.contains n.name || n.calledMethods.contains m.name

/-- The names of the methods, in the order in which they first occur, each with the names it is linked to. -/
abbrev Graph := List (String × List String)

def neighbours (g : Graph) (name : String) : List String :=
  (g.lookup name).getD []

def addNeighbour (g : Graph) (name other : String) : Graph :=
  if (neighbours g name).contains other then g
  else Assoc.set g name (neighbours g name ++ [other])

def link (m : MethodDecl) (g : Graph) (n : MethodDecl) : Graph :=
  if related m n then addNeighbour (addNeighbour g m.name n.name) n.name m.name else g

def linkAll (g : Graph) : List MethodDecl → Graph
  | [] => g
  | m :: methods => linkAll (methods.foldl (link m) g) methods

def unlinked (methods : List MethodDecl) : Graph :=
  methods.foldl (fun g m => if Assoc.has g m.name then g else Assoc.set g m.name []) []

def buildGraph (methods : List MethodDecl) : Graph :=
  linkAll (unlinked methods) methods

/-- Visits the names on a stack, its top first, and all that they lead to, in at most so many rounds. A name
may be on the stack more than once. What was visited comes back, and what is new behind `found`. -/
def visit (g : Graph) : Nat → List String → List String → List String → List String × List String
  | n + 1, visited, found, name :: stack =>
    if visited.contains name then visit g n visited found stack
    else
      let fresh := (neighbours g name).filter fun other => !(name :: visited).contains other
      visit g n (name :: visited) (found ++ [name]) (fresh.reverse ++ stack)
  | _, visited, found, _ => (visited, found)

/-- The rounds of a search: one for the name that it starts from, and one for every link. -/
def rounds (g : Graph) : Nat :=
  (g.flatMap (·.2)).length + 1

def insertInOrder (order : String → Nat) (name : String) : List String → List String
  | [] => [name]
  | other :: names =>
    if order name ≤ order other then name :: other :: names
    else other :: insertInOrder order name names

def inOrder (order : String → Nat) (names : List String) : List String :=
  names.foldr (insertInOrder order) []

def addComponent (g : Graph) (state : List String × List (List String)) (start : String) :
    List String × List (List String) :=
  if state.1.contains start then state
  else
    let (visited, found) := visit g (rounds g) state.1 [] [start]
    (visited, state.2 ++ [inOrder (g.map (·.1)).idxOf found])

def connectedComponents (g : Graph) : List (List String) :=
  ((g.map (·.1)).foldl (addComponent g) ([], [])).2

def components (methods : List MethodDecl) : List (List String) :=
  connectedComponents (buildGraph methods)

def suggestion (groups : List (List String)) : String :=
  if groups.length ≤ 1 then "Class appears to be cohesive."
  else
    let shown := groups.zipIdx.map fun (group, i) =>
      "Group " ++ toString (i + 1) ++ ": " ++ ", ".intercalate group
    "Consider splitting into " ++ toString groups.length ++ " classes. Method groups: "
      ++ "; ".intercalate shown

/-- The groups of the methods of a class. With fewer than two methods there is one group. -/
def analyze (className : String) (startLine : Int) (methods : List MethodDecl) : CohesionResult :=
  let methods := methods.filter qualifies
  if methods.length ≤ 1 then
    { className, startLine
      lcom4 := 1
      components := [methods.map (·.name)]
      suggestion := "Class has 0 or 1 method, LCOM4 is trivially 1." }
  else
    let groups := components methods
    { className, startLine
      lcom4 := groups.length
      components := groups
      suggestion := suggestion groups }

def ofModel (m : SourceModel) : List CohesionResult :=
  m.classes.map fun c => analyze c.name c.startLine c.methods

def isViolation (threshold : Int) (r : CohesionResult) : Bool :=
  threshold < r.lcom4

def extractedSuffixes : List String :=
  ["Core", "Manager", "Handler", "Service", "Processor", "Builder", "Factory", "Provider"]

/-- The ending of the name proposed for the group at `index` of `total` groups. -/
def suffix (index total : Int) : String :=
  if total = 2 then if index = 0 then "Core" else "Helper"
  else extractedSuffixes.getD (index.emod extractedSuffixes.length).toNat ""

end Cohesion

end DesignLint
