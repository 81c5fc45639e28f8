import DesignLint.Braced.Body
import DesignLint.Braced.Interfaces
import DesignLint.Braced.Walk
import DesignLint.Indented.Body
import DesignLint.Indented.Interfaces
import DesignLint.Indented.Walk
import DesignLint.Language

/-! What the two families of languages have in common, family by family. -/

namespace DesignLint.Family

def qualifier : Family → String
  | .indented => Indented.qualifier
  | .braced => Braced.qualifier

def constructorName : Family → String
  | .indented => Indented.constructorName
  | .braced => Braced.constructorName

def classes : Family → List Line → List ClassDecl
  | .indented => Indented.classes
  | .braced => Braced.classes

def interfaces : Family → List Line → List InterfaceDecl
  | .indented => Indented.interfaces
  | .braced => Braced.interfaces

def references : Family → Line → List Reference
  | .indented => Indented.references
  | .braced => Braced.references

/-- The type tests in lines of which the first has number `start`. -/
def typeTests : Family → List Line → Int → List TypeTest
  | .indented => Indented.typeTests.find
  | .braced => Braced.typeTests.find

def instantiations : Family → Line → List String
  | .indented => Indented.instantiations
  | .braced => Braced.instantiations

/-- The body of a method, or nothing when its signature lies outside the source. -/
def body? (f : Family) (lines : List Line) (start headerEnd last : Int) : Option (List Char) :=
  match f with
  | .indented => Indented.body? lines headerEnd last
  | .braced => some (Braced.body lines start last)

def stubKind? : Family → String → List Char → Option StubKind
  | .indented => fun _ => Indented.stubKind?
  | .braced => Braced.stubKind?

def stubCode : Family → String → StubKind → String
  | .indented => Indented.stubCode
  | .braced => Braced.stubCode

end DesignLint.Family
