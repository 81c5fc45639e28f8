import DesignLint.Decimal.Amount
import DesignLint.Source.Model

/-! Dependency inversion: a class should be given what it depends on, and not make it. Every value of
another type that a class makes counts, in its constructor more than in its methods. -/

namespace DesignLint

/-- Where a value is made. `other` stands for a place that is not listed. -/
inductive SiteKind
  | inConstructor
  | inMethod
  | other (name : String)
  deriving Repr, DecidableEq

def SiteKind.name : SiteKind → String
  | .inConstructor => "constructor_instantiation"
  | .inMethod => "method_instantiation"
  | .other name => name

def SiteKind.ofName : String → SiteKind
  | "constructor_instantiation" => .inConstructor
  | "method_instantiation" => .inMethod
  | name => .other name

/-- A line that makes a value of a type. -/
structure Site where
  line : Int
  kind : SiteKind
  code : String
  className : String
  deriving Repr, DecidableEq

structure InversionResult where
  className : String
  startLine : Int
  constructorSites : Int
  methodSites : Int
  injected : Int
  total : Int
  /-- The share of the dependencies that is injected. -/
  injectionIndex : Amount
  score : Amount
  sites : List Site := []
  suggestion : String := ""
  deriving Repr

def InversionResult.isShowable (r : InversionResult) : Bool :=
  r.score.isShowable && r.injectionIndex.hundredfold.isShowable

namespace Inversion

def constructorWeight : Float := 2.0

def methodWeight : Float := 1.5

/-- Below this share most dependencies are made inside. -/
def lowIndex : Float := 0.5

def sitesIn (f : Family) (lines : List Line) (kind : SiteKind) (first last : Nat) : List Site :=
  ((Source.between lines first last).zipIdx first).flatMap fun (line, n) =>
    (f.instantiations line).map fun t => ⟨n, kind, String.ofList (Text.trim line), t⟩

def constructorSites (f : Family) (lines : List Line) (c : ClassDecl) : List Site :=
  match c.constructor? with
  | some k => sitesIn f lines .inConstructor k.startLine k.endLine
  | none => []

def methodSites (f : Family) (lines : List Line) (c : ClassDecl) : List Site :=
  (c.methods.filter (·.name != f.constructorName)).flatMap fun m =>
    sitesIn f lines .inMethod m.startLine m.endLine

def suggestion (inConstructor inMethods : Nat) (index : Float) : String :=
  if inConstructor = 0 ∧ inMethods = 0 then "Class follows Dependency Inversion Principle."
  else
    let parts :=
      (if 0 < inConstructor then
        ["Inject " ++ toString inConstructor
          ++ " dependency(ies) via constructor parameters instead of instantiating directly"]
      else [])
      ++ (if 0 < inMethods then
        ["Consider injecting " ++ toString inMethods ++ " dependency(ies) or using factory pattern"]
      else [])
      ++ (if index < lowIndex then
        ["Low DII indicates most dependencies are created internally"]
      else [])
    ". ".intercalate parts ++ "."

def analyze (f : Family) (lines : List Line) (c : ClassDecl) : InversionResult :=
  let inConstructor := constructorSites f lines c
  let inMethods := methodSites f lines c
  let sites := inConstructor ++ inMethods
  let types := sites.foldl (fun acc s => addName acc s.className) []
  let injected := (c.constructor?.map (·.params.length)).getD 0
  let total := injected + types.length
  let index := if 0 < total then Decimal.quotient injected total else 1.0
  { className := c.name
    startLine := c.startLine
    constructorSites := inConstructor.length
    methodSites := inMethods.length
    injected
    total
    injectionIndex := index
    score := .real (Float.ofNat inConstructor.length * constructorWeight
      + Float.ofNat inMethods.length * methodWeight)
    sites
    suggestion := suggestion inConstructor.length inMethods.length index }

def allOfModel (m : SourceModel) : List InversionResult :=
  match m.language? with
  | none => []
  | some language => m.classes.map (analyze language.family m.lines)

/-- The results of the classes that make a value of another type. -/
def ofModel (m : SourceModel) : List InversionResult :=
  (allOfModel m).filter fun r => 0.0 < r.score.toFloat

def isViolation (threshold : Float) (r : InversionResult) : Bool :=
  threshold ≤ r.score.toFloat

end Inversion

end DesignLint
