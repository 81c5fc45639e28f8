import DesignLint.Decimal.Amount
import DesignLint.Source.Model

/-! Interface segregation: an interface with many methods forces its implementations to have methods
that they do not need, and such methods show as stubs. -/

namespace DesignLint

/-- What is wrong with an interface or a class. `other` stands for a kind that is not listed. -/
inductive IssueKind
  | fatInterface
  | emptyMethod
  | notImplemented
  | other (name : String)
  deriving Repr, DecidableEq

def IssueKind.name : IssueKind → String
  | .fatInterface => "fat_interface"
  | .emptyMethod => "empty_implementation"
  | .notImplemented => "not_implemented_error"
  | .other name => name

def IssueKind.ofName : String → IssueKind
  | "fat_interface" => .fatInterface
  | "empty_implementation" => .emptyMethod
  | "not_implemented_error" => .notImplemented
  | name => .other name

structure Issue where
  line : Int
  kind : IssueKind
  methodName : String
  code : String
  deriving Repr, DecidableEq

structure SegregationResult where
  className : String
  startLine : Int
  isInterface : Bool
  abstractMethods : Int := 0
  emptyMethods : Int := 0
  notImplemented : Int := 0
  /-- The size of the interface. -/
  size : Int := 0
  /-- The share of the methods that are stubs. -/
  stubRatio : Amount := .real 0.0
  score : Amount := .real 0.0
  issues : List Issue := []
  suggestion : String := ""
  deriving Repr

/-- Can all amounts of the result be shown? Those of an interface are not. -/
def SegregationResult.isShowable (r : SegregationResult) : Bool :=
  r.isInterface || r.stubRatio.hundredfold.isShowable

namespace Segregation

/-- What counts as too much: methods of an interface, and the share of stubs in a class. -/
structure Limits where
  fat : Int
  stubRatio : Float

def stubWeight : Float := 1.5

/-- Above this share the interface is too broad. -/
def highRatio : Float := 0.5

/-- So many stubs are reported whatever their share. -/
def alwaysReported : Nat := 2

/-- A third as a double, rounded up to an integer. -/
def thirds (n : Int) : Int :=
  match (Decimal.ratio? n 3).map Decimal.Binary.ofFloat with
  | some (.finite negative m e) => Decimal.ceil negative m e
  | _ => 0

def fatInterface (name : String) (startLine count : Int) (score : Float) : SegregationResult where
  className := name
  startLine := startLine
  isInterface := true
  abstractMethods := count
  size := count
  score := .real score
  issues := [⟨startLine, .fatInterface, "", "Interface has " ++ toString count ++ " abstract methods"⟩]
  suggestion := "Consider splitting into " ++ toString (thirds count)
    ++ " smaller interfaces with ~3 methods each."

structure TooLarge
  deriving Repr, DecidableEq

def ofInterface? (limits : Limits) (name : String) (startLine count : Int) :
    Except TooLarge (Option SegregationResult) :=
  if count ≤ limits.fat then .ok none
  else
    match Decimal.ofInt? count with
    | some score => .ok (some (fatInterface name startLine count score))
    | none => .error ⟨⟩

def suggestion (empty notImplemented : Nat) (ratio : Float) : String :=
  let parts :=
    (if 0 < empty then [toString empty ++ " empty method(s) indicate unused interface requirements"]
      else [])
    ++ (if 0 < notImplemented then
        [toString notImplemented
          ++ " NotImplementedError method(s) indicate forced interface compliance"]
      else [])
    ++ (if highRatio < ratio then
        ["High stub ratio suggests the interface is too broad for this class"]
      else [])
    ++ ["Consider using smaller, more focused interfaces"]
  ". ".intercalate parts ++ "."

def ofImplementation? (limits : Limits) (i : Implementation) : Option SegregationResult :=
  let stubs := i.stubCount
  let ratio :=
    if 0 < i.totalMethods then Decimal.quotient stubs i.totalMethods.toNat else 0.0
  if stubs = 0 || (ratio < limits.stubRatio && stubs < alwaysReported) then none
  else some {
    className := i.name
    startLine := i.startLine
    isInterface := false
    emptyMethods := i.empty.length
    notImplemented := i.notImplemented.length
    stubRatio := ratio
    score := .real (Float.ofNat stubs * stubWeight)
    issues := i.empty.map (fun s => ⟨s.line, .emptyMethod, s.name, s.code⟩)
      ++ i.notImplemented.map fun s => ⟨s.line, .notImplemented, s.name, s.code⟩
    suggestion := suggestion i.empty.length i.notImplemented.length ratio }

def ofDeclaration? (limits : Limits) (d : InterfaceDecl) : Option SegregationResult :=
  if d.count ≤ limits.fat then none
  else some (fatInterface d.name d.startLine d.count (Decimal.ofInt d.count))

/-- Fat interfaces first, then classes with stubs, each in the order of the source. -/
def ofModel (limits : Limits) (m : SourceModel) : List SegregationResult :=
  m.interfaces.filterMap (ofDeclaration? limits)
    ++ m.implementations.filterMap (ofImplementation? limits)

end Segregation

end DesignLint
