import DesignLint.Decimal.Amount
import DesignLint.Source.Model

/-! Open for extension, closed for modification: methods that ask for the types of values have to be
changed for every new type. Each kind of type test has a weight. -/

namespace DesignLint

structure OpennessResult where
  className : String
  methodName : String
  startLine : Int
  /-- Tests of the type of a value, per line of the method. -/
  density : Amount
  /-- Tests of a field that tells the type. -/
  fieldTests : Int
  score : Amount
  tests : List TypeTest := []
  suggestion : String := ""
  deriving Repr

def TypeTestKind.weight : TypeTestKind → Float
  | .instanceOf => 2.0
  | .typeEquality => 2.0
  | .typeOf => 1.0
  | .typeField => 1.5
  | .other _ => 0.0

/-- Does a test of this kind look at the type itself, and not at a field that tells it? -/
def TypeTestKind.isRuntime : TypeTestKind → Bool
  | .instanceOf | .typeEquality | .typeOf => true
  | _ => false

def OpennessResult.isShowable (r : OpennessResult) : Bool :=
  r.score.isShowable && r.density.hundredfold.isShowable

namespace Openness

def density (kinds : List TypeTestKind) (totalLines : Int) : Float :=
  if 0 < totalLines then Decimal.quotient (kinds.countP (·.isRuntime)) totalLines.toNat else 0.0

def fieldTests (kinds : List TypeTestKind) : Nat :=
  kinds.count .typeField

def score (kinds : List TypeTestKind) : Float :=
  kinds.foldl (fun sum k => sum + k.weight) 0.0

def suggestion (threshold : Float) (kinds : List TypeTestKind) : String :=
  if score kinds ≤ threshold then
    "Minor type-checking detected. Consider if polymorphism would be beneficial."
  else if fieldTests kinds < kinds.count .instanceOf + kinds.count .typeEquality then
    "Consider using polymorphism (Strategy/Visitor pattern) instead of instanceof checks."
  else
    "Consider using polymorphism or discriminated unions instead of type-field switches."

def analyze? (threshold : Float) (f : Family) (lines : List Line) (className : String)
    (m : MethodDecl) : Option OpennessResult :=
  let methodLines := Source.between lines m.startLine m.endLine
  let tests := f.typeTests methodLines m.startLine
  if tests.isEmpty then none
  else
    let kinds := tests.map (·.kind)
    some {
      className
      methodName := m.name
      startLine := m.startLine
      density := density kinds methodLines.length
      fieldTests := fieldTests kinds
      score := score kinds
      tests
      suggestion := suggestion threshold kinds }

def ofModel (threshold : Float) (m : SourceModel) : List OpennessResult :=
  match m.language? with
  | none => []
  | some language =>
    m.classes.flatMap fun c => c.methods.filterMap (analyze? threshold language.family m.lines c.name)

def isViolation (threshold : Float) (r : OpennessResult) : Bool :=
  threshold < r.score.toFloat

end Openness

end DesignLint
