import DesignLint.Report.Diagnostic
import DesignLint.Settings.Basic

/-! The check of one document against the four principles. -/

namespace DesignLint

inductive Principle
  | srp
  | ocp
  | dip
  | isp
  deriving Repr, DecidableEq

namespace Principle

def name : Principle → String
  | .srp => "srp"
  | .ocp => "ocp"
  | .dip => "dip"
  | .isp => "isp"

def all : List Principle := [.srp, .ocp, .dip, .isp]

def names : List String := all.map name

def isEnabled (s : Settings) : Principle → Bool
  | .srp => s.enableSrp
  | .ocp => s.enableOcp
  | .dip => s.enableDip
  | .isp => s.enableIsp

end Principle

structure CheckReport where
  path : String
  languageName : Option String
  /-- The language cannot be checked, or is not enabled. -/
  skipped : Bool := false
  srpResults : List CohesionResult := []
  srpViolations : List CohesionResult := []
  ocpResults : List OpennessResult := []
  ocpViolations : List OpennessResult := []
  dipResults : List InversionResult := []
  dipViolations : List InversionResult := []
  ispResults : List SegregationResult := []
  /-- The diagnostics of each principle that was checked. -/
  diagnostics : List (String × List Diagnostic) := []
  deriving Repr

namespace CheckReport

/-- Every result about interfaces is a violation. -/
def ispViolations (r : CheckReport) : List SegregationResult := r.ispResults

def violationCount (r : CheckReport) : Nat :=
  r.srpViolations.length + r.ocpViolations.length + r.dipViolations.length + r.ispViolations.length

def hasViolations (r : CheckReport) : Bool :=
  !(r.srpViolations.isEmpty && r.ocpViolations.isEmpty && r.dipViolations.isEmpty
    && r.ispViolations.isEmpty)

def markdown (r : CheckReport) : String :=
  Markdown.combined r.path r.srpViolations r.ocpViolations r.dipViolations r.ispViolations

end CheckReport

namespace Check

def supports (s : Settings) (languageName : Option String) : Bool :=
  match languageName with
  | none => false
  | some name =>
    (Language.ofName? name).isSome && (s.languages.map Text.lower).contains (Text.lower name)

/-- A name that is not empty, or what the path tells. -/
def languageOf (path : String) (languageName : Option String) : Option String :=
  match languageName.filter (· != "") with
  | some name => some name
  | none => (Language.ofPath? (.ofString path)).map (·.name)

/-- The principles to check: those asked for, or all if none is, as far as they are enabled. -/
def selected (s : Settings) (asked : List String) : List Principle :=
  Principle.all.filter fun p => p.isEnabled s && (asked.isEmpty || asked.contains p.name)

def runSrp (s : Settings) (m : SourceModel) (r : CheckReport) : CheckReport :=
  let results := Cohesion.ofModel m
  let violations := results.filter (Cohesion.isViolation s.cohesionThreshold)
  { r with
    srpResults := results
    srpViolations := violations
    diagnostics := r.diagnostics
      ++ [(Diagnostic.srpSource, violations.map (Diagnostic.ofCohesion r.path))] }

def runOcp (s : Settings) (m : SourceModel) (r : CheckReport) : CheckReport :=
  let results := Openness.ofModel s.opennessThreshold m
  let violations := results.filter (Openness.isViolation s.opennessThreshold)
  { r with
    ocpResults := results
    ocpViolations := violations
    diagnostics := r.diagnostics
      ++ [(Diagnostic.ocpSource, violations.map (Diagnostic.ofOpenness r.path))] }

def runDip (s : Settings) (m : SourceModel) (r : CheckReport) : CheckReport :=
  let results := Inversion.ofModel m
  let violations := results.filter (Inversion.isViolation s.inversionThreshold)
  { r with
    dipResults := results
    dipViolations := violations
    diagnostics := r.diagnostics
      ++ [(Diagnostic.dipSource, violations.map (Diagnostic.ofInversion r.path))] }

def runIsp (s : Settings) (m : SourceModel) (r : CheckReport) : CheckReport :=
  let results := Segregation.ofModel ⟨s.fatInterfaceThreshold, s.stubRatioThreshold⟩ m
  { r with
    ispResults := results
    diagnostics := r.diagnostics
      ++ [(Diagnostic.ispSource, results.map (Diagnostic.ofSegregation r.path))] }

def run (s : Settings) (m : SourceModel) (r : CheckReport) : Principle → CheckReport
  | .srp => runSrp s m r
  | .ocp => runOcp s m r
  | .dip => runDip s m r
  | .isp => runIsp s m r

def text (s : Settings) (path content : String) (languageName : Option String)
    (asked : List String) : CheckReport :=
  let language := languageOf path languageName
  if supports s language then
    let m := SourceModel.ofText content language
    (selected s asked).foldl (run s m) { path, languageName := some m.languageName }
  else { path, languageName := language, skipped := true }

end Check

end DesignLint
