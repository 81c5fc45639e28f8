import DesignLint.Data.Value
import DesignLint.Report.Markdown

/-! Results as diagnostics of an editor. Each result gives one warning on its first line; the message
ends with the document for that result alone. -/

namespace DesignLint

inductive Severity
  | error
  | warning
  | information
  deriving Repr, DecidableEq

def Severity.name : Severity → String
  | .error => "error"
  | .warning => "warning"
  | .information => "information"

/-- A message about a place in a document. The message and the code of an outside scanner are passed
on as they are, so they need not be text. -/
structure Diagnostic where
  startLine : Int
  startCol : Int
  endLine : Int
  endCol : Int
  message : Value
  severity : Severity
  source : String
  code : Value
  deriving Repr

namespace Diagnostic

def srpSource : String := "solid-srp"

def ocpSource : String := "solid-ocp"

def dipSource : String := "solid-dip"

def ispSource : String := "solid-isp"

def scannerSource : String := "semgrep"

def principleSources : List String := [srpSource, ocpSource, dipSource, ispSource]

def separator : String := "\n\n--- Agent Prompt ---\n"

def onLine (line : Int) (message source code : String) : Diagnostic where
  startLine := line
  startCol := 0
  endLine := line
  endCol := 100
  message := .str message
  severity := .warning
  source := source
  code := .str code

def ofCohesion (file : String) (r : CohesionResult) : Diagnostic :=
  onLine r.startLine
    ("SRP Violation: Class '" ++ r.className ++ "' has LCOM4=" ++ toString r.lcom4 ++ ". "
      ++ r.suggestion ++ separator ++ Markdown.cohesion [r] file)
    srpSource "LCOM4"

def ofOpenness (file : String) (r : OpennessResult) : Diagnostic :=
  onLine r.startLine
    ("OCP Violation: Method '" ++ r.methodName ++ "' in class '" ++ r.className
      ++ "' has OCP Score=" ++ r.score.fixed 1 ++ ". " ++ r.suggestion ++ separator
      ++ Markdown.openness [r] file)
    ocpSource "OCP"

def ofInversion (file : String) (r : InversionResult) : Diagnostic :=
  onLine r.startLine
    ("DIP Violation: Class '" ++ r.className ++ "' has DIP Score=" ++ r.score.fixed 1
      ++ ", DII=" ++ Markdown.percent 0 r.injectionIndex ++ ". " ++ r.suggestion ++ separator
      ++ Markdown.inversion [r] file)
    dipSource "DIP"

def ofSegregation (file : String) (r : SegregationResult) : Diagnostic :=
  let document := separator ++ Markdown.segregation [r] file
  if r.isInterface then
    onLine r.startLine
      ("ISP Violation: Interface '" ++ r.className ++ "' has " ++ toString r.abstractMethods
        ++ " abstract methods (fat interface). " ++ r.suggestion ++ document)
      ispSource "ISP-FAT"
  else
    onLine r.startLine
      ("ISP Violation: Class '" ++ r.className ++ "' has "
        ++ toString (r.emptyMethods + r.notImplemented) ++ " stub method(s) (SIR="
        ++ Markdown.percent 0 r.stubRatio ++ "). " ++ r.suggestion ++ document)
      ispSource "ISP-STUB"

def ofAll? {α : Type} (isShowable : α → Bool) (diagnostic : α → Diagnostic) (results : List α) :
    Option (List Diagnostic) :=
  if results.all isShowable then some (results.map diagnostic) else none

end Diagnostic

end DesignLint
