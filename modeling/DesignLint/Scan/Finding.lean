import DesignLint.Data.Json.Reader
import DesignLint.Data.Number
import DesignLint.Decimal.Binary
import DesignLint.Report.Diagnostic
import DesignLint.Text.Case

/-! The report of an outside scanner: a JSON object whose `results` are findings and whose `errors`
are objects. What the scanner writes freely (messages, names of rules, metadata) is passed on as it
is; lines and columns count from 1 in the report and from 0 here. -/

namespace DesignLint

structure Finding where
  checkId : Value
  path : Value
  startLine : Int
  startCol : Int
  endLine : Int
  endCol : Int
  message : Value
  severity : Severity
  metadata : Value
  lines : Value
  deriving Repr

structure ScanReport where
  findings : List Finding := []
  errors : List Value := []
  deriving Repr

/-- A scan that failed as scans may. -/
inductive ScanError
  /-- The scanner could not be launched. -/
  | launch (reason : String)
  /-- The output is not JSON. -/
  | unreadable (exitCode : Int)
  /-- The output is JSON but not an object. -/
  | unexpected (exitCode : Int)
  | disabled
  deriving Repr, DecidableEq

def ScanError.message : ScanError → String
  | .launch reason => "Failed to run semgrep: " ++ reason
  | .unreadable code => "Failed to parse semgrep output (exit code " ++ toString code ++ ")"
  | .unexpected code => "Unexpected semgrep output (exit code " ++ toString code ++ ")"
  | .disabled => "Semgrep is disabled in the configuration"

/-- How an object in the output departs from the form of a report. -/
inductive Malformed
  /-- Something that should have fields has none. -/
  | notObject
  /-- Something that should have items has none. -/
  | noItems
  | pathNotText
  /-- A path cannot be used at all. -/
  | badPath
  /-- A path has half of a character, so that no file can have it as its name. -/
  | unencodable
  | infinitePosition
  | integerTooLong
  /-- Values nest too deep. -/
  | tooDeep
  deriving Repr, DecidableEq

inductive ScanFault
  | failed (e : ScanError)
  | malformed (m : Malformed)
  deriving Repr, DecidableEq

structure ProcessOutput where
  stdout : Option String
  exitCode : Int := 0
  deriving Repr

namespace Severity

/-- The severity with this name in any letter case; a warning if there is none. -/
def ofName (name : String) : Severity :=
  match String.ofList (name.toList.map Text.asciiCapital) with
  | "ERROR" => .error
  | "INFO" => .information
  | _ => .warning

/-- A severity in a report. What is not present is a warning; else it must be text. -/
def ofValue (v : Value) : Except Malformed Severity :=
  match v with
  | .str (.proper name) => .ok (ofName name)
  | .str (.broken _) => .ok .warning
  | v => if v.isPresent then .error .notObject else .ok .warning

end Severity

namespace Scan

def fieldsOf : Value → Except Malformed (List (RawText × Value))
  | .object fields => .ok fields
  | _ => .error .notObject

/-- The items of a value: the names of an object's fields, what stands at the places of a text. -/
def itemsOf : Value → Except Malformed (List Value)
  | .list items => .ok items
  | .object fields => .ok (fields.map fun f => .str f.1)
  | .str t => .ok (t.glyphs.map fun g => .str (.ofGlyphs [g]))
  | _ => .error .noItems

def field (fields : List (RawText × Value)) (name : RawText) (absent : Value) : Value :=
  (fields.lookup name).getD absent

/-- A field, or an empty object if it is not present. -/
def part (fields : List (RawText × Value)) (name : RawText) : Value :=
  let v := field fields name .null
  if v.isPresent then v else .object []

def integer? : Value → Except Malformed (Option Int)
  | .int n => .ok (some n)
  | .bool b => .ok (some (if b then 1 else 0))
  | .float x =>
    match Decimal.Binary.ofFloat x with
    | .nan => .ok none
    | .infinite _ => .error .infinitePosition
    | .finite negative mantissa exponent =>
      .ok (some (Decimal.truncate negative mantissa exponent))
  | .str (.proper s) => .ok (Number.int? s.toList)
  | _ => .ok none

/-- A position of a report, counted from 0. What is no integer is position 0, and so is everything
below. -/
def position (v : Value) : Except Malformed Int :=
  (integer? v).map fun n =>
    match n with
    | some n => if n < 1 then 0 else n - 1
    | none => 0

def partField (v : Value) (name : RawText) (absent : Value) : Except Malformed Value := do
  pure (field (← fieldsOf v) name absent)

end Scan

namespace Finding

open Scan in
def ofValue (v : Value) : Except Malformed Finding := do
  let fields ← fieldsOf v
  let start := part fields "start"
  let stop := part fields "end"
  let extra := part fields "extra"
  let startLine ← position (← partField start "line" .null)
  let startCol ← position (← partField start "col" .null)
  let endLine ← position (← partField stop "line" .null)
  let endCol ← position (← partField stop "col" .null)
  let extra ← fieldsOf extra
  let severity ← Severity.ofValue (field extra "severity" .null)
  pure {
    checkId := field fields "check_id" (.str "")
    path := field fields "path" (.str "")
    startLine, startCol, endLine, endCol
    message := field extra "message" (.str "")
    severity
    metadata := part extra "metadata"
    lines := field extra "lines" (.str "") }

def toDiagnostic (f : Finding) : Diagnostic where
  startLine := f.startLine
  startCol := f.startCol
  endLine := f.endLine
  endCol := f.endCol
  message := f.message
  severity := f.severity
  source := Diagnostic.scannerSource
  code := f.checkId

end Finding

namespace ScanReport

def ofFields (fields : List (RawText × Value)) : Except Malformed ScanReport := do
  let results ← Scan.itemsOf (Scan.field fields "results" (.list []))
  let findings ← results.mapM Finding.ofValue
  let errors ← Scan.itemsOf (Scan.field fields "errors" (.list []))
  let _ ← errors.mapM Scan.fieldsOf
  pure ⟨findings, errors⟩

/-- The report in the output of a scanner, whose values nest at most `depth` deep. A scanner that succeeds
without a word has found nothing. -/
def ofOutput (depth : Nat) (o : ProcessOutput) : Except ScanFault ScanReport :=
  let text := o.stdout.getD ""
  match Json.parse depth text with
  | .ok (.object fields) => (ofFields fields).mapError .malformed
  | .ok _ => .error (.failed (.unexpected o.exitCode))
  | .error .integerTooLong => .error (.malformed .integerTooLong)
  | .error .tooDeep => .error (.malformed .tooDeep)
  | .error .malformed =>
    if o.exitCode == 0 && (Text.trim text.toList).isEmpty then .ok {}
    else .error (.failed (.unreadable o.exitCode))

end ScanReport

end DesignLint
