import DesignLint.File.Ignore
import DesignLint.Report.Check
import DesignLint.Report.Store
import DesignLint.Scan.Scanner
import DesignLint.Scan.Scheduler
import DesignLint.Settings.Load

/-! A workspace: the diagnostics of its documents, the queue of scans, and how the last scan ended.
A scan has two parts here, its beginning and its completion with what the scanner put out; other
things may happen to the workspace in between. -/

namespace DesignLint

inductive Status
  | idle
  | scanning
  | ok
  | issues
  | warning
  deriving Repr, DecidableEq

def Status.name : Status → String
  | .idle => "idle"
  | .scanning => "scanning"
  | .ok => "ok"
  | .issues => "issues"
  | .warning => "warning"

structure Workspace where
  settings : Settings
  /-- The settings of the checks. -/
  checks : Settings
  root : Path
  /-- The scanner, unless it is disabled. -/
  scanner : Option Scanner
  scheduler : Scheduler
  diagnostics : Store Diagnostic := {}
  status : Status := .idle
  lastError : Option String := none
  deriving Repr

/-- How many files and findings a scan of the whole workspace has, and how many errors. -/
structure ScanSummary where
  files : Nat
  findings : Nat
  errors : Nat
  deriving Repr, DecidableEq

def Scanner.ofSettings (root : Path) (s : Settings) (depth : Nat := Json.usualDepth) : Scanner :=
  ⟨s.scanner root, (s.rules root).toString, root, depth⟩

namespace Workspace

def ofSettings (root : Path) (s : Settings) (depth : Nat := Json.usualDepth) : Workspace where
  settings := s
  checks := s
  root := root
  scanner := if s.scannerEnabled then some (.ofSettings root s depth) else none
  scheduler := { useCache := s.useCache }

/-- The name under which a document is kept: its absolute path, seen from the root. -/
def key (w : Workspace) (path : String) : Except FileError String :=
  match Path.resolve? w.root (.ofString path) with
  | some p => .ok p.toString
  | none => .error .badPath

/-- Is a file left out? Its path is seen from the current directory. -/
def isIgnored (w : Workspace) (t : FileTree) (path : String) : Except FileError Bool := do
  let path ← t.resolve (.ofString path)
  pure (Ignore.isIgnored path w.root w.settings.ignoredPatterns [])

/-- Publishes the diagnostics of a report; what the principles it does not cover had published is
removed. -/
def publish (w : Workspace) (r : CheckReport) : Workspace :=
  let stale := Diagnostic.principleSources.filter fun source => !Assoc.has r.diagnostics source
  let cleared := w.diagnostics.clearSources r.path stale
  { w with
    diagnostics := r.diagnostics.foldl (fun store d => store.replace r.path d.1 d.2) cleared }

def check (w : Workspace) (key text : String) : Workspace × CheckReport :=
  let report := Check.text w.checks key text none []
  (w.publish report, report)

/-- The status when nothing is wrong with the scans. -/
def settledStatus (store : Store Diagnostic) : Status :=
  if store.size == 0 then .ok else .issues

def beginScan (w : Workspace) : Workspace :=
  { w with status := .scanning }

def failScan (w : Workspace) (e : ScanError) : Workspace :=
  { w with status := .warning, lastError := some e.message }

def settleScan (w : Workspace) (found : List (String × List Finding)) : Workspace :=
  let store := found.foldl (fun store d =>
    store.replace d.1 Diagnostic.scannerSource (d.2.map Finding.toDiagnostic)) w.diagnostics
  { w with diagnostics := store, lastError := none, status := settledStatus store }

/-- What became of a submission: a scan has begun, or it needs none now. -/
inductive Submission
  | begun
  | settled (o : ScanOutcome)
  deriving Repr, DecidableEq

def submit (w : Workspace) (d : Document) (force : Bool) : Workspace × Submission :=
  match w.scheduler.decision ⟨d, force⟩ with
  | .skip => (w, .settled .skipped)
  | .wait =>
    let pending := Scheduler.enqueue w.scheduler.pending ⟨d, force⟩
    ({ w with scheduler := { w.scheduler with pending } }, .settled .queued)
  | .start => ({ w with scheduler := w.scheduler.start }, .begun)

def nextDocument (w : Workspace) : Workspace × Option Document :=
  let (scheduler, _, d) := w.scheduler.take
  ({ w with scheduler }, d)

def release (w : Workspace) (d : Document) (succeeded : Bool) : Workspace :=
  { w with scheduler := w.scheduler.finish d succeeded }

/-- Completes the scan of a document with what the scanner put out. A malformed report ends the scan
but leaves the status as it is. -/
def completeScan (w : Workspace) (s : Scanner) (d : Document)
    (output : Except String ProcessOutput) : Workspace × Except Malformed ScanOutcome :=
  match s.report output with
  | .error (.failed e) => ((w.failScan e).release d false, .ok .failed)
  | .error (.malformed m) => (w.release d false, .error m)
  | .ok report =>
    match s.findingsFor report d.path with
    | .error m => (w.release d false, .error m)
    | .ok findings => ((w.settleScan [(d.path, findings)]).release d true, .ok .completed)

/-- Begins a scan of the whole workspace: everything known so far is forgotten. -/
def beginFullScan (w : Workspace) : Workspace :=
  { w with
    scheduler := w.scheduler.clear
    diagnostics := w.diagnostics.clearAll
    status := .scanning }

def completeFullScan (w : Workspace) (s : Scanner) (output : Except String ProcessOutput) :
    Workspace × Except ScanFault ScanSummary :=
  match s.report output with
  | .error (.failed e) => (w.failScan e, .error (.failed e))
  | .error (.malformed m) => (w, .error (.malformed m))
  | .ok report =>
    match s.findingsByFile report with
    | .error m => (w, .error (.malformed m))
    | .ok found =>
      (w.settleScan found, .ok ⟨found.length, report.findings.length, report.errors.length⟩)

def clear (w : Workspace) : Workspace :=
  { w with
    scheduler := w.scheduler.clear
    diagnostics := w.diagnostics.clearAll
    status := .idle
    lastError := none }

def diagnosticsOf (w : Workspace) (path : Option String) :
    Except FileError (List (String × List Diagnostic)) := do
  match path with
  | none => pure w.diagnostics.all
  | some path =>
    let key ← w.key path
    pure [(key, w.diagnostics.get key)]

end Workspace

end DesignLint
