import DesignLint.Workspace.State

/-! The tools that a workspace offers to an agent: what can be called, what it answers, and the errors
with their codes. Code 4001 says that the call is at fault, 5001 that the workspace cannot serve it. -/

namespace DesignLint

inductive ToolCall
  | ping (message : String)
  /-- Checks one principle; an empty content is read from the file. -/
  | principle (p : Principle) (path content languageName : String)
  /-- Checks some principles, or all if none is named. -/
  | file (path content : String) (principles : List String)
  | scanFile (path : String) (force : Bool)
  | scanWorkspace
  /-- The diagnostics of one file, or of all if the path is empty. -/
  | diagnostics (path : String)
  | clear
  deriving Repr

inductive ToolResponse
  | echo (message : String)
  | principle (p : Principle) (report : CheckReport)
  | file (report : CheckReport)
  | scan (path : String) (outcome : ScanOutcome) (status : Status) (entries : List Diagnostic)
  | workspace (summary : ScanSummary) (status : Status)
  | diagnostics (status : Status) (entries : List (String × List Diagnostic))
  | cleared (status : Status)
  deriving Repr

/-- The document of a report, or a sentence that there is nothing to say. -/
def ToolResponse.documentOf (r : CheckReport) : String :=
  if r.markdown = "" then "No SOLID violations found." else r.markdown

inductive ToolError
  /-- There is no workspace. -/
  | unavailable
  | unknownPrinciples (names : List String)
  | nothingToCheck (path : String)
  | nothingToScan (path : String)
  | unreadable (path : String)
  | unsupported (path : String) (languages : List String)
  | scannerUnavailable
  | scanFailed (reason : Option String)
  deriving Repr, DecidableEq

namespace ToolError

def code : ToolError → Nat
  | .unavailable | .scannerUnavailable | .scanFailed _ => 5001
  | _ => 4001

def message : ToolError → String
  | .unavailable => "Analyzer unavailable"
  | .unknownPrinciples names => "Unknown principle(s): " ++ ", ".intercalate names
  | .nothingToCheck path | .nothingToScan path => "File not found: " ++ path
  | .unreadable path => "Could not read " ++ path
  | .unsupported path _ => "Unsupported language for " ++ path
  | .scannerUnavailable => "Semgrep unavailable"
  | .scanFailed _ => "Semgrep scan failed"

def hint : ToolError → Option String
  | .unavailable => some "Start the server with a configuration file"
  | .unknownPrinciples _ => some ("Valid principles: " ++ ", ".intercalate Principle.names)
  | .nothingToCheck _ => some "Pass an existing file path or the file content"
  | .nothingToScan _ => some "Pass a path relative to the project root or an absolute path"
  | .unreadable _ => none
  | .unsupported _ languages => some ("Enabled languages: " ++ ", ".intercalate languages)
  | .scannerUnavailable => some "Set semgrep_enabled: true in the configuration"
  | .scanFailed reason => reason.filter (· != "")

end ToolError

namespace ToolCall

def fault? : ToolCall → Option ToolError
  | .file _ _ principles =>
    let unknown := principles.filter fun p => !Principle.names.contains p
    if unknown.isEmpty then none else some (.unknownPrinciples unknown)
  | _ => none

def withoutWorkspace (c : ToolCall) : Except ToolError ToolResponse :=
  match c.fault?, c with
  | some e, _ => .error e
  | none, .ping message => .ok (.echo message)
  | none, _ => .error .unavailable

end ToolCall

inductive ToolFault
  | tool (e : ToolError)
  /-- The path of the call cannot even be asked for. -/
  | file (e : FileError)
  deriving Repr, DecidableEq

namespace Workspace

def contentFor (t : FileTree) (path key content : String) : Except ToolFault String :=
  if content != "" then .ok content
  else
    match t.isFile (.ofString key) with
    | .error e => .error (.file e)
    | .ok true => (t.readText (.ofString key)).mapError fun _ => .tool (.unreadable path)
    | .ok false => .error (.tool (.nothingToCheck path))

/-- Checks a document for a tool; nothing is published. -/
def inspect (w : Workspace) (t : FileTree) (path content languageName : String)
    (asked : List String) : Except ToolFault CheckReport := do
  let key ← (w.key path).mapError .file
  let content ← contentFor t path key content
  let report := Check.text w.checks key content (some languageName) asked
  if report.skipped then throw (.tool (.unsupported path w.settings.languages)) else pure report

/-- Publishes the diagnostics of a report and leaves those of principles it does not cover. -/
def addReport (w : Workspace) (r : CheckReport) : Workspace :=
  { w with
    diagnostics := r.diagnostics.foldl (fun store d => store.replace r.path d.1 d.2) w.diagnostics }

end Workspace

end DesignLint
