import DesignLint.Workspace.Tool
import DesignLint.Workspace.Watcher

/-! A session: a workspace among its files, with watchers, their timers, and a scanner whose replies
are given beforehand. A reply may come with steps that take place before the scanner ends; the steps
of a session and those of a reply are the same. -/

namespace DesignLint.Session

inductive Step
  | write (path : String) (content : ByteArray)
  | delete (path : String)
  | analyze (path : String) (text : Option String) (force scan : Bool)
  | scanFile (path : String) (text : Option String) (force : Bool) (languageName : Option String)
  | scanWorkspace
  | diagnostics (path : Option String)
  | key (path : String)
  | isIgnored (path : String)
  /-- The file was left alone after a change. -/
  | changed (path : String) (force : Bool)
  | setChecks (fields : List (String × Value))
  | clear
  | watch
  | shutdown
  | modified (path : String) (isDirectory : Bool)
  | created (path : String) (isDirectory : Bool)
  /-- The first timer of the path that runs, runs out. -/
  | fire (path : String)
  | tool (call : ToolCall)

inductive Fault
  | scan (e : ScanError)
  | malformed (m : Malformed)
  | file (e : FileError)
  | settings (errors : List SettingError)
  | tool (e : ToolError)
  /-- The delay of a watcher is too long. -/
  | delay
  deriving Repr

inductive Outcome
  | done
  | report (r : CheckReport)
  | scan (o : ScanOutcome)
  | summary (s : ScanSummary)
  | diagnostics (entries : List (String × List Diagnostic))
  | text (s : String)
  | flag (b : Bool)
  | tool (r : ToolResponse)
  | fault (f : Fault)
  deriving Repr

structure View where
  status : Status
  lastError : Option String
  pending : Nat
  diagnostics : List (String × List Diagnostic)
  deriving Repr

mutual

inductive Launch
  | mk (command : List String) (cwd : String) (during : Option (List Answer))

/-- What a step did: its outcome, the scanners launched and the reports made meanwhile, and the
workspace and the timers after it. -/
inductive Answer
  | mk (outcome : Outcome) (launches : List Launch) (reports : List CheckReport) (view : View)
    (timers : List Timer)

end

structure Reply where
  /-- What takes place before it ends. -/
  during : Option (List Step) := none
  /-- Its output, or why it could not be launched. -/
  output : Except String ProcessOutput

/-- The output of a scanner with no reply left, which succeeds without a word. -/
def quietOutput : ProcessOutput := ⟨some "", 0⟩

inductive ObserverCall
  | schedule (directory : String)
  | start
  | stop
  | join
  deriving Repr, DecidableEq

end Session

open Session in
structure Session where
  files : FileTree
  workspace : Workspace
  replies : List Reply := []
  launches : List Launch := []
  /-- The reports of files that changed. -/
  reports : List CheckReport := []
  /-- Everything that each observer was told. -/
  observers : List (List ObserverCall) := []
  /-- The observer that is at work. -/
  observer : Option Nat := none
  /-- The last one receives the events; the timers of those before may still run. -/
  watchers : List Watcher := []

namespace Session

def begin (t : FileTree) (s : Settings) (replies : List Reply) : Except FileError Session := do
  let root ← s.root t
  pure { files := t, workspace := .ofSettings root s, replies }

abbrev Act := ExceptT Fault (StateM Session)

abbrev Launcher := List String → StateM Session (Except String ProcessOutput)

def ofExcept {ε α : Type} (fault : ε → Fault) : Except ε α → Act α
  | .ok a => pure a
  | .error e => throw (fault e)

def Fault.ofTool : ToolFault → Fault
  | .tool e => .tool e
  | .file e => .file e

def attempt {α : Type} (act : Act α) : Act (Except Fault α) :=
  ExceptT.lift act.run

def setWorkspace (w : Workspace) : StateM Session Unit :=
  modify fun s => { s with workspace := w }

end Session

end DesignLint
