import DesignLint.CommandLine.Arguments
import DesignLint.Data.Display
import DesignLint.Report.Fields
import DesignLint.Report.Target
import DesignLint.Workspace.Steps

/-! The commands: checking files and directories, running the scanner, and watching. A command ends
with 0 if all is well, with 1 if something was found and with 2 if it could not be carried out. -/

namespace DesignLint

inductive Command
  | check (paths : List String) (config : Option String) (principles : List String)
    (json quiet : Bool)
  | scan (path : String) (config : Option String) (json : Bool)
  | watch (directory : Option String) (config : Option String)
  deriving Repr, DecidableEq

namespace CommandLine

def commonOptions : List OptionSpec := [⟨"--config", .one⟩, ⟨"--verbose", .flag⟩]

def checkGrammar : Grammar where
  options := commonOptions
    ++ [⟨"--principles", .many Principle.names⟩, ⟨"--json", .flag⟩, ⟨"--quiet", .flag⟩]
  places := .some

def scanGrammar : Grammar where
  options := commonOptions ++ [⟨"--json", .flag⟩]
  places := .optional

def watchGrammar : Grammar where
  options := commonOptions ++ [⟨"--no-semgrep", .flag⟩]
  places := .optional

/-- The arguments of a command, none of which is left over. -/
def parseAll (g : Grammar) (args : List String) : Except Stop Arguments := do
  let a ← parse g args
  if a.extras.isEmpty then pure a else throw .usage

end CommandLine

namespace Command

open CommandLine

def ofName (name : String) (args : List String) : Except Stop Command :=
  match name with
  | "check" => do
    let a ← parseAll checkGrammar args
    pure (.check (a.places.getD []) (a.value? "--config") (a.valuesOf "--principles")
      (a.hasFlag "--json") (a.hasFlag "--quiet"))
  | "scan" => do
    let a ← parseAll scanGrammar args
    pure (.scan (a.place?.getD ".") (a.value? "--config") (a.hasFlag "--json"))
  | "watch" => do
    let a ← parseAll watchGrammar args
    pure (.watch a.place? (a.value? "--config"))
  | _ => throw .usage

/-- The command that the arguments give. What stands before its name can only ask for help. -/
def ofArguments : List String → Except Stop Command
  | [] => .error .usage
  | arg :: args => do
    match ← classify ⟨[], .none⟩ arg with
    | .place name => ofName name args
    | .stop s => throw s
    | .unknown _ =>
      let _ ← ofArguments args
      throw .usage
    | _ => throw .usage

end Command

structure CommandResult where
  exitCode : Nat
  out : String := ""
  errors : List String := []
  launches : List Session.Launch := []
  observers : List (List Session.ObserverCall) := []

inductive CommandFault
  | load (e : LoadError)
  | file (e : FileError)
  | malformed (m : Malformed)
  | session (f : Session.Fault)
  deriving Repr

namespace Command

def errorLine (message : String) : String := "❌ Error: " ++ message

def failure (messages : List String) : CommandResult :=
  { exitCode := 2, errors := messages.map errorLine }

def reportText (r : CheckReport) : String :=
  if r.hasViolations then r.markdown ++ "\n"
  else "✅ " ++ r.path ++ ": no SOLID violations\n"

/-- The files to check: those named, and the source files below the directories named. -/
def filesToCheck (t : FileTree) (s : Settings) (paths : List Path) : Except FileError (List Path) := do
  let files ← paths.mapM fun p => do if ← t.isDirectory p then Check.covered t s p else pure [p]
  pure files.flatten

/-- The reports of files. A file that cannot be read, or whose language is not checked, has none. -/
def reportsOf (t : FileTree) (s : Settings) (files : List Path) (principles : List String) :
    List CheckReport :=
  files.filterMap fun p =>
    match Check.file t s p principles with
    | .ok r => if r.skipped then none else some r
    | .error _ => none

def checkText (reports : List CheckReport) (quiet : Bool) : String :=
  let shown := reports.filter fun r => r.hasViolations || !quiet
  let total := reports.foldr (fun r n => r.violationCount + n) 0
  String.join (shown.map reportText) ++ "\n📊 Checked " ++ toString reports.length
    ++ " file(s), found " ++ toString total ++ " violation(s)\n"

def runCheck (t : FileTree) (paths : List String) (config : Option String) (principles : List String)
    (json quiet : Bool) : Except CommandFault CommandResult := do
  let paths := paths.map Path.ofString
  let missing ← (paths.filterM fun p => (!·) <$> t.has p).mapError .file
  if missing.isEmpty then
    let s ← (Settings.load t config []).mapError .load
    let files ← (filesToCheck t s paths).mapError .file
    let reports := reportsOf t s files principles
    let out :=
      if json then Json.pretty (.listOf CheckReport.toValue reports) ++ "\n"
      else checkText reports quiet
    pure { exitCode := if reports.any CheckReport.hasViolations then 1 else 0, out }
  else pure (failure (missing.map fun p => p.toString ++ " does not exist."))

def findingLine (f : Finding) : String :=
  "  " ++ toString (f.startLine + 1) ++ ":" ++ toString (f.startCol + 1) ++ " " ++ f.severity.name
    ++ " [" ++ f.checkId.display ++ "] " ++ f.message.display ++ "\n"

def findingsText (groups : List (String × List Finding)) (count : Nat) : String :=
  String.join (groups.map fun g => "\n" ++ g.1 ++ "\n" ++ String.join (g.2.map findingLine))
    ++ "\n📊 " ++ toString count ++ " finding(s)\n"

def findingValue (f : Finding) : Value := .object [
  ("check_id", f.checkId),
  ("path", f.path),
  ("start_line", .int f.startLine),
  ("start_col", .int f.startCol),
  ("end_line", .int f.endLine),
  ("end_col", .int f.endCol),
  ("message", f.message),
  ("severity", .str f.severity.name)]

def runScan (t : FileTree) (replies : List Session.Reply) (path : String) (config : Option String)
    (json : Bool) : Except CommandFault CommandResult := do
  let target ← (t.resolve (.ofString path)).mapError .file
  if ← (t.has target).mapError .file then
    let s ← (Settings.load t config []).mapError .load
    let session ← (Session.begin t s replies).mapError .file
    let scanner := Scanner.ofSettings session.workspace.root s
    let (output, session) :=
      (Session.launcher replies.length (scanner.command target.toString)).run session
    match scanner.report output with
    | .error (.failed e) => pure { failure [e.message] with launches := session.launches }
    | .error (.malformed m) => throw (.malformed m)
    | .ok report =>
      let out ←
        if json then pure (Json.pretty (.listOf findingValue report.findings) ++ "\n")
        else do
          let groups ← (scanner.findingsByFile report).mapError .malformed
          pure (findingsText groups report.findings.length)
      pure
        { exitCode := if report.findings.isEmpty then 0 else 1, out, launches := session.launches }
  else pure (failure [target.toString ++ " does not exist."])

def watchOverrides : Option Path → List (String × Value)
  | some d => [("project_root", .str d.toString), ("watch_directories", .list [.str d.toString])]
  | none => []

/-- Watches until it is told to stop, which is at once here. -/
def watchDirectory (t : FileTree) (directory : Option Path) (config : Option String) :
    Except CommandFault CommandResult := do
  let s ← (Settings.load t config (watchOverrides directory)).mapError .load
  let session ← (Session.begin t s []).mapError .file
  let session ← session.watching.mapError .session
  pure {
    exitCode := 0
    out := "👀 Watching " ++ ", ".intercalate s.watchDirectories ++ " (Ctrl+C to stop)\n"
      ++ "\n👋 Stopped watching\n"
    observers := session.shutdown.observers }

def runWatch (t : FileTree) (directory : Option String) (config : Option String) :
    Except CommandFault CommandResult := do
  match directory.filter (· != "") with
  | none => watchDirectory t none config
  | some name =>
    let d ← (t.resolve (.ofString name)).mapError .file
    if ← (t.isDirectory d).mapError .file then watchDirectory t (some d) config
    else pure (failure [d.toString ++ " is not a valid directory to watch."])

def run (t : FileTree) (replies : List Session.Reply) :
    Command → Except CommandFault CommandResult
  | .check paths config principles json quiet => runCheck t paths config principles json quiet
  | .scan path config json => runScan t replies path config json
  | .watch directory config => runWatch t directory config

end Command

def CommandLine.run (t : FileTree) (replies : List Session.Reply) (args : List String) :
    Except CommandFault CommandResult :=
  match Command.ofArguments args with
  | .ok command => command.run t replies
  | .error .help => .ok { exitCode := 0 }
  | .error .usage => .ok { exitCode := 2 }

end DesignLint
