import DesignLint.CommandLine.Arguments
import DesignLint.Workspace.Steps

/-! The service that offers a workspace to an agent: its arguments, and a session from its start to
its shutdown. -/

namespace DesignLint.Service

open CommandLine

def grammar : Grammar where
  options := [⟨"--config", .one⟩, ⟨"--project-root", .one⟩, ⟨"--no-watch", .flag⟩,
    ⟨"--no-semgrep", .flag⟩]
  places := .none

structure Options where
  settings : Settings
  watch : Bool
  deriving Repr

inductive Fault
  | stop (s : Stop)
  | load (e : LoadError)
  /-- The session cannot begin. -/
  | session (f : Session.Fault)
  deriving Repr

def ofArguments (t : FileTree) (args : List String) : Except Fault Options := do
  let a ← (parse grammar args).mapError .stop
  if !a.extras.isEmpty then throw (.stop .usage)
  let root := (a.value? "--project-root").map fun root => ("project_root", Value.str root)
  let s ← (Settings.load t (a.value? "--config") root.toList).mapError .load
  pure
    { settings := if a.hasFlag "--no-semgrep" then { s with scannerEnabled := false } else s
      watch := !a.hasFlag "--no-watch" }

def Options.fields (o : Options) : List (String × Value) :=
  Assoc.set o.settings.fields "watch" (.bool o.watch)

/-- A whole session: steps between the start and the shutdown. -/
def run (t : FileTree) (o : Options) (replies : List Session.Reply) (steps : List Session.Step) :
    Except Fault (List Session.Answer × Session) := do
  let session ← (Session.begin t o.settings replies).mapError fun e => .session (.file e)
  let session ← if o.watch then session.watching.mapError .session else pure session
  let (answers, session) := session.run steps
  pure (answers, session.shutdown)

end DesignLint.Service
