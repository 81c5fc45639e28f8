import DesignLint.Workspace.Serving
import DesignLint.Workspace.Watching

/-! The steps of a session, one after the other. Every step is answered with all that it caused: its
outcome, the scanners launched meanwhile with what took place during each, the reports, and what can
be seen of the workspace after it. -/

namespace DesignLint.Session

def perform (launch : Launcher) : Step → Act Outcome
  | .write path content => do
    modify fun s => { s with files := s.files.write (.ofString path) content }
    pure .done
  | .delete path => do
    modify fun s => { s with files := s.files.delete (.ofString path) }
    pure .done
  | .analyze path text force scan => .report <$> analyze launch path text force scan
  | .scanFile path text force language => .scan <$> scanFile launch path text force language
  | .scanWorkspace => .summary <$> scanWorkspace launch
  | .diagnostics path => do
    .diagnostics <$> ofExcept .file ((← get).workspace.diagnosticsOf path)
  | .key path => do .text <$> ofExcept .file ((← get).workspace.key path)
  | .isIgnored path => do
    .flag <$> ofExcept .file ((← get).workspace.isIgnored (← get).files path)
  | .changed path force => do
    changed launch path force
    pure .done
  | .setChecks fields => do
    let checks ← ofExcept .settings (Settings.ofFields fields)
    modify fun s => { s with workspace := { s.workspace with checks } }
    pure .done
  | .clear => do
    modify fun s => { s with workspace := s.workspace.clear }
    pure .done
  | .watch => do
    startWatching
    pure .done
  | .shutdown => do
    modify shutdown
    pure .done
  | .modified path isDirectory => do
    receive path isDirectory Watcher.scanOnModify fun w => w.modified path isDirectory
    pure .done
  | .created path isDirectory => do
    receive path isDirectory Watcher.scanOnCreate fun w => w.created path isDirectory
    pure .done
  | .fire path => .flag <$> fire launch path
  | .tool call => .tool <$> callTool launch call

def view (w : Workspace) : View where
  status := w.status
  lastError := w.lastError
  pending := w.scheduler.pending.length
  diagnostics := w.diagnostics.all

def answer (launch : Launcher) (step : Step) : StateM Session Answer := do
  let before ← get
  let outcome ← (perform launch step).run
  let after ← get
  let outcome :=
    match outcome with
    | .ok o => o
    | .error f => .fault f
  pure (.mk outcome (after.launches.drop before.launches.length)
    (after.reports.drop before.reports.length) (view after.workspace)
    (after.watchers.flatMap Watcher.timers))

def answers (launch : Launcher) : List Step → StateM Session (List Answer)
  | [] => pure []
  | step :: steps => do
    let a ← answer launch step
    let as ← answers launch steps
    pure (a :: as)

def note (command : List String) : StateM Session Unit :=
  modify fun s =>
    { s with launches := s.launches ++ [.mk command s.workspace.root.toString none] }

/-- The scanner with so many replies at most. The steps that come with a reply use the replies after
it. -/
def launcher : Nat → Launcher
  | 0 => fun command => do
    note command
    pure (.ok quietOutput)
  | n + 1 => fun command => do
    let place := (← get).launches.length
    note command
    match (← get).replies with
    | [] => pure (.ok quietOutput)
    | reply :: replies =>
      modify fun s => { s with replies }
      if let some steps := reply.during then
        let as ← answers (launcher n) steps
        modify fun s =>
          { s with
            launches := s.launches.modify place fun (.mk command cwd _) => .mk command cwd (some as) }
      pure reply.output

def run (s : Session) (steps : List Step) : List Answer × Session :=
  (answers (launcher s.replies.length) steps).run s

end DesignLint.Session
