import DesignLint.Workspace.Scanning

/-! Watching directories in a session: observers, events, timers, and the check of a file that was left
alone after a change. -/

namespace DesignLint.Session

/-- Checks a file that was left alone after a change. A file that cannot be read is passed over, but not a
path that cannot be used. -/
def changed (launch : Launcher) (path : String) (force : Bool) : Act Unit := do
  match ← attempt (analyze launch path none force true) with
  | .ok report =>
    if !report.skipped then modify fun s => { s with reports := s.reports ++ [report] }
  | .error (.file .badPath) => throw (.file .badPath)
  | .error (.file _) => pure ()
  | .error f => throw f

def addWatcher : Act Unit := do
  match Watcher.ofSettings? (← get).workspace.settings with
  | some w => modify fun s => { s with watchers := s.watchers ++ [w] }
  | none => throw .delay

def tell (k : Nat) (call : ObserverCall) : Act Unit :=
  modify fun s => { s with observers := s.observers.modify k (· ++ [call]) }

def observe (k : Nat) (directory : String) : Act Unit := do
  let s ← get
  let place := s.workspace.root.join (.ofString directory)
  if ← ofExcept .file (s.files.isDirectory place) then tell k (.schedule place.toString)

def startWatching : Act Unit := do
  let k := (← get).observers.length
  modify fun s => { s with observers := s.observers ++ [[]] }
  addWatcher
  (← get).workspace.settings.watchDirectories.forM (observe k)
  tell k .start
  modify fun s => { s with observer := some k }

def watching (s : Session) : Except Fault Session :=
  let (result, s) := Session.startWatching.run s
  result.map fun _ => s

def currentWatcher? (s : Session) : Option Watcher :=
  s.watchers.getLast?

def modifyWatcher (s : Session) (f : Watcher → Watcher) : Session :=
  { s with watchers := s.watchers.modify (s.watchers.length - 1) f }

/-- Hands an event to the watcher that receives them; there is one from then on. Whether a file is left
out is asked only if a source file is concerned and such events count. -/
def receive (path : String) (isDirectory : Bool) (counts : Watcher → Bool)
    (take : Watcher → Bool → Watcher) : Act Unit := do
  if (← get).watchers.isEmpty then addWatcher
  let s ← get
  let asked := s.currentWatcher?.any fun w => counts w && w.isSource path isDirectory
  let ignored ← if asked then ofExcept .file (s.workspace.isIgnored s.files path) else pure true
  set (s.modifyWatcher fun w => take w ignored)

def shutdown (s : Session) : Session :=
  let s := s.modifyWatcher Watcher.cancelAll
  match s.observer with
  | none => s
  | some k =>
    { s with observers := s.observers.modify k (· ++ [.stop, .join]), observer := none }

/-- The first timer of a path that runs: the place of its watcher and its own. -/
def startedTimer? (watchers : List Watcher) (path : String) : Option (Nat × Nat) :=
  (watchers.zipIdx.filterMap fun (w, i) => (w.startedTimer? path).map fun k => (i, k)).head?

/-- Lets the first timer of a path that runs run out; tells whether there is one. -/
def fire (launch : Launcher) (path : String) : Act Bool := do
  let s ← get
  match startedTimer? s.watchers path with
  | none => pure false
  | some (i, k) =>
    let force := ((s.watchers[i]?.bind fun w => w.timers[k]?).map Timer.force).getD false
    set { s with watchers := s.watchers.modify i fun w => w.expire path k }
    changed launch path force
    pure true

end DesignLint.Session
