import DesignLint.Workspace.Session

/-! Scans in a session. A document is submitted to the scheduler; when its scan has ended, the documents
that came to wait meanwhile are scanned one after the other. How the scanner is launched is left open. -/

namespace DesignLint.Session

def scanDocument (launch : Launcher) (scanner : Scanner) (d : Document) : Act ScanOutcome := do
  modify fun s => { s with workspace := s.workspace.beginScan }
  let output ← launch (scanner.command d.path)
  let (w, outcome) := (← get).workspace.completeScan scanner d output
  setWorkspace w
  ofExcept .malformed outcome

def drain (launch : Launcher) (scanner : Scanner) : Nat → Act Unit
  | 0 => pure ()
  | n + 1 => do
    let (w, next) := (← get).workspace.nextDocument
    setWorkspace w
    match next with
    | none => pure ()
    | some d =>
      let _ ← scanDocument launch scanner d
      drain launch scanner n

/-- As many scans as can follow one another: one for each document that waits and one for each step
that may add a document. -/
def drainLimit (s : Session) : Nat :=
  s.workspace.scheduler.pending.length
    + s.replies.foldr (fun r n => (r.during.getD []).length + n) 0 + 1

def submit (launch : Launcher) (scanner : Scanner) (d : Document) (force : Bool) :
    Act ScanOutcome := do
  let limit := drainLimit (← get)
  let (w, submission) := (← get).workspace.submit d force
  setWorkspace w
  match submission with
  | .settled o => pure o
  | .begun =>
    let outcome ← scanDocument launch scanner d
    drain launch scanner limit
    pure outcome

def documentText (key : String) (text : Option String) : Act String := do
  match text with
  | some text => pure text
  | none => ofExcept .file ((← get).files.readText (.ofString key))

def scanner : Act Scanner := do
  match (← get).workspace.scanner with
  | some scanner => pure scanner
  | none => throw (.scan .disabled)

def scanFile (launch : Launcher) (path : String) (text : Option String) (force : Bool)
    (languageName : Option String) : Act ScanOutcome := do
  let scanner ← scanner
  let key ← ofExcept .file ((← get).workspace.key path)
  let text ← documentText key text
  submit launch scanner ⟨key, text, Check.languageOf key languageName⟩ force

def scanWorkspace (launch : Launcher) : Act ScanSummary := do
  let scanner ← scanner
  modify fun s => { s with workspace := s.workspace.beginFullScan }
  let output ← launch (scanner.command (← get).workspace.root.toString)
  let (w, result) := (← get).workspace.completeFullScan scanner output
  setWorkspace w
  match result with
  | .ok summary => pure summary
  | .error (.failed e) => throw (.scan e)
  | .error (.malformed m) => throw (.malformed m)

def analyze (launch : Launcher) (path : String) (text : Option String) (force scan : Bool) :
    Act CheckReport := do
  let key ← ofExcept .file ((← get).workspace.key path)
  let text ← documentText key text
  let (w, report) := (← get).workspace.check key text
  setWorkspace w
  if scan && !report.skipped && w.scanner.isSome then
    let _ ← scanFile launch key (some text) force report.languageName
  pure report

end DesignLint.Session
