import DesignLint.Workspace.Scanning

/-! The tools of a session, carried out. What is wrong with a call is found before it changes anything,
a scan that fails excepted. -/

namespace DesignLint.Session

/-- Could a file not be read? A path that cannot be used at all is another matter. -/
def Fault.isUnreadable : Fault → Bool
  | .file .badPath => false
  | .file _ => true
  | _ => false

def checkAndScan (launch : Launcher) (key : String) (force : Bool) : Act ScanOutcome := do
  let content ← documentText key none
  let _ ← analyze launch key (some content) false false
  scanFile launch key (some content) force none

/-- The scan of a file for a tool. That a file could not be read is laid to the call wherever it shows, not
only when the file itself is read. -/
def toolScan (launch : Launcher) (path : String) (force : Bool) : Act ToolResponse := do
  let s ← get
  let key ← ofExcept .file (s.workspace.key path)
  if !(← ofExcept .file (s.files.isFile (.ofString key))) then throw (.tool (.nothingToScan path))
  if s.workspace.scanner.isNone then throw (.tool .scannerUnavailable)
  match ← attempt (checkAndScan launch key force) with
  | .error f => throw (if f.isUnreadable then .tool (.unreadable path) else f)
  | .ok outcome =>
    let w := (← get).workspace
    if outcome = .failed then throw (.tool (.scanFailed w.lastError))
    pure (.scan key outcome w.status (w.diagnostics.get key))

def callTool (launch : Launcher) (c : ToolCall) : Act ToolResponse := do
  let s ← get
  let w := s.workspace
  if let some e := c.fault? then throw (.tool e)
  match c with
  | .ping message => pure (.echo message)
  | .principle p path content languageName =>
    let report ← ofExcept .ofTool (w.inspect s.files path content languageName [p.name])
    pure (.principle p report)
  | .file path content principles =>
    let asked := if principles.isEmpty then Principle.names else principles
    let report ← ofExcept .ofTool (w.inspect s.files path content "" asked)
    setWorkspace (w.addReport report)
    pure (.file report)
  | .scanFile path force => toolScan launch path force
  | .scanWorkspace =>
    match ← attempt (scanWorkspace launch) with
    | .ok summary => pure (.workspace summary (← get).workspace.status)
    | .error (.scan e) => throw (.tool (.scanFailed (some e.message)))
    | .error f => throw f
  | .diagnostics path =>
    let entries ← ofExcept .file (w.diagnosticsOf (if path = "" then none else some path))
    pure (.diagnostics w.status entries)
  | .clear =>
    setWorkspace w.clear
    pure (.cleared w.clear.status)

end DesignLint.Session
