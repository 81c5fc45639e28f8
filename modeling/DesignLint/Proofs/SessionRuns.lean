import DesignLint.Workspace.Steps
import Mathlib.Tactic

/-! Sessions without steps inside steps. As long as no reply of the scanner brings steps of its own, a
session is between two steps always quiet: no scan is in flight and none waits. So a document that is
submitted is skipped or scanned at once, and every action comes down to a function of the session. -/

namespace DesignLint.Session

def exec {α : Type} (act : Act α) (s : Session) : Except Fault α × Session :=
  act.run.run s

section Exec

variable {α β ε : Type} (s : Session)

@[simp] theorem exec_pure (a : α) : exec (pure a) s = (.ok a, s) := rfl

@[simp] theorem exec_throw (f : Fault) : exec (throw f : Act α) s = (.error f, s) := rfl

@[simp] theorem exec_get : exec (get : Act Session) s = (.ok s, s) := rfl

@[simp] theorem exec_set (s' : Session) : exec (set s' : Act PUnit) s = (.ok ⟨⟩, s') := rfl

@[simp] theorem exec_modify (f : Session → Session) :
    exec (modify f : Act PUnit) s = (.ok ⟨⟩, f s) := rfl

@[simp] theorem exec_lift (m : StateM Session α) :
    exec (liftM m : Act α) s = (.ok (m.run s).1, (m.run s).2) := rfl

@[simp] theorem run_setWorkspace (w : Workspace) :
    (setWorkspace w).run s = (⟨⟩, { s with workspace := w }) := rfl

@[simp] theorem exec_bind (act : Act α) (f : α → Act β) :
    exec (act >>= f) s =
      match exec act s with
      | (.ok a, s') => exec (f a) s'
      | (.error e, s') => (.error e, s') := by
  unfold exec
  rw [ExceptT.run_bind, StateT.run_bind]
  generalize (ExceptT.run act).run s = p
  obtain ⟨r, s'⟩ := p
  cases r with
  | ok a => rfl
  | error e => rfl

@[simp] theorem exec_map (act : Act α) (f : α → β) :
    exec (f <$> act) s = ((exec act s).1.map f, (exec act s).2) := by
  rw [map_eq_pure_bind, exec_bind]
  rcases exec act s with ⟨r, s'⟩
  cases r with
  | ok a => rfl
  | error e => rfl

@[simp] theorem exec_attempt (act : Act α) :
    exec (attempt act) s = (.ok (exec act s).1, (exec act s).2) := rfl

@[simp] theorem exec_ofExcept (fault : ε → Fault) (x : Except ε α) :
    exec (ofExcept fault x) s = (x.mapError fault, s) := by
  cases x with
  | ok a => rfl
  | error e => rfl

end Exec

/-- The replies to come bring no steps, and there are at most `n` of them. -/
structure Scripted (n : Nat) (s : Session) : Prop where
  plain : ∀ r ∈ s.replies, r.during = none
  enough : s.replies.length ≤ n

structure Quiet (n : Nat) (s : Session) : Prop extends Scripted n s where
  idle : s.workspace.scheduler.inFlight = false
  empty : s.workspace.scheduler.pending = []

def nextOutput (s : Session) : Except String ProcessOutput :=
  match s.replies with
  | [] => .ok quietOutput
  | r :: _ => r.output

def launched (s : Session) (command : List String) : Session :=
  { s with
    launches := s.launches ++ [.mk command s.workspace.root.toString none]
    replies := s.replies.tail }

theorem Scripted.launched {n : Nat} {s : Session} (h : Scripted n s) (command : List String) :
    Scripted n (s.launched command) where
  plain r hr := h.plain r (List.mem_of_mem_tail hr)
  enough := by
    have hn := h.enough
    simp only [Session.launched, List.length_tail]
    omega

theorem launcher_run {n : Nat} {s : Session} (h : Scripted n s) (command : List String) :
    (launcher n command).run s = (s.nextOutput, s.launched command) := by
  obtain ⟨hplain, henough⟩ := h
  cases n with
  | zero =>
    have hnil : s.replies = [] := List.length_eq_zero_iff.1 (Nat.le_zero.1 henough)
    simp [launcher, note, nextOutput, launched, hnil]
    rfl
  | succ n =>
    cases hr : s.replies with
    | nil =>
      simp [launcher, note, nextOutput, launched, hr]
      rfl
    | cons reply replies =>
      have hnone : reply.during = none := hplain reply (hr ▸ List.mem_cons_self)
      simp [launcher, note, nextOutput, launched, hr, hnone]
      rfl

end DesignLint.Session

namespace DesignLint

/-- What a report says about a file, if the scanner put one out that can be read. -/
def Scanner.findings? (s : Scanner) (output : Except String ProcessOutput) (file : String) :
    Option (List Finding) :=
  match s.report output with
  | .error _ => none
  | .ok report => (s.findingsFor report file).toOption

namespace Workspace

variable (w : Workspace) (scanner : Scanner) (d : Document) (output : Except String ProcessOutput)

theorem completeScan_of_some {findings : List Finding}
    (h : scanner.findings? output d.path = some findings) :
    w.completeScan scanner d output =
      ((w.settleScan [(d.path, findings)]).release d true, .ok .completed) := by
  unfold Scanner.findings? at h
  unfold completeScan
  cases hreport : scanner.report output with
  | error e => simp [hreport] at h
  | ok report =>
    cases hfound : scanner.findingsFor report d.path with
    | error m => simp [hreport, hfound, Except.toOption] at h
    | ok found =>
      simp only [hreport, hfound, Except.toOption, Option.some.injEq] at h
      simp [hfound, h]

/-- A scan without findings to show leaves the diagnostics and the digests alone. -/
theorem completeScan_of_none (h : scanner.findings? output d.path = none) :
    (w.completeScan scanner d output).1.scheduler = w.scheduler.finish d false ∧
      (w.completeScan scanner d output).1.diagnostics = w.diagnostics ∧
      ((w.completeScan scanner d output).2 = .ok .failed ∨
        ∃ m, (w.completeScan scanner d output).2 = .error m) := by
  unfold Scanner.findings? at h
  unfold completeScan
  cases hreport : scanner.report output with
  | error e =>
    cases e with
    | failed e => exact ⟨rfl, rfl, .inl rfl⟩
    | malformed m => exact ⟨rfl, rfl, .inr ⟨m, rfl⟩⟩
  | ok report =>
    cases hfound : scanner.findingsFor report d.path with
    | error m => simp [hfound, release]
    | ok found => simp [hreport, hfound, Except.toOption] at h

theorem completeScan_scheduler : (w.completeScan scanner d output).1.scheduler =
    w.scheduler.finish d (scanner.findings? output d.path).isSome := by
  cases h : scanner.findings? output d.path with
  | none => exact (w.completeScan_of_none scanner d output h).1
  | some findings =>
    rw [w.completeScan_of_some scanner d output h]
    rfl

theorem completeFullScan_scheduler :
    (w.completeFullScan scanner output).1.scheduler = w.scheduler := by
  unfold completeFullScan
  cases scanner.report output with
  | error e =>
    cases e with
    | failed e => rfl
    | malformed m => rfl
  | ok report =>
    cases h : scanner.findingsByFile report with
    | error m => simp [h]
    | ok found => simp [h, settleScan]

end Workspace

namespace Session

section Scans

variable {n : Nat} {s : Session}

theorem exec_scanDocument (h : Scripted n s) (scanner : Scanner) (d : Document) :
    exec (scanDocument (launcher n) scanner d) s =
      let r := s.workspace.beginScan.completeScan scanner d s.nextOutput
      (r.2.mapError .malformed, { s.launched (scanner.command d.path) with workspace := r.1 }) := by
  have hbegun : Scripted n { s with workspace := s.workspace.beginScan } := ⟨h.plain, h.enough⟩
  have hlaunch := launcher_run hbegun (scanner.command d.path)
  unfold scanDocument
  simp only [exec_bind, exec_modify, exec_lift, hlaunch, exec_get, run_setWorkspace, exec_ofExcept]
  rfl

/-- With nothing waiting there is nothing to drain. -/
theorem exec_drain (hidle : s.workspace.scheduler.inFlight = false)
    (hempty : s.workspace.scheduler.pending = []) (launch : Launcher) (scanner : Scanner) (k : Nat) :
    exec (drain launch scanner k) s = (.ok (), s) := by
  cases k with
  | zero => rfl
  | succ k =>
    have hnext : s.workspace.nextDocument = (s.workspace, none) := by
      rcases s with ⟨files, ⟨settings, checks, root, scanner, ⟨useCache, digests, pending, inFlight⟩,
        diagnostics, status, lastError⟩⟩
      subst hidle hempty
      rfl
    unfold drain
    simp [hnext]

def starting (s : Session) : Workspace :=
  { s.workspace with scheduler := s.workspace.scheduler.start }.beginScan

/-- The session behind a scan of a document, and how the scan ended. -/
def scanned (s : Session) (scanner : Scanner) (d : Document) :
    Except Malformed ScanOutcome × Session :=
  let r := s.starting.completeScan scanner d s.nextOutput
  (r.2, { s.launched (scanner.command d.path) with workspace := r.1 })

theorem Quiet.scanned (h : Quiet n s) (scanner : Scanner) (d : Document) :
    Quiet n (s.scanned scanner d).2 where
  plain := (h.launched (scanner.command d.path)).plain
  enough := (h.launched (scanner.command d.path)).enough
  idle := by
    simp only [Session.scanned, Workspace.completeScan_scheduler]
    rfl
  empty := by
    simp only [Session.scanned, Workspace.completeScan_scheduler]
    exact h.empty

/-- A document submitted to a quiet session is skipped or scanned at once. -/
theorem exec_submit (h : Quiet n s) (scanner : Scanner) (d : Document) (force : Bool) :
    exec (submit (launcher n) scanner d force) s =
      if s.workspace.scheduler.isSettled ⟨d, force⟩ then (.ok .skipped, s)
      else ((s.scanned scanner d).1.mapError .malformed, (s.scanned scanner d).2) := by
  unfold submit
  split_ifs with hsettled
  · simp [Workspace.submit, Scheduler.decision, hsettled, Except.map]
  · have hsubmit : s.workspace.submit d force =
        ({ s.workspace with scheduler := s.workspace.scheduler.start }, .begun) := by
      simp [Workspace.submit, Scheduler.decision, hsettled, h.idle]
    have hbegun : Scripted n
        { s with workspace := { s.workspace with scheduler := s.workspace.scheduler.start } } :=
      ⟨h.plain, h.enough⟩
    have hscan : exec (scanDocument (launcher n) scanner d)
        { s with workspace := { s.workspace with scheduler := s.workspace.scheduler.start } } =
          ((s.scanned scanner d).1.mapError .malformed, (s.scanned scanner d).2) :=
      exec_scanDocument hbegun scanner d
    have hdrain := exec_drain (h.scanned scanner d).idle (h.scanned scanner d).empty (launcher n)
      scanner s.drainLimit
    simp only [exec_bind, exec_get, exec_lift, run_setWorkspace, hsubmit, hscan]
    cases (s.scanned scanner d).1 with
    | error m => rfl
    | ok outcome => simp [Except.mapError, hdrain]

def textOf (s : Session) (key : String) : Option String → Except FileError String
  | some text => .ok text
  | none => s.files.readText (.ofString key)

@[simp] theorem exec_documentText (key : String) (text : Option String) :
    exec (documentText key text) s = ((s.textOf key text).mapError .file, s) := by
  cases text with
  | none => simp [documentText, textOf]
  | some text => simp [documentText, textOf, Except.mapError]

@[simp] theorem exec_scanner :
    exec scanner s = match s.workspace.scanner with
      | some scanner => (.ok scanner, s)
      | none => (.error (.scan .disabled), s) := by
  unfold scanner
  cases h : s.workspace.scanner with
  | none => simp [h]
  | some scanner => simp [h]

/-- The session behind a scan of the whole workspace. -/
theorem exec_scanWorkspace (h : Scripted n s) :
    (exec (scanWorkspace (launcher n)) s).2 = match s.workspace.scanner with
      | none => s
      | some scanner =>
        { s.launched (scanner.command s.workspace.root.toString) with
          workspace := (s.workspace.beginFullScan.completeFullScan scanner s.nextOutput).1 } := by
  have hbegun : Scripted n { s with workspace := s.workspace.beginFullScan } := ⟨h.plain, h.enough⟩
  unfold scanWorkspace
  cases hscanner : s.workspace.scanner with
  | none => simp [hscanner]
  | some scanner =>
    have hlaunch := launcher_run hbegun (scanner.command s.workspace.root.toString)
    have hroot : s.workspace.beginFullScan.root = s.workspace.root := rfl
    simp only [exec_bind, exec_scanner, hscanner, exec_modify, exec_get, exec_lift, hroot, hlaunch,
      run_setWorkspace]
    split
    · rfl
    · rfl
    · rfl

end Scans

def after (n : Nat) (s : Session) (step : Step) : Session :=
  (exec (perform (launcher n) step) s).2

theorem answers_run (n : Nat) (s : Session) (steps : List Step) :
    ((answers (launcher n) steps).run s).2 = steps.foldl (after n) s := by
  induction steps generalizing s with
  | nil => rfl
  | cons step steps ih => exact ih (after n s step)

theorem run_eq_foldl (s : Session) (steps : List Step) :
    (run s steps).2 = steps.foldl (after s.replies.length) s :=
  answers_run s.replies.length s steps

end Session

end DesignLint
