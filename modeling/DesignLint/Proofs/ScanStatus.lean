import DesignLint.Proofs.SessionSteps

/-! The mark of a scan. A workspace is marked as scanning while the scanner is at work, and whoever
launched it takes the mark away: a scan that fails leaves a warning, one that succeeds the state of the
diagnostics. A report that is an object but not of the right form is the one way out that leaves the
mark, until the next scan or until the workspace is cleared. Among these is a report on a file whose name
nothing can have; links that lead to no file would be others, but there are none here. -/

namespace DesignLint

namespace Scanner

variable (s : Scanner)

/-- How the output of the scanner departs from the form of a report, if the scanner was launched and put
out an object. -/
def malformed? (output : Except String ProcessOutput) : Option Malformed :=
  match s.report output with
  | .error (.failed _) => none
  | .error (.malformed m) => some m
  | .ok report =>
    match s.located report with
    | .error m => some m
    | .ok _ => none

inductive Reading (output : Except String ProcessOutput) : Prop
  | failed (e : ScanError) (hreport : s.report output = .error (.failed e))
      (hnone : s.malformed? output = none)
  | malformed (m : Malformed) (hreport : s.report output = .error (.malformed m))
      (hsome : s.malformed? output = some m)
  | unlocated (report : ScanReport) (m : Malformed) (hreport : s.report output = .ok report)
      (hlocated : s.located report = .error m) (hsome : s.malformed? output = some m)
  | located (report : ScanReport) (found : List (String × Finding))
      (hreport : s.report output = .ok report) (hlocated : s.located report = .ok found)
      (hnone : s.malformed? output = none)

theorem reading (output : Except String ProcessOutput) : s.Reading output := by
  cases hreport : s.report output with
  | error e =>
    cases e with
    | failed e => exact .failed e hreport (by rw [malformed?, hreport])
    | malformed m => exact .malformed m hreport (by rw [malformed?, hreport])
  | ok report =>
    cases hlocated : s.located report with
    | error m => exact .unlocated report m hreport hlocated (by simp only [malformed?, hreport, hlocated])
    | ok found => exact .located report found hreport hlocated (by simp only [malformed?, hreport, hlocated])

theorem malformed?_quiet : s.malformed? (.ok Session.quietOutput) = none := by
  have hparse : Json.parse s.depth "" = .error .malformed := rfl
  have hreport : s.report (.ok Session.quietOutput) = .ok {} := by
    simp only [report, Session.quietOutput, ScanReport.ofOutput, Option.getD_some, hparse]
    rfl
  rw [malformed?, hreport]
  rfl

end Scanner

namespace Workspace

theorem settledStatus_ne (store : Store Diagnostic) : settledStatus store ≠ .scanning := by
  unfold settledStatus
  split_ifs with hempty
  · exact Status.noConfusion
  · exact Status.noConfusion

/-- A scan of `w` ended in `w'`: if its report was malformed then the mark stays. -/
structure Ended (w w' : Workspace) (fault : Option Malformed) : Prop where
  scanner : w'.scanner = w.scanner
  status : w'.status = .scanning ↔ fault.isSome

section Ends

variable {w : Workspace} (hw : w.status = .scanning) (scanner : Scanner) (d : Document)
  (output : Except String ProcessOutput)

include hw

theorem completeScan_ended :
    Ended w (w.completeScan scanner d output).1 (scanner.malformed? output) ∧
      ∀ m, (w.completeScan scanner d output).2 = .error m ↔ scanner.malformed? output = some m := by
  unfold completeScan Scanner.findingsFor
  cases scanner.reading output with
  | failed e hreport hnone =>
    rw [hreport, hnone]
    exact ⟨⟨rfl, by simp [release, failScan]⟩, by simp⟩
  | malformed m hreport hsome =>
    rw [hreport, hsome]
    exact ⟨⟨rfl, by simpa [release] using hw⟩, by simp⟩
  | unlocated report m hreport hlocated hsome =>
    simp only [hreport, hlocated, hsome, Except.map]
    exact ⟨⟨rfl, by simpa [release] using hw⟩, by simp⟩
  | located report found hreport hlocated hnone =>
    simp only [hreport, hlocated, hnone, Except.map]
    exact ⟨⟨rfl, by simpa [release, settleScan] using settledStatus_ne _⟩, by simp⟩

theorem completeFullScan_ended :
    Ended w (w.completeFullScan scanner output).1 (scanner.malformed? output) ∧
      ∀ m, (w.completeFullScan scanner output).2 = .error (.malformed m) ↔
        scanner.malformed? output = some m := by
  unfold completeFullScan Scanner.findingsByFile
  cases scanner.reading output with
  | failed e hreport hnone =>
    rw [hreport, hnone]
    exact ⟨⟨rfl, by simp [failScan]⟩, by simp⟩
  | malformed m hreport hsome =>
    rw [hreport, hsome]
    exact ⟨⟨rfl, by simpa using hw⟩, by simp⟩
  | unlocated report m hreport hlocated hsome =>
    simp only [hreport, hlocated, hsome, Except.map]
    exact ⟨⟨rfl, by simpa using hw⟩, by simp⟩
  | located report found hreport hlocated hnone =>
    simp only [hreport, hlocated, hnone, Except.map]
    exact ⟨⟨rfl, by simpa [settleScan] using settledStatus_ne _⟩, by simp⟩

end Ends

end Workspace

namespace Session

/-- The replies to come bring no steps, and the workspace has this scanner or none. -/
structure Served (n : Nat) (scanner : Scanner) (s : Session) : Prop extends Scripted n s where
  own : ∀ x ∈ s.workspace.scanner, x = scanner

/-- What an action that gave `r` did to the mark of a scan: the workspace is marked behind it if the
action came upon a malformed report, or if it was marked before and the scanner was not launched. -/
structure Marks {α : Type} (scanner : Scanner) (s : Session) (r : Except Fault α) (s' : Session) :
    Prop where
  status : s'.workspace.status = .scanning ↔ (malformed? r).isSome ∨
    (s'.launches.length = s.launches.length ∧ s.workspace.status = .scanning)
  launches : s.launches.length ≤ s'.launches.length
  launched : (malformed? r).isSome → s.launches.length < s'.launches.length
  cause : ∀ m ∈ malformed? r, ∃ reply ∈ s.replies, scanner.malformed? reply.output = some m
  replies : s'.replies <:+ s.replies
  scanner : s'.workspace.scanner = s.workspace.scanner

def Marking {α : Type} (n : Nat) (scanner : Scanner) (act : Act α) : Prop :=
  ∀ s, Served n scanner s → Marks scanner s (exec act s).1 (exec act s).2

section Marks

variable {α β : Type} {n : Nat} {scanner : Scanner} {a b c s s' : Session} {r : Except Fault α}

theorem Marks.served (h : Marks scanner s r s') (hs : Served n scanner s) : Served n scanner s' where
  plain x hx := hs.plain x (h.replies.subset hx)
  enough := h.replies.length_le.trans hs.enough
  own := h.scanner ▸ hs.own

theorem Marks.keep (hstatus : s'.workspace.status = s.workspace.status)
    (hscanner : s'.workspace.scanner = s.workspace.scanner) (hreplies : s'.replies = s.replies)
    (hlaunches : s'.launches = s.launches) (hr : malformed? r = none) : Marks scanner s r s' where
  status := by simp [hr, hlaunches, hstatus]
  launches := by rw [hlaunches]
  launched := by simp [hr]
  cause := by simp [hr]
  replies := by rw [hreplies]
  scanner := hscanner

theorem Marks.congr {r' : Except Fault β} (h : Marks scanner s r s') (hr : malformed? r' = malformed? r) :
    Marks scanner s r' s' where
  status := by rw [hr]; exact h.status
  launches := h.launches
  launched := by rw [hr]; exact h.launched
  cause := by rw [hr]; exact h.cause
  replies := h.replies
  scanner := h.scanner

theorem Marks.trans {r : Except Fault β} {x : α} (h : Marks scanner a (.ok x) b)
    (h' : Marks scanner b r c) : Marks scanner a r c where
  status := by
    have hle := h.launches
    have hle' := h'.launches
    rw [h'.status, h.status]
    simp only [malformed?_ok, Option.isSome_none, Bool.false_eq_true, false_or]
    constructor
    · rintro (hr | ⟨h1, h2, h3⟩)
      · exact .inl hr
      · exact .inr ⟨by omega, h3⟩
    · rintro (hr | ⟨h1, h2⟩)
      · exact .inl hr
      · exact .inr ⟨by omega, by omega, h2⟩
  launches := h.launches.trans h'.launches
  launched hr := h.launches.trans_lt (h'.launched hr)
  cause m hm := by
    obtain ⟨reply, hreply, hfault⟩ := h'.cause m hm
    exact ⟨reply, h.replies.subset hreply, hfault⟩
  replies := h'.replies.trans h.replies
  scanner := h'.scanner.trans h.scanner

theorem Marking.bind {act : Act α} {f : α → Act β} (h : Marking n scanner act)
    (hf : ∀ a, Marking n scanner (f a)) : Marking n scanner (act >>= f) := by
  intro s hs
  have hact := h s hs
  rw [exec_bind]
  rcases hexec : exec act s with ⟨r, s'⟩
  rw [hexec] at hact
  cases r with
  | error e => exact hact.congr (by cases e <;> rfl)
  | ok a => exact hact.trans (hf a s' (hact.served hs))

theorem Frames.marking {act : Act α} (h : Frames act) : Marking n scanner act := by
  intro s _
  have hs := h s
  exact .keep (by rw [hs.workspace]) (by rw [hs.workspace]) hs.replies hs.launches hs.fault

theorem Marking.guard {p : Prop} [Decidable p] {f : Fault} {rest : α → Act β} (a : α)
    (hf : malformed? (.error f : Except Fault α) = none) (h : ∀ a, Marking n scanner (rest a)) :
    Marking n scanner (if p then throw f >>= rest else rest a) := by
  split_ifs with hp
  · exact .bind (Frames.throw hf).marking h
  · exact h a

theorem Marking.map {act : Act α} (h : Marking n scanner act) (f : α → β) :
    Marking n scanner (f <$> act) := by
  intro s hs
  rw [exec_map]
  exact (h s hs).congr (malformed?_map f _)

/-- A malformed report is passed on by whoever looks at the faults. -/
theorem Marking.attempt {act : Act α} {f : Except Fault α → Act β} (h : Marking n scanner act)
    (hthrow : ∀ m, f (.error (.malformed m)) = throw (.malformed m))
    (hf : ∀ r, malformed? r = none → Marking n scanner (f r)) :
    Marking n scanner (attempt act >>= f) := by
  intro s hs
  have hact := h s hs
  rw [exec_bind, exec_attempt]
  rcases hexec : exec act s with ⟨r, s'⟩
  rw [hexec] at hact
  cases hr : malformed? r with
  | none =>
    have hok : Marks scanner s (.ok r : Except Fault (Except Fault α)) s' := hact.congr hr.symm
    exact hok.trans (hf r hr s' (hact.served hs))
  | some m =>
    obtain rfl := malformed?_eq_some.1 hr
    simp only [hthrow, exec_throw]
    exact hact.congr rfl

end Marks

section Actions

variable {n : Nat} {scanner : Scanner} {s : Session}

/-- The end of a scan that was launched. -/
theorem marks_launch {α : Type} {w w' : Workspace} {r : Except Fault α} (command : List String)
    (hended : w.Ended w' (scanner.malformed? s.nextOutput)) (hw : w.scanner = s.workspace.scanner)
    (hr : ∀ m, r = .error (.malformed m) ↔ scanner.malformed? s.nextOutput = some m) :
    Marks scanner s r { s.launched command with workspace := w' } := by
  have hfault : malformed? r = scanner.malformed? s.nextOutput :=
    Option.ext fun m => malformed?_eq_some.trans (hr m)
  have hlength : (s.launched command).launches.length = s.launches.length + 1 := by
    simp [Session.launched]
  refine ⟨?_, ?_, ?_, ?_, List.tail_suffix _, hended.scanner.trans hw⟩
  · rw [hended.status, hfault, hlength]
    simp
  · rw [hlength]
    omega
  · intro _
    rw [hlength]
    omega
  · intro m hm
    rw [hfault, nextOutput] at hm
    split at hm
    · rw [Scanner.malformed?_quiet] at hm
      cases hm
    · next reply replies heq =>
      exact ⟨reply, heq ▸ List.mem_cons_self, hm⟩

theorem mapError_malformed {α : Type} {x : Except Malformed α} {m : Malformed} :
    x.mapError Fault.malformed = .error (.malformed m) ↔ x = .error m := by
  cases x with
  | ok a => simp [Except.mapError]
  | error m' => simp [Except.mapError]

theorem marking_scanDocument (d : Document) : Marking n scanner (scanDocument (launcher n) scanner d) := by
  intro s hs
  obtain ⟨hended, hfault⟩ :=
    Workspace.completeScan_ended (w := s.workspace.beginScan) rfl scanner d s.nextOutput
  rw [exec_scanDocument hs.toScripted]
  exact marks_launch _ hended rfl fun m => mapError_malformed.trans (hfault m)

theorem marking_drain (k : Nat) : Marking n scanner (drain (launcher n) scanner k) := by
  induction k with
  | zero => exact (Frames.pure _).marking
  | succ k ih =>
    intro s hs
    unfold drain
    have htaken : Marks scanner s (.ok () : Except Fault Unit)
        { s with workspace := s.workspace.nextDocument.1 } := .keep rfl rfl rfl rfl rfl
    simp only [exec_bind, exec_get, exec_lift, run_setWorkspace]
    refine htaken.trans ?_
    cases s.workspace.nextDocument.2 with
    | none => exact (Frames.pure _).marking _ (htaken.served hs)
    | some d => exact (marking_scanDocument d).bind (fun _ => ih) _ (htaken.served hs)

theorem marking_submit (d : Document) (force : Bool) :
    Marking n scanner (submit (launcher n) scanner d force) := by
  intro s hs
  unfold submit
  have hsubmitted : Marks scanner s (.ok () : Except Fault Unit)
      { s with workspace := (s.workspace.submit d force).1 } := by
    unfold Workspace.submit
    split
    · exact .keep rfl rfl rfl rfl rfl
    · exact .keep rfl rfl rfl rfl rfl
    · exact .keep rfl rfl rfl rfl rfl
  simp only [exec_bind, exec_get, exec_lift, run_setWorkspace]
  refine hsubmitted.trans ?_
  cases (s.workspace.submit d force).2 with
  | settled o => exact (Frames.pure o).marking _ (hsubmitted.served hs)
  | begun =>
    refine (marking_scanDocument d).bind (fun o => ?_) _ (hsubmitted.served hs)
    exact (marking_drain _).bind fun _ => (Frames.pure o).marking

theorem frames_documentText (key : String) (text : Option String) : Frames (documentText key text) := by
  unfold documentText
  cases text with
  | some text => exact .pure text
  | none => exact .bind .get fun _ => frames_ofExcept (fun _ => rfl) _

/-- An action that needs the scanner. -/
theorem marking_scanner {α : Type} {f : Scanner → Act α} (h : Marking n scanner (f scanner)) :
    Marking n scanner (Session.scanner >>= f) := by
  intro s hs
  rw [exec_bind, exec_scanner]
  cases hscanner : s.workspace.scanner with
  | none => exact .keep rfl rfl rfl rfl rfl
  | some x =>
    obtain rfl := hs.own x hscanner
    exact h s hs

theorem marking_scanFile (path : String) (text : Option String) (force : Bool)
    (languageName : Option String) :
    Marking n scanner (scanFile (launcher n) path text force languageName) := by
  refine marking_scanner (Frames.get.marking.bind fun _ => ?_)
  refine .bind (frames_ofExcept (fun _ => rfl) _).marking fun key => ?_
  exact .bind (frames_documentText key text).marking fun _ => marking_submit _ force

theorem marking_scanWorkspace : Marking n scanner (scanWorkspace (launcher n)) := by
  refine marking_scanner fun s hs => ?_
  have hbegun : Scripted n { s with workspace := s.workspace.beginFullScan } := ⟨hs.plain, hs.enough⟩
  have hlaunch := launcher_run hbegun (scanner.command s.workspace.root.toString)
  have hroot : s.workspace.beginFullScan.root = s.workspace.root := rfl
  have hnext : ({ s with workspace := s.workspace.beginFullScan } : Session).nextOutput =
    s.nextOutput := rfl
  obtain ⟨hended, hfault⟩ :=
    Workspace.completeFullScan_ended (w := s.workspace.beginFullScan) rfl scanner s.nextOutput
  simp only [exec_bind, exec_modify, exec_get, exec_lift, hroot, hlaunch, hnext, launched,
    run_setWorkspace]
  generalize s.workspace.beginFullScan.completeFullScan scanner s.nextOutput = p at hended hfault ⊢
  obtain ⟨w, result⟩ := p
  cases result with
  | ok summary => exact marks_launch _ hended rfl fun m => by simpa using hfault m
  | error e =>
    cases e with
    | failed e => exact marks_launch _ hended rfl fun m => by simpa using hfault m
    | malformed m' => exact marks_launch _ hended rfl fun m => by simpa using hfault m

theorem marks_publish (s : Session) (r : CheckReport) : Marks scanner s (.ok () : Except Fault Unit)
    { s with workspace := s.workspace.publish r } :=
  .keep rfl rfl rfl rfl rfl

theorem marking_analyze (path : String) (text : Option String) (force scan : Bool) :
    Marking n scanner (analyze (launcher n) path text force scan) := by
  unfold analyze
  refine Frames.get.marking.bind fun _ => ?_
  refine .bind (frames_ofExcept (fun _ => rfl) _).marking fun key => ?_
  refine .bind (frames_documentText key text).marking fun content => ?_
  intro s hs
  have hchecked : Marks scanner s (.ok () : Except Fault Unit)
      { s with workspace := (s.workspace.check key content).1 } :=
    marks_publish s (s.workspace.check key content).2
  simp only [exec_bind, exec_get, exec_lift, run_setWorkspace]
  refine hchecked.trans ?_
  generalize s.workspace.check key content = checked at hchecked ⊢
  split_ifs with hscans
  · exact (marking_scanFile _ _ _ _).bind (fun _ => (Frames.pure _).marking) _ (hchecked.served hs)
  · exact (Frames.pure _).marking _ (hchecked.served hs)

theorem marking_changed (path : String) (force : Bool) :
    Marking n scanner (changed (launcher n) path force) := by
  unfold changed
  refine (marking_analyze path none force true).attempt (fun m => rfl) fun r hr => ?_
  refine Frames.marking ?_
  cases r with
  | ok report =>
    dsimp only
    split_ifs with hskipped
    · exact .modify (fun _ => rfl) (fun _ => rfl) fun _ => rfl
    · exact .pure _
  | error f =>
    cases f with
    | malformed m => cases hr
    | file e =>
      cases e with
      | badPath => exact .throw rfl
      | _ => exact .pure _
    | _ => exact .throw rfl

theorem marking_fire (path : String) : Marking n scanner (fire (launcher n) path) := by
  intro s hs
  unfold fire
  simp only [exec_bind, exec_get]
  cases startedTimer? s.watchers path with
  | none => exact .keep rfl rfl rfl rfl rfl
  | some timer =>
    obtain ⟨i, k⟩ := timer
    have hexpired : Marks scanner s (.ok () : Except Fault Unit)
        { s with watchers := s.watchers.modify i fun w => w.expire path k } := .keep rfl rfl rfl rfl rfl
    simp only [exec_bind, exec_set, bind_pure_comp]
    exact hexpired.trans ((marking_changed path _).map _ _ (hexpired.served hs))

theorem marking_checkAndScan (key : String) (force : Bool) :
    Marking n scanner (checkAndScan (launcher n) key force) := by
  unfold checkAndScan
  refine .bind (frames_documentText key none).marking fun content => ?_
  exact (marking_analyze _ _ _ _).bind fun _ => marking_scanFile _ _ _ _

theorem marking_toolScan (path : String) (force : Bool) :
    Marking n scanner (toolScan (launcher n) path force) := by
  unfold toolScan
  refine Frames.get.marking.bind fun s => ?_
  refine .bind (frames_ofExcept (fun _ => rfl) _).marking fun key => ?_
  refine .bind (frames_ofExcept (fun _ => rfl) _).marking fun isFile => ?_
  refine .guard () rfl fun _ => .guard () rfl fun _ => ?_
  refine (marking_checkAndScan key force).attempt (fun m => rfl) fun r hr => ?_
  cases r with
  | ok outcome => exact Frames.get.marking.bind fun _ => .guard () rfl fun _ => (Frames.pure _).marking
  | error f =>
    refine (Frames.throw ?_).marking
    cases f with
    | malformed m => cases hr
    | file e => cases e <;> rfl
    | _ => rfl

theorem malformed?_ofTool {α : Type} (e : ToolFault) :
    malformed? (.error (.ofTool e) : Except Fault α) = none := by
  cases e with
  | tool e => rfl
  | file e => rfl

theorem marking_callTool (call : ToolCall) (h : call ≠ .clear) :
    Marking n scanner (callTool (launcher n) call) := by
  cases call with
  | ping message => exact (Frames.bind .get fun _ => .pure _).marking
  | principle p path content languageName =>
    exact (Frames.bind .get fun _ => .bind (frames_ofExcept malformed?_ofTool _) fun _ => .pure _).marking
  | file path content principles =>
    intro s hs
    simp only [callTool, exec_bind, exec_get]
    cases (ToolCall.file path content principles).fault? with
    | some e => exact .keep rfl rfl rfl rfl rfl
    | none =>
      generalize (if principles.isEmpty then Principle.names else principles) = asked
      rw [exec_bind, exec_ofExcept]
      cases s.workspace.inspect s.files path content "" asked with
      | error e => exact .keep rfl rfl rfl rfl (malformed?_ofTool e)
      | ok report => exact .keep rfl rfl rfl rfl rfl
  | scanFile path force => exact Frames.get.marking.bind fun _ => marking_toolScan path force
  | scanWorkspace =>
    refine Frames.get.marking.bind fun _ => ?_
    refine marking_scanWorkspace.attempt (fun m => rfl) fun r hr => Frames.marking ?_
    cases r with
    | ok summary => exact .bind .get fun _ => .pure _
    | error f =>
      cases f with
      | malformed m => cases hr
      | _ => exact .throw rfl
  | diagnostics path =>
    exact (Frames.bind .get fun _ => .bind (frames_ofExcept (fun _ => rfl) _) fun _ => .pure _).marking
  | clear => exact absurd rfl h

end Actions

def Step.clears : Step → Bool
  | .clear | .tool .clear => true
  | _ => false

section Steps

variable {n : Nat} {scanner : Scanner} {s : Session}

theorem marking_perform {step : Step} (h : step.clears = false) : Marking n scanner (perform (launcher n) step) := by
  cases step with
  | write path content => exact fun s hs => .keep rfl rfl rfl rfl rfl
  | delete path => exact fun s hs => .keep rfl rfl rfl rfl rfl
  | analyze path text force scan => exact (marking_analyze path text force scan).map _
  | scanFile path text force languageName => exact (marking_scanFile path text force languageName).map _
  | scanWorkspace => exact marking_scanWorkspace.map _
  | diagnostics path =>
    exact (Frames.bind .get fun _ => .map (frames_ofExcept (fun _ => rfl) _) _).marking
  | key path => exact (Frames.bind .get fun _ => .map (frames_ofExcept (fun _ => rfl) _) _).marking
  | isIgnored path =>
    exact (Frames.bind .get fun _ => .bind .get fun _ => .map (frames_ofExcept (fun _ => rfl) _) _).marking
  | changed path force => exact (marking_changed path force).bind fun _ => (Frames.pure _).marking
  | setChecks fields =>
    refine .bind (frames_ofExcept (fun _ => rfl) _).marking fun checks => ?_
    exact fun s hs => .keep rfl rfl rfl rfl rfl
  | clear => cases h
  | watch => exact (frames_startWatching.bind fun _ => .pure _).marking
  | shutdown => exact (frames_shutdown.bind fun _ => .pure _).marking
  | modified path isDirectory => exact ((frames_receive _ _ _ _).bind fun _ => .pure _).marking
  | created path isDirectory => exact ((frames_receive _ _ _ _).bind fun _ => .pure _).marking
  | fire path => exact (marking_fire path).map _
  | tool call =>
    refine (marking_callTool call ?_).map _
    rintro rfl
    cases h

/-- A step that clears the workspace takes the mark away and launches nothing. -/
theorem after_clears {step : Step} (h : step.clears = true) :
    after n s step = { s with workspace := s.workspace.clear } := by
  cases step with
  | clear => rfl
  | tool call =>
    cases call with
    | clear => rfl
    | _ => cases h
  | _ => cases h

inductive Touch
  | cleared
  /-- The scanner was launched; how its report departs from the form of one. -/
  | scanned (fault : Option Malformed)

def touch? (n : Nat) (s : Session) (step : Step) : Option Touch :=
  if step.clears then some .cleared
  else if s.launches.length < (after n s step).launches.length then
    some (.scanned (malformed? (exec (perform (launcher n) step) s).1))
  else none

def touches (n : Nat) : Session → List Step → List Touch
  | _, [] => []
  | s, step :: steps => (touch? n s step).toList ++ touches n (after n s step) steps

theorem touches_snoc (n : Nat) (s : Session) (steps : List Step) (step : Step) :
    touches n s (steps ++ [step]) =
      touches n s steps ++ (touch? n (steps.foldl (after n) s) step).toList := by
  induction steps generalizing s with
  | nil => simp [touches]
  | cons first steps ih => simp [touches, ih]

/-- The workspace is marked as scanning exactly if its last scan came upon a malformed report and
nothing was cleared since. -/
def Marked (log : List Touch) (s : Session) : Prop :=
  s.workspace.status = .scanning ↔ ∃ m, log.getLast? = some (.scanned (some m))

/-- What one step preserves. -/
theorem Marked.step {log : List Touch} (h : Marked log s) (hs : Served n scanner s) (step : Step) :
    Served n scanner (after n s step) ∧ Marked (log ++ (touch? n s step).toList) (after n s step) := by
  cases hclears : step.clears with
  | true =>
    rw [touch?, if_pos hclears, after_clears hclears]
    exact ⟨⟨⟨hs.plain, hs.enough⟩, hs.own⟩, by simp [Marked, Workspace.clear]⟩
  | false =>
    have hmarks : Marks scanner s (exec (perform (launcher n) step) s).1 (after n s step) :=
      marking_perform hclears s hs
    refine ⟨hmarks.served hs, ?_⟩
    rw [Marked, hmarks.status, touch?, if_neg (by simp [hclears])]
    split_ifs with hlaunched
    · rw [Option.toList_some, List.getLast?_concat]
      cases malformed? (exec (perform (launcher n) step) s).1 with
      | some m => simp
      | none => simp [hlaunched.ne']
    · have hnone : malformed? (exec (perform (launcher n) step) s).1 = none :=
        Option.not_isSome_iff_eq_none.1 fun hfault => hlaunched (hmarks.launched hfault)
      have hlength : (after n s step).launches.length = s.launches.length :=
        le_antisymm (Nat.le_of_not_lt hlaunched) hmarks.launches
      rw [Marked] at h
      simpa [hnone, hlength] using h

/-- What a whole session preserves. -/
theorem run_marked {start : Session} (hs : Served n scanner start)
    (h : start.workspace.status ≠ .scanning) (steps : List Step) :
    Served n scanner (steps.foldl (after n) start) ∧
      Marked (touches n start steps) (steps.foldl (after n) start) := by
  induction steps using List.reverseRecOn with
  | nil => exact ⟨hs, by simpa [Marked, touches] using h⟩
  | append_singleton steps step ih =>
    rw [touches_snoc, List.foldl_append]
    exact ih.2.step ih.1 step

structure Unmarked (scanner : Scanner) (s : Session) : Prop where
  status : s.workspace.status ≠ .scanning
  formed : ∀ reply ∈ s.replies, scanner.malformed? reply.output = none

theorem Unmarked.step (h : Unmarked scanner s) (hs : Served n scanner s) (step : Step) :
    Unmarked scanner (after n s step) := by
  cases hclears : step.clears with
  | true =>
    rw [after_clears hclears]
    exact ⟨Status.noConfusion, h.formed⟩
  | false =>
    have hmarks : Marks scanner s (exec (perform (launcher n) step) s).1 (after n s step) :=
      marking_perform hclears s hs
    refine ⟨fun hscanning => ?_, fun reply hreply => h.formed reply (hmarks.replies.subset hreply)⟩
    rcases hmarks.status.1 hscanning with hfault | ⟨-, hbefore⟩
    · obtain ⟨m, hm⟩ := Option.isSome_iff_exists.1 hfault
      obtain ⟨reply, hreply, hmalformed⟩ := hmarks.cause m hm
      rw [h.formed reply hreply] at hmalformed
      cases hmalformed
    · exact h.status hbefore

theorem run_unmarked {start : Session} (hs : Served n scanner start) (h : Unmarked scanner start)
    (steps : List Step) : Unmarked scanner (steps.foldl (after n) start) := by
  induction steps using List.reverseRecOn with
  | nil => exact h
  | append_singleton steps step ih =>
    rw [List.foldl_append]
    exact ih.step (run_marked hs h.status steps).1 step

end Steps

/-- In every session whose scanner only puts out something at each launch, however deep its reports may nest:
the workspace is marked as scanning exactly if the last thing that happened to the mark was a scan with a
malformed report. So it never is, as long as no output is a malformed report. -/
theorem scanning_iff_report_malformed (files : FileTree) (root : Path) (settings : Settings) (depth : Nat)
    (outputs : List (Except String ProcessOutput)) :
    let n := outputs.length
    let start : Session :=
      { files, workspace := .ofSettings root settings depth,
        replies := outputs.map fun output => { output } }
    ∀ steps,
      ((run start steps).2.workspace.status = .scanning ↔
        ∃ m, (touches n start steps).getLast? = some (.scanned (some m))) ∧
      ((∀ output ∈ outputs, (Scanner.ofSettings root settings depth).malformed? output = none) →
        (run start steps).2.workspace.status ≠ .scanning) := by
  intro n start steps
  have hlength : start.replies.length = n := List.length_map ..
  have hserved : Served n (.ofSettings root settings depth) start := by
    refine ⟨⟨by simp [start], hlength.le⟩, fun x hx => ?_⟩
    have hx : x ∈ (if settings.scannerEnabled then some (Scanner.ofSettings root settings depth) else none) := hx
    split_ifs at hx with henabled
    · exact (Option.some.inj hx).symm
    · cases hx
  have hidle : start.workspace.status ≠ .scanning := Status.noConfusion
  rw [run_eq_foldl, hlength]
  refine ⟨(run_marked hserved hidle steps).2, fun hformed => ?_⟩
  have hunmarked : Unmarked (.ofSettings root settings depth) start := by
    refine ⟨hidle, fun reply hreply => ?_⟩
    obtain ⟨output, houtput, rfl⟩ := List.mem_map.1 hreply
    exact hformed output houtput
  exact (run_unmarked hserved hunmarked steps).status

/-- A launch that fails, an output that is no JSON, one that is no object, a finding in a file whose name has a
byte that is no text, and one in a source file, each with a scan of its own: the last one leaves issues. -/
theorem scanning_iff_report_malformed_formed :
    let outputs : List (Except String ProcessOutput) :=
      [.error "no such file", .ok ⟨some "Traceback", 2⟩, .ok ⟨some "[]", 0⟩,
        .ok ⟨some "\x7b\"results\": [\x7b\"path\": \"b\\udc80.py\"\x7d]\x7d", 0⟩,
        .ok ⟨some "\x7b\"results\": [\x7b\"path\": \"a.py\"\x7d]\x7d", 0⟩]
    let start : Session :=
      { files := { cwd := .ofString "/w" }, workspace := .ofSettings (.ofString "/w") {},
        replies := outputs.map fun output => { output } }
    let scan : Step := .scanFile "a.py" (some "x = 1") false none
    (∀ output ∈ outputs, (Scanner.ofSettings (.ofString "/w") {}).malformed? output = none) ∧
      (run start [scan, .scanWorkspace, scan, .scanWorkspace, scan]).2.workspace.status = .issues ∧
      (run start [scan, .scanWorkspace, scan, .scanWorkspace, scan]).2.workspace.status ≠ .scanning := by
  intro outputs start scan
  have hformed : ∀ output ∈ outputs,
      (Scanner.ofSettings (.ofString "/w") {}).malformed? output = none := by decide +kernel
  have hissues : (run start [scan, .scanWorkspace, scan, .scanWorkspace, scan]).2.workspace.status = .issues := by
    decide +kernel
  have hnever := (scanning_iff_report_malformed { cwd := .ofString "/w" } (.ofString "/w") {} _ outputs
    [scan, .scanWorkspace, scan, .scanWorkspace, scan]).2 hformed
  -- the session itself must not be unfolded here
  with_reducible exact ⟨hformed, hissues, hnever⟩

/-- A report whose results are nothing leaves the mark behind a scan of a document, and behind a scan of
the whole workspace; and so does a finding whose path has half of a character. -/
theorem malformed_report_leaves_scanning :
    let start (stdout : String) : Session :=
      { files := { cwd := .ofString "/w" }, workspace := .ofSettings (.ofString "/w") {},
        replies := [{ output := .ok ⟨some stdout, 0⟩ }] }
    let scan : Step := .scanFile "a.py" (some "x = 1") false none
    let nothing := "\x7b\"results\": null\x7d"
    let halved := "\x7b\"results\": [\x7b\"path\": \"\\ud800\"\x7d]\x7d"
    (run (start nothing) [scan]).2.workspace.status = .scanning ∧
      (run (start nothing) [.scanWorkspace]).2.workspace.status = .scanning ∧
      (run (start halved) [scan]).2.workspace.status = .scanning ∧
      (run (start halved) [.scanWorkspace]).2.workspace.status = .scanning := by
  decide +kernel

end Session

end DesignLint
