import DesignLint.Proofs.SessionSteps

/-! Calls of tools that are rejected. What is wrong with a call is found before anything is done: once the
scanner is at work, or a report published, no fault is laid to the call any more. So a call that is
rejected leaves the session as it was, and a check of one principle does so in any case. -/

namespace DesignLint.Session

def Fault.rejects : Fault → Bool
  | .tool e => e.code == 4001
  | _ => false

/-- Would a fault be laid to the call of the tool that scans a file? -/
def Fault.blames (f : Fault) : Bool :=
  f.rejects || f.isUnreadable

/-- An action whose faults are not laid to the call of a tool, by itself or by the tool that meets them. -/
def Blameless {α : Type} (act : Act α) : Prop :=
  ∀ s f, (exec act s).1 = .error f → f.blames = false

section Blameless

variable {α β ε : Type}

theorem Blameless.pure (a : α) : Blameless (pure a) := fun _ _ h => by cases h

theorem Blameless.throw {f : Fault} (h : f.blames = false) : Blameless (throw f : Act α) :=
  fun _ _ hf => Except.error.inj hf ▸ h

theorem Blameless.lift (m : StateM Session α) : Blameless (liftM m : Act α) := fun _ _ h => by cases h

theorem Blameless.get : Blameless (get : Act Session) := fun _ _ h => by cases h

theorem Blameless.bind {act : Act α} {f : α → Act β} (h : Blameless act) (hf : ∀ a, Blameless (f a)) :
    Blameless (act >>= f) := by
  intro s e
  have hact := h s
  rw [exec_bind]
  rcases hexec : exec act s with ⟨r, s'⟩
  rw [hexec] at hact
  cases r with
  | error f => exact fun he => hact e (congrArg _ (Except.error.inj he))
  | ok a => exact hf a s' e

/-- What comes behind an attempt, with the fault that was met if there was one. -/
theorem Blameless.attempt {act : Act α} {f : Except Fault α → Act β} (h : Blameless act)
    (hok : ∀ a, Blameless (f (.ok a))) (herror : ∀ e, e.blames = false → Blameless (f (.error e))) :
    Blameless (attempt act >>= f) := by
  intro s e
  rw [exec_bind, exec_attempt]
  cases hexec : (exec act s).1 with
  | ok a => exact hok a _ e
  | error f => exact herror f (h s f hexec) _ e

theorem blameless_ofExcept {fault : ε → Fault} (h : ∀ x, (fault x).blames = false) (x : Except ε α) :
    Blameless (ofExcept fault x) := by
  cases x with
  | ok a => exact .pure a
  | error x => exact .throw (h x)

/-- A document has a key unless its path cannot be used at all. -/
theorem blameless_key (w : Workspace) (path : String) : Blameless (ofExcept .file (w.key path)) := by
  unfold Workspace.key
  cases Path.resolve? w.root (.ofString path) with
  | none => exact .throw rfl
  | some p => exact .pure _

variable (launch : Launcher)

theorem blameless_scanDocument (scanner : Scanner) (d : Document) :
    Blameless (scanDocument launch scanner d) := by
  unfold scanDocument
  refine .bind (.lift _) fun _ => .bind (.lift _) fun _ => .bind .get fun _ => ?_
  exact .bind (.lift _) fun _ => blameless_ofExcept (fun _ => rfl) _

theorem blameless_drain (scanner : Scanner) (k : Nat) : Blameless (drain launch scanner k) := by
  induction k with
  | zero => exact .pure ()
  | succ k ih =>
    unfold drain
    refine .bind .get fun s => ?_
    generalize s.workspace.nextDocument = taken
    refine .bind (.lift _) fun _ => ?_
    cases taken.2 with
    | none => exact .pure ()
    | some d => exact .bind (blameless_scanDocument launch scanner d) fun _ => ih

theorem blameless_submit (scanner : Scanner) (d : Document) (force : Bool) :
    Blameless (submit launch scanner d force) := by
  unfold submit
  refine .bind .get fun _ => .bind .get fun s => ?_
  generalize s.workspace.submit d force = submitted
  refine .bind (.lift _) fun _ => ?_
  cases submitted.2 with
  | settled o => exact .pure o
  | begun =>
    refine .bind (blameless_scanDocument launch scanner d) fun o => ?_
    exact .bind (blameless_drain launch scanner _) fun _ => .pure o

theorem blameless_scanner : Blameless scanner := by
  unfold scanner
  refine .bind .get fun s => ?_
  cases s.workspace.scanner with
  | none => exact .throw rfl
  | some scanner => exact .pure scanner

/-- A text that is given need not be read. -/
theorem blameless_documentText (key text : String) : Blameless (documentText key (some text)) :=
  .pure text

theorem blameless_scanFile (path text : String) (force : Bool) (languageName : Option String) :
    Blameless (scanFile launch path (some text) force languageName) := by
  unfold scanFile
  refine .bind blameless_scanner fun _ => .bind .get fun s => .bind (blameless_key s.workspace path) fun key => ?_
  exact .bind (blameless_documentText key text) fun _ => blameless_submit launch _ _ force

theorem blameless_scanWorkspace : Blameless (scanWorkspace launch) := by
  unfold scanWorkspace
  refine .bind blameless_scanner fun scanner => .bind (.lift _) fun _ => .bind .get fun _ => ?_
  refine .bind (.lift _) fun output => .bind .get fun s => ?_
  generalize s.workspace.completeFullScan scanner output = completed
  refine .bind (.lift _) fun _ => ?_
  cases completed.2 with
  | ok summary => exact .pure summary
  | error e =>
    cases e with
    | failed e => exact .throw rfl
    | malformed m => exact .throw rfl

theorem blameless_analyze (path text : String) (force scan : Bool) :
    Blameless (analyze launch path (some text) force scan) := by
  unfold analyze
  refine .bind .get fun s => .bind (blameless_key s.workspace path) fun key => ?_
  refine .bind (blameless_documentText key text) fun content => .bind .get fun s => ?_
  generalize s.workspace.check key content = checked
  refine .bind (.lift _) fun _ => ?_
  dsimp only
  split_ifs with hscans
  · exact .bind (blameless_scanFile launch _ _ _ _) fun _ => .pure _
  · exact .pure _

end Blameless

/-- An action that leaves the session as it was whenever it lays a fault to the call of a tool. -/
def Cautious {α : Type} (act : Act α) : Prop :=
  ∀ s f, (exec act s).1 = .error f → f.rejects = true → (exec act s).2 = s

section Cautious

variable {α β ε : Type}

theorem Blameless.cautious {act : Act α} (h : Blameless act) : Cautious act := by
  intro s f hf hrejects
  have hblames := h s f hf
  rw [Fault.blames, hrejects] at hblames
  cases hblames

theorem Cautious.throw (f : Fault) : Cautious (throw f : Act α) := fun _ _ _ _ => rfl

/-- What comes behind an action that only looks. -/
theorem Cautious.bind {act : Act α} {f : α → Act β} (h : ∀ s, (exec act s).2 = s)
    (hf : ∀ a, Cautious (f a)) : Cautious (act >>= f) := by
  intro s e
  have hact := h s
  rw [exec_bind]
  rcases hexec : exec act s with ⟨r, s'⟩
  rw [hexec] at hact
  obtain rfl : s' = s := hact
  cases r with
  | error f => exact fun _ _ => rfl
  | ok a => exact hf a s' e

theorem Cautious.get {f : Session → Act β} (hf : ∀ s, Cautious (f s)) : Cautious (get >>= f) :=
  .bind (fun _ => rfl) hf

theorem Cautious.ofExcept {fault : ε → Fault} {x : Except ε α} {f : α → Act β}
    (hf : ∀ a, Cautious (f a)) : Cautious (ofExcept fault x >>= f) :=
  .bind (fun s => by rw [exec_ofExcept]) hf

theorem Cautious.guard {p : Prop} [Decidable p] {e : Fault} {rest : Unit → Act β}
    (hf : ∀ a, Cautious (rest a)) :
    Cautious (if p then (MonadExcept.throw e : Act Unit) >>= rest else rest ()) := by
  split_ifs with hp
  · exact .bind (fun _ => rfl) hf
  · exact hf ()

variable (launch : Launcher)

/-- The reading of a file changes nothing, and what is attempted behind it is blameless. -/
theorem Cautious.attempt {read : Act α} {rest : α → Act β} {γ : Type} {f : Except Fault β → Act γ}
    (hread : ∀ s, (exec read s).2 = s) (hrest : ∀ a, Blameless (Session.attempt (rest a) >>= f))
    (hthrow : ∀ e s, (exec (f (.error e)) s).2 = s) : Cautious (Session.attempt (read >>= rest) >>= f) := by
  intro s e
  have hs := hread s
  rcases hexec : exec read s with ⟨r, s'⟩
  rw [hexec] at hs
  obtain rfl : s' = s := hs
  cases r with
  | error e' =>
    have hsame : exec (Session.attempt (read >>= rest) >>= f) s' = exec (f (.error e')) s' := by
      simp only [exec_bind, exec_attempt, hexec]
    rw [hsame]
    exact fun _ _ => hthrow e' s'
  | ok a =>
    have hsame : exec (Session.attempt (read >>= rest) >>= f) s' = exec (Session.attempt (rest a) >>= f) s' := by
      simp only [exec_bind, exec_attempt, hexec]
    rw [hsame]
    exact (hrest a).cautious s' e

theorem cautious_toolScan (path : String) (force : Bool) : Cautious (toolScan launch path force) := by
  unfold toolScan checkAndScan
  refine .get fun s => .ofExcept fun key => .ofExcept fun isFile => .guard fun _ => .guard fun _ => ?_
  refine .attempt (fun s => by rw [exec_documentText]) (fun content => ?_) fun _ _ => rfl
  -- the session changes from here on, but no file is read any more
  refine .attempt (.bind (blameless_analyze launch _ _ _ _) fun _ => blameless_scanFile launch _ _ _ _)
    (fun outcome => .bind .get fun s => ?_) fun f hf => ?_
  · dsimp only
    split_ifs with hfailed
    · exact .bind (.throw rfl) fun _ => .pure _
    · exact .pure _
  · have hreadable : f.isUnreadable = false := (Bool.or_eq_false_iff.1 hf).2
    simp only [hreadable, Bool.false_eq_true, if_false]
    exact .throw hf

theorem cautious_callTool (call : ToolCall) : Cautious (callTool launch call) := by
  unfold callTool
  refine .get fun s => ?_
  dsimp only
  cases call.fault? with
  | some e => exact .throw _
  | none =>
    cases call with
    | ping message => exact (Blameless.pure _).cautious
    | principle p path content languageName =>
      exact .ofExcept fun report => (Blameless.pure _).cautious
    | file path content principles =>
      exact .ofExcept fun report => (Blameless.bind (.lift _) fun _ => .pure _).cautious
    | scanFile path force => exact cautious_toolScan launch path force
    | scanWorkspace =>
      refine Blameless.cautious (.attempt (blameless_scanWorkspace launch) (fun _ => ?_) fun f hf => ?_)
      · exact .bind .get fun _ => .pure _
      · cases f with
        | scan e => exact .throw rfl
        | _ => exact .throw hf
    | diagnostics path => exact .ofExcept fun entries => (Blameless.pure _).cautious
    | clear => exact (Blameless.bind (.lift _) fun _ => .pure _).cautious

end Cautious

def toolError? {α : Type} : Except Fault α → Option ToolError
  | .error (.tool e) => some e
  | _ => none

theorem toolError?_eq_some {α : Type} {r : Except Fault α} {e : ToolError} (h : toolError? r = some e) :
    r = .error (.tool e) := by
  unfold toolError? at h
  split at h
  · rw [Option.some.inj h]
  · cases h

/-- A call that is rejected changes nothing, whatever happened before and however the scanner is launched,
and no check of one principle changes anything, rejected or not. -/
theorem rejected_call_changes_nothing (launch : Launcher) (s : Session) :
    (∀ call e, (exec (callTool launch call) s).1 = .error (.tool e) → e.code = 4001 →
      (exec (callTool launch call) s).2 = s) ∧
    (∀ p path content languageName,
      (exec (callTool launch (.principle p path content languageName)) s).2 = s) := by
  refine ⟨fun call e he hcode => ?_, fun p path content languageName => ?_⟩
  · exact cautious_callTool launch call s (.tool e) he (beq_iff_eq.2 hcode)
  · unfold callTool
    simp only [exec_bind, exec_get, ToolCall.fault?, exec_ofExcept]
    cases s.workspace.inspect s.files path content languageName [p.name] <;> rfl

/-- A finding is kept for one file, and another one, which is no text, is to be scanned. -/
theorem rejected_call_changes_nothing_unreadable :
    let start : Session :=
      { files := { cwd := .ofString "/w", files := [(["w", "b.py"], ⟨#[0xff]⟩)] },
        workspace := .ofSettings (.ofString "/w") {},
        replies := [{ output := .ok ⟨some "\x7b\"results\": [\x7b\"path\": \"a.py\"\x7d]\x7d", 0⟩ }] }
    let s := (run start [.scanFile "a.py" (some "x = 1") false none]).2
    let called := exec (callTool (launcher 1) (.scanFile "b.py" true)) s
    s.workspace.status = .issues ∧ called.1 = .error (.tool (.unreadable "b.py")) ∧ called.2 = s := by
  intro start s called
  have hissues : s.workspace.status = .issues := by decide +kernel
  have hrejected : called.1 = .error (.tool (.unreadable "b.py")) :=
    toolError?_eq_some (by decide +kernel)
  have hsame := (rejected_call_changes_nothing (launcher 1) s).1 _ _ hrejected rfl
  with_reducible exact ⟨hissues, hrejected, hsame⟩

end DesignLint.Session
