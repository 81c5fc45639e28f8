import DesignLint.Proofs.FinishedScans
import DesignLint.Proofs.SessionSteps

/-! A scan that is skipped would have nothing to add. Whenever the scan of a document is skipped in a
session, the latest thing that happened to its scans is one that was completed, of a text with the same
digest, and the diagnostics of the scanner that are kept for the document are those of its
findings. -/

namespace DesignLint.Session

/-- What a session has to remember of its scans. -/
inductive Deed
  | completed (d : Document) (findings : List Finding)
  | forgot

def Deed.concerns (key : String) : Deed → Bool
  | .completed d _ => d.path == key
  | .forgot => true

def ScanCall.deed? (n : Nat) (c : ScanCall) : Option Deed :=
  match (c.exec (launcher n)).1 with
  | .ok .completed => do
    let d ← c.document?
    let scanner ← c.session.workspace.scanner
    let findings ← scanner.findings? c.session.nextOutput d.path
    pure (.completed d findings)
  | _ => none

def deed? (n : Nat) (s : Session) (step : Step) : Option Deed :=
  if forgets s step then some .forgot else (scanCall? s step).bind (ScanCall.deed? n)

def Kept (log : List Deed) (s : Session) : Prop :=
  ∀ key digest, s.workspace.scheduler.digests.lookup key = some digest →
    ∃ d findings, latest (Deed.concerns key) log = some (.completed d findings) ∧
      d.digest = digest ∧ s.shown key = findings.map Finding.toDiagnostic

theorem Kept.of_spares {log : List Deed} {s s' : Session} (h : Kept log s) (hs : Spares s s') :
    Kept log s' := by
  intro key digest hknown
  rw [hs.scheduler] at hknown
  obtain ⟨d, findings, hlatest, hdigest, hshown⟩ := h key digest hknown
  exact ⟨d, findings, hlatest, hdigest, (hs.shown key).trans hshown⟩

theorem Kept.forgot {log : List Deed} {s : Session} (h : s.workspace.scheduler.digests = []) :
    Kept log s := by
  intro key digest hknown
  rw [h] at hknown
  cases hknown

section Calls

variable {n : Nat} {c : ScanCall} {log : List Deed}

/-- A call comes to nothing, or its document is submitted. -/
theorem ScanCall.exec_cases (launch : Launcher) (c : ScanCall) :
    (∃ f, c.exec launch = (.error f, c.session)) ∨
      ∃ scanner d, c.session.workspace.scanner = some scanner ∧ c.document? = some d ∧
        c.exec launch = Session.exec (submit launch scanner d c.force) c.session := by
  unfold ScanCall.exec scanFile document?
  cases hscanner : c.session.workspace.scanner with
  | none => exact .inl ⟨.scan .disabled, by simp [hscanner]⟩
  | some scanner =>
    cases hkey : c.session.workspace.key c.path with
    | error e => exact .inl ⟨.file e, by simp [hscanner, hkey, Except.mapError]⟩
    | ok key =>
      cases htext : c.session.textOf key c.text with
      | error e => exact .inl ⟨.file e, by simp [hscanner, hkey, htext, Except.mapError]⟩
      | ok text =>
        refine .inr ⟨scanner, ⟨key, text, Check.languageOf key c.languageName⟩, rfl, ?_, ?_⟩
        · simp [htext, Except.toOption]
        · simp [hscanner, hkey, htext, Except.mapError]

theorem scanned_digests {s : Session} {scanner : Scanner} {d : Document} (key : String) :
    (s.scanned scanner d).2.workspace.scheduler.digests.lookup key =
      if key = d.path ∧ (scanner.findings? s.nextOutput d.path).isSome then some d.digest
      else s.workspace.scheduler.digests.lookup key := by
  simp only [Session.scanned, Workspace.completeScan_scheduler, Scheduler.finish]
  cases scanner.findings? s.nextOutput d.path with
  | none => simp [starting, Workspace.beginScan, Scheduler.start]
  | some findings =>
    simp [Assoc.lookup_set, starting, Workspace.beginScan, Scheduler.start]

theorem scanned_shown {s : Session} {scanner : Scanner} {d : Document} {findings : List Finding}
    (h : scanner.findings? s.nextOutput d.path = some findings) (key : String) :
    (s.scanned scanner d).2.shown key =
      if key = d.path then findings.map Finding.toDiagnostic else s.shown key := by
  simp only [Session.scanned, shown, Workspace.completeScan_of_some _ _ _ _ h, Workspace.release,
    Workspace.settleScan, List.foldl_cons, List.foldl_nil, Store.getSource_replace, and_true]
  rfl

theorem Kept.scanned {s : Session} {scanner : Scanner} {d : Document} {findings : List Finding}
    (h : Kept log s) (hf : scanner.findings? s.nextOutput d.path = some findings) :
    Kept (log ++ [.completed d findings]) (s.scanned scanner d).2 := by
  intro key digest hknown
  rw [scanned_digests, hf] at hknown
  rw [latest_snoc, scanned_shown hf]
  by_cases hkey : key = d.path
  · subst hkey
    rw [if_pos ⟨rfl, rfl⟩] at hknown
    exact ⟨d, findings, by simp [Deed.concerns], Option.some.inj hknown, if_pos rfl⟩
  · rw [if_neg fun hd => hkey hd.1] at hknown
    rw [if_neg hkey, if_neg (by simpa [Deed.concerns] using Ne.symm hkey)]
    exact h key digest hknown

/-- A scan that comes to nothing changes neither the digests nor the diagnostics. -/
theorem Kept.unscanned {s : Session} {scanner : Scanner} {d : Document} (h : Kept log s)
    (hf : scanner.findings? s.nextOutput d.path = none) : Kept log (s.scanned scanner d).2 := by
  intro key digest hknown
  rw [scanned_digests, hf, if_neg (by simp)] at hknown
  obtain ⟨-, hdiagnostics, -⟩ := s.starting.completeScan_of_none scanner d s.nextOutput hf
  have hshown : (s.scanned scanner d).2.shown key = s.shown key := by
    simp only [Session.scanned, shown, hdiagnostics]
    rfl
  rw [hshown]
  exact h key digest hknown

inductive ScanCall.Ends (n : Nat) (c : ScanCall) : Prop
  | refused (f : Fault) (hexec : c.exec (launcher n) = (.error f, c.session))
  | skipped (d : Document) (hdocument : c.document? = some d)
      (hknown : c.session.workspace.scheduler.digests.lookup d.path = some d.digest)
      (hexec : c.exec (launcher n) = (.ok .skipped, c.session))
  | completed (scanner : Scanner) (d : Document) (findings : List Finding)
      (hdocument : c.document? = some d)
      (hfindings : scanner.findings? c.session.nextOutput d.path = some findings)
      (hexec : c.exec (launcher n) = (.ok .completed, (c.session.scanned scanner d).2))
      (hdeed : c.deed? n = some (.completed d findings))
  | failed (scanner : Scanner) (d : Document)
      (hfindings : scanner.findings? c.session.nextOutput d.path = none)
      (houtcome : ∀ o, (c.exec (launcher n)).1 = .ok o → o = .failed)
      (hexec : (c.exec (launcher n)).2 = (c.session.scanned scanner d).2)

theorem ScanCall.ends (hq : Quiet n c.session) : c.Ends n := by
  rcases c.exec_cases (launcher n) with ⟨f, hexec⟩ | ⟨scanner, d, hscanner, hdocument, hexec⟩
  · exact .refused f hexec
  · rw [exec_submit hq] at hexec
    split_ifs at hexec with hsettled
    · exact .skipped d hdocument ((Schedule.isSettled_iff _ _ _).1 hsettled).2.2 hexec
    · cases hf : scanner.findings? c.session.nextOutput d.path with
      | some findings =>
        have hcompleted : (c.session.scanned scanner d).1.mapError Fault.malformed =
            .ok .completed := by
          rw [Session.scanned, Workspace.completeScan_of_some _ _ _ _ hf]
          rfl
        rw [hcompleted] at hexec
        refine .completed scanner d findings hdocument hf hexec ?_
        simp [ScanCall.deed?, hexec, hdocument, hscanner, hf]
      | none =>
        refine .failed scanner d hf ?_ (by rw [hexec])
        intro o ho
        rw [hexec] at ho
        obtain ⟨-, -, hfailed | ⟨m, hmalformed⟩⟩ :=
          c.session.starting.completeScan_of_none scanner d c.session.nextOutput hf
        · rw [Session.scanned, hfailed] at ho
          exact (Except.ok.inj ho).symm
        · rw [Session.scanned, hmalformed] at ho
          cases ho

/-- What one call preserves. -/
theorem ScanCall.keeps (hq : Quiet n c.session) (h : Kept log c.session) :
    Quiet n (c.exec (launcher n)).2 ∧
      Kept (log ++ (c.deed? n).toList) (c.exec (launcher n)).2 := by
  cases c.ends hq with
  | refused f hexec =>
    rw [ScanCall.deed?, hexec]
    exact ⟨hq, by simpa using h⟩
  | skipped d _ _ hexec =>
    rw [ScanCall.deed?, hexec]
    exact ⟨hq, by simpa using h⟩
  | completed scanner d findings _ hfindings hexec hdeed =>
    rw [hdeed, hexec]
    exact ⟨hq.scanned scanner d, h.scanned hfindings⟩
  | failed scanner d hfindings houtcome hexec =>
    have hdeed : c.deed? n = none := by
      unfold ScanCall.deed?
      split
      · exact absurd (houtcome _ ‹_›) (by simp)
      · rfl
    rw [hdeed, hexec]
    exact ⟨hq.scanned scanner d, by simpa using h.unscanned hfindings⟩

end Calls

section Steps

variable {n : Nat} {s : Session} {log : List Deed}

/-- What one step preserves. -/
theorem Kept.step (h : Kept log s) (hq : Quiet n s) (step : Step) :
    Quiet n (after n s step) ∧ Kept (log ++ (deed? n s step).toList) (after n s step) := by
  unfold deed?
  cases hforgets : forgets s step with
  | true =>
    obtain ⟨hscheduler, hscripted⟩ := after_forgets hq.toScripted hforgets
    refine ⟨⟨hscripted, ?_, ?_⟩, .forgot ?_⟩
    · rw [hscheduler]
      exact hq.idle
    · rw [hscheduler]
      rfl
    · rw [hscheduler]
      rfl
  | false =>
    have hmakes := makes_perform (launcher n) s step hforgets
    change Makes (launcher n) s (after n s step) (scanCall? s step) at hmakes
    cases hcall : scanCall? s step with
    | none =>
      rw [hcall] at hmakes
      exact ⟨hmakes.quiet hq, by simpa using h.of_spares hmakes⟩
    | some c =>
      rw [hcall] at hmakes
      obtain ⟨hspares, reports, hafter⟩ := hmakes
      obtain ⟨hquiet, hkept⟩ := c.keeps (hspares.quiet hq) (h.of_spares hspares)
      rw [hafter]
      exact ⟨⟨⟨hquiet.plain, hquiet.enough⟩, hquiet.idle, hquiet.empty⟩, hkept⟩

end Steps

end DesignLint.Session
