import DesignLint.Proofs.NamedEntries
import DesignLint.Proofs.SessionRuns

/-! What the steps of a session do to its scans. A step scans a document if it comes down to a call for
that scan, forgets all scans, or leaves alone the digests, the queue and the diagnostics of the
scanner. -/

namespace DesignLint

def Principle.source : Principle → String
  | .srp => Diagnostic.srpSource
  | .ocp => Diagnostic.ocpSource
  | .dip => Diagnostic.dipSource
  | .isp => Diagnostic.ispSource

theorem Principle.source_mem (p : Principle) : p.source ∈ Diagnostic.principleSources := by
  cases p <;> simp [Principle.source, Diagnostic.principleSources]

/-- Each principle that is checked adds its own diagnostics. -/
theorem Check.foldl_run_names (s : Settings) (m : SourceModel) (ps : List Principle) (r : CheckReport) :
    (ps.foldl (Check.run s m) r).diagnostics.map (·.1) =
      r.diagnostics.map (·.1) ++ ps.map Principle.source := by
  induction ps generalizing r with
  | nil => simp
  | cons p ps ih =>
    have hrun : (Check.run s m r p).diagnostics.map (·.1) = r.diagnostics.map (·.1) ++ [p.source] := by
      cases p <;> exact List.map_append
    rw [List.foldl_cons, ih, hrun, List.map_cons, List.append_assoc, List.singleton_append]

/-- A report speaks for the principles only. -/
theorem Check.text_sources (s : Settings) (path content : String) (languageName : Option String)
    (asked : List String) :
    (Check.text s path content languageName asked).diagnostics.map (·.1) ⊆
      Diagnostic.principleSources := by
  unfold Check.text
  dsimp only
  split_ifs with hsupported
  · rw [Check.foldl_run_names]
    intro source hsource
    obtain ⟨p, -, rfl⟩ := List.mem_map.1 hsource
    exact p.source_mem
  · simp

theorem scannerSource_not_mem {sources : List String} (h : sources ⊆ Diagnostic.principleSources) :
    Diagnostic.scannerSource ∉ sources := fun hmem =>
  absurd (h hmem) (by decide)

namespace Workspace

theorem inspect_sources {w : Workspace} {t : FileTree} {path content languageName : String}
    {asked : List String} {r : CheckReport}
    (h : w.inspect t path content languageName asked = .ok r) :
    r.diagnostics.map (·.1) ⊆ Diagnostic.principleSources := by
  unfold inspect at h
  cases hkey : (w.key path).mapError ToolFault.file with
  | error e => simp [hkey, bind, Except.bind] at h
  | ok key =>
    cases hcontent : contentFor t path key content with
    | error e => simp [hkey, hcontent, bind, Except.bind] at h
    | ok content =>
      have hsources := Check.text_sources w.checks key content (some languageName) asked
      simp only [hkey, hcontent, bind, Except.bind] at h
      generalize Check.text w.checks key content (some languageName) asked = report at h hsources
      split_ifs at h with hskipped
      obtain rfl := Except.ok.inj h
      exact hsources

variable (w : Workspace) (r : CheckReport)
  (h : r.diagnostics.map (·.1) ⊆ Diagnostic.principleSources) (document : String)

include h

theorem addReport_scanned :
    (w.addReport r).diagnostics.getSource document Diagnostic.scannerSource =
      w.diagnostics.getSource document Diagnostic.scannerSource :=
  Store.getSource_foldl_replace _ _ _ _ _ (scannerSource_not_mem h)

theorem publish_scanned :
    (w.publish r).diagnostics.getSource document Diagnostic.scannerSource =
      w.diagnostics.getSource document Diagnostic.scannerSource := by
  have hstale : Diagnostic.scannerSource ∉
      Diagnostic.principleSources.filter fun source => !Assoc.has r.diagnostics source :=
    scannerSource_not_mem (List.filter_subset_self _)
  unfold publish
  rw [Store.getSource_foldl_replace _ _ _ _ _ (scannerSource_not_mem h),
    Store.getSource_clearSources, if_neg fun hcleared => hstale hcleared.2]

end Workspace

namespace Session

/-- The diagnostics of the scanner that are kept for a document. -/
def shown (s : Session) (key : String) : List Diagnostic :=
  s.workspace.diagnostics.getSource key Diagnostic.scannerSource

/-- Nothing has happened between two sessions that concerns scans. -/
structure Spares (s s' : Session) : Prop where
  scheduler : s'.workspace.scheduler = s.workspace.scheduler
  shown : ∀ key, s'.shown key = s.shown key
  replies : s'.replies = s.replies
  launches : s'.launches = s.launches

theorem Spares.refl (s : Session) : Spares s s := ⟨rfl, fun _ => rfl, rfl, rfl⟩

theorem Spares.same {s s' : Session} (hw : s'.workspace = s.workspace) (hr : s'.replies = s.replies)
    (hl : s'.launches = s.launches) : Spares s s' :=
  ⟨by rw [hw], fun key => by rw [Session.shown, hw, Session.shown], hr, hl⟩

theorem Spares.trans {a b c : Session} (h : Spares a b) (h' : Spares b c) : Spares a c where
  scheduler := h'.scheduler.trans h.scheduler
  shown key := (h'.shown key).trans (h.shown key)
  replies := h'.replies.trans h.replies
  launches := h'.launches.trans h.launches

theorem Spares.quiet {n : Nat} {s s' : Session} (h : Spares s s') (hq : Quiet n s) : Quiet n s' where
  plain := h.replies ▸ hq.plain
  enough := h.replies ▸ hq.enough
  idle := h.scheduler ▸ hq.idle
  empty := h.scheduler ▸ hq.empty

theorem spares_publish (s : Session) (r : CheckReport)
    (h : r.diagnostics.map (·.1) ⊆ Diagnostic.principleSources) :
    Spares s { s with workspace := s.workspace.publish r } where
  scheduler := rfl
  shown := s.workspace.publish_scanned r h
  replies := rfl
  launches := rfl

theorem spares_check (s : Session) (key text : String) :
    Spares s { s with workspace := (s.workspace.check key text).1 } :=
  spares_publish s (s.workspace.check key text).2 (Check.text_sources s.workspace.checks key text none [])

theorem spares_addReport (s : Session) (r : CheckReport)
    (h : r.diagnostics.map (·.1) ⊆ Diagnostic.principleSources) :
    Spares s { s with workspace := s.workspace.addReport r } where
  scheduler := rfl
  shown := s.workspace.addReport_scanned r h
  replies := rfl
  launches := rfl

def malformed? {α : Type} : Except Fault α → Option Malformed
  | .error (.malformed m) => some m
  | _ => none

@[simp] theorem malformed?_ok {α : Type} (a : α) : malformed? (.ok a) = none := rfl

@[simp] theorem malformed?_map {α β : Type} (f : α → β) (r : Except Fault α) :
    malformed? (r.map f) = malformed? r := by
  cases r with
  | ok a => rfl
  | error e => cases e <;> rfl

theorem malformed?_eq_some {α : Type} {r : Except Fault α} {m : Malformed} :
    malformed? r = some m ↔ r = .error (.malformed m) := by
  cases r with
  | ok a => simp
  | error e => cases e <;> simp [malformed?]

structure Apart {α : Type} (s : Session) (r : Except Fault α) (s' : Session) : Prop where
  workspace : s'.workspace = s.workspace
  replies : s'.replies = s.replies
  launches : s'.launches = s.launches
  fault : malformed? r = none

theorem Apart.refl {α : Type} {r : Except Fault α} (s : Session) (h : malformed? r = none) :
    Apart s r s := ⟨rfl, rfl, rfl, h⟩

theorem Apart.trans {α β : Type} {a b c : Session} {r : Except Fault α} {r' : Except Fault β}
    (h : Apart a r b) (h' : Apart b r' c) : Apart a r' c where
  workspace := h'.workspace.trans h.workspace
  replies := h'.replies.trans h.replies
  launches := h'.launches.trans h.launches
  fault := h'.fault

def Frames {α : Type} (act : Act α) : Prop :=
  ∀ s, Apart s (exec act s).1 (exec act s).2

section Frames

variable {α β : Type}

theorem Frames.spares {act : Act α} (h : Frames act) (s : Session) : Spares s (exec act s).2 :=
  .same (h s).workspace (h s).replies (h s).launches

theorem Frames.pure (a : α) : Frames (pure a) := fun s => .refl s rfl

theorem Frames.throw {f : Fault} (h : malformed? (.error f : Except Fault α) = none) :
    Frames (throw f : Act α) := fun s => .refl s h

theorem Frames.bind {act : Act α} {f : α → Act β} (h : Frames act) (hf : ∀ a, Frames (f a)) :
    Frames (act >>= f) := by
  intro s
  have hact := h s
  rw [exec_bind]
  rcases hexec : exec act s with ⟨r, s'⟩
  rw [hexec] at hact
  cases r with
  | error e => exact ⟨hact.workspace, hact.replies, hact.launches, by cases e <;> exact hact.fault⟩
  | ok a => exact hact.trans (hf a s')

theorem Frames.get : Frames (get : Act Session) := fun s => .refl s rfl

theorem Frames.modify {f : Session → Session} (hw : ∀ s, (f s).workspace = s.workspace)
    (hr : ∀ s, (f s).replies = s.replies) (hl : ∀ s, (f s).launches = s.launches) :
    Frames (modify f : Act PUnit) := fun s => ⟨hw s, hr s, hl s, rfl⟩

theorem Frames.map {act : Act α} (h : Frames act) (f : α → β) : Frames (f <$> act) := by
  intro s
  rw [exec_map]
  exact ⟨(h s).workspace, (h s).replies, (h s).launches, (malformed?_map f _).trans (h s).fault⟩

theorem Frames.forM (items : List α) {f : α → Act PUnit} (h : ∀ a, Frames (f a)) :
    Frames (items.forM f) := by
  induction items with
  | nil => exact .pure _
  | cons a items ih => exact .bind (h a) fun _ => ih

theorem Frames.optional {p : Prop} [Decidable p] {act : Act α} {rest : α → Act β} (a : α)
    (h : Frames act) (hrest : ∀ a, Frames (rest a)) :
    Frames (if p then act >>= rest else rest a) := by
  split_ifs with hp
  · exact .bind h hrest
  · exact hrest a

theorem frames_ofExcept {ε : Type} {fault : ε → Fault}
    (h : ∀ e, malformed? (.error (fault e) : Except Fault α) = none) (x : Except ε α) :
    Frames (ofExcept fault x) := by
  intro s
  rw [exec_ofExcept]
  cases x with
  | ok a => exact .refl s rfl
  | error e => exact .refl s (h e)

theorem frames_addWatcher : Frames addWatcher := by
  refine .bind .get fun s => ?_
  cases Watcher.ofSettings? s.workspace.settings with
  | none => exact .throw rfl
  | some w => exact .modify (fun _ => rfl) (fun _ => rfl) fun _ => rfl

theorem frames_tell (k : Nat) (call : ObserverCall) : Frames (tell k call) :=
  .modify (fun _ => rfl) (fun _ => rfl) fun _ => rfl

theorem frames_observe (k : Nat) (directory : String) : Frames (observe k directory) := by
  refine .bind .get fun s => .bind (frames_ofExcept (fun _ => rfl) _) fun isDirectory => ?_
  cases isDirectory with
  | false => exact .pure _
  | true => exact frames_tell _ _

theorem frames_startWatching : Frames startWatching := by
  refine .bind .get fun _ => .bind (.modify (fun _ => rfl) (fun _ => rfl) fun _ => rfl) fun _ => ?_
  refine .bind frames_addWatcher fun _ => .bind .get fun _ => ?_
  refine .bind (.forM _ (frames_observe _)) fun _ => .bind (frames_tell _ _) fun _ => ?_
  exact .modify (fun _ => rfl) (fun _ => rfl) fun _ => rfl

theorem frames_receive (path : String) (isDirectory : Bool) (counts : Watcher → Bool)
    (take : Watcher → Bool → Watcher) : Frames (receive path isDirectory counts take) := by
  refine .bind .get fun s => ?_
  dsimp only
  refine .optional () frames_addWatcher fun _ => ?_
  intro s
  simp only [exec_bind, exec_get]
  split_ifs with hasked
  · rw [exec_bind, exec_ofExcept]
    cases s.workspace.isIgnored s.files path with
    | error e => exact .refl s rfl
    | ok ignored => exact ⟨rfl, rfl, rfl, rfl⟩
  · exact ⟨rfl, rfl, rfl, rfl⟩

theorem frames_shutdown : Frames (modify shutdown : Act PUnit) := by
  intro s
  rw [exec_modify]
  unfold shutdown
  dsimp only
  split
  · exact ⟨rfl, rfl, rfl, rfl⟩
  · exact ⟨rfl, rfl, rfl, rfl⟩

end Frames

structure ScanCall where
  session : Session
  path : String
  text : Option String
  force : Bool
  languageName : Option String

namespace ScanCall

def exec (launch : Launcher) (c : ScanCall) : Except Fault ScanOutcome × Session :=
  Session.exec (scanFile launch c.path c.text c.force c.languageName) c.session

def document? (c : ScanCall) : Option Document := do
  let key ← (c.session.workspace.key c.path).toOption
  let text ← (c.session.textOf key c.text).toOption
  pure ⟨key, text, Check.languageOf key c.languageName⟩

end ScanCall

def analysisCall? (s : Session) (path : String) (text : Option String) (force scan : Bool) :
    Option ScanCall := do
  let key ← (s.workspace.key path).toOption
  let text ← (s.textOf key text).toOption
  let (w, report) := s.workspace.check key text
  if scan && !report.skipped && w.scanner.isSome then
    some ⟨{ s with workspace := w }, key, some text, force, report.languageName⟩
  else none

/-- The call behind the reading and the check of a file. -/
def fileCall? (s : Session) (key : String) (force : Bool) : Option ScanCall := do
  let text ← (s.files.readText (.ofString key)).toOption
  let checked ← (s.workspace.key key).toOption
  some ⟨{ s with workspace := (s.workspace.check checked text).1 }, key, some text, force, none⟩

def toolCall? (s : Session) (path : String) (force : Bool) : Option ScanCall := do
  let key ← (s.workspace.key path).toOption
  let isFile ← (s.files.isFile (.ofString key)).toOption
  if isFile && s.workspace.scanner.isSome then fileCall? s key force else none

def scanCall? (s : Session) : Step → Option ScanCall
  | .scanFile path text force languageName => some ⟨s, path, text, force, languageName⟩
  | .analyze path text force scan => analysisCall? s path text force scan
  | .changed path force => analysisCall? s path none force true
  | .fire path =>
    match startedTimer? s.watchers path with
    | none => none
    | some (i, k) =>
      let force := ((s.watchers[i]?.bind fun w => w.timers[k]?).map Timer.force).getD false
      analysisCall? { s with watchers := s.watchers.modify i fun w => w.expire path k } path none
        force true
  | .tool (.scanFile path force) => toolCall? s path force
  | _ => none

def forgets (s : Session) : Step → Bool
  | .clear | .tool .clear => true
  | .scanWorkspace | .tool .scanWorkspace => s.workspace.scanner.isSome
  | _ => false

/-- Between two sessions a call was made, if there is one, and nothing else that concerns scans. -/
def Makes (launch : Launcher) (s s' : Session) : Option ScanCall → Prop
  | none => Spares s s'
  | some c => Spares s c.session ∧ ∃ reports, s' = { (c.exec launch).2 with reports }

theorem makes_call {launch : Launcher} {s s' : Session} {c : ScanCall} (h : Spares s c.session)
    (hs : s' = (c.exec launch).2) : Makes launch s s' (some c) :=
  ⟨h, s'.reports, by rw [hs]⟩

theorem Makes.of_spares {launch : Launcher} {a b s : Session} {call? : Option ScanCall}
    (h : Makes launch b s call?) (hab : Spares a b) : Makes launch a s call? := by
  cases call? with
  | none => exact hab.trans h
  | some c => exact ⟨hab.trans h.1, h.2⟩

theorem Makes.with_reports {launch : Launcher} {s s' : Session} {call? : Option ScanCall}
    (h : Makes launch s s' call?) (reports : List CheckReport) :
    Makes launch s { s' with reports } call? := by
  cases call? with
  | none => exact ⟨h.scheduler, h.shown, h.replies, h.launches⟩
  | some c =>
    obtain ⟨hspares, before, rfl⟩ := h
    exact ⟨hspares, reports, rfl⟩

section Calls

variable (launch : Launcher) (s : Session) (path : String) (text : Option String) (force : Bool)

theorem makes_analyze (scan : Bool) :
    Makes launch s (exec (analyze launch path text force scan) s).2
      (analysisCall? s path text force scan) := by
  unfold analyze analysisCall?
  cases hkey : s.workspace.key path with
  | error e =>
    simp only [exec_bind, exec_get, exec_ofExcept, hkey, Except.mapError, Except.toOption,
      Option.bind_eq_bind, Option.bind_none]
    exact .refl s
  | ok key =>
    cases htext : s.textOf key text with
    | error e =>
      simp only [exec_bind, exec_get, exec_ofExcept, exec_documentText, hkey, htext, Except.mapError,
        Except.toOption, Option.bind_eq_bind, Option.bind_some, Option.bind_none]
      exact .refl s
    | ok content =>
      have hcheck := spares_check s key content
      simp only [exec_bind, exec_get, exec_ofExcept, exec_documentText, hkey, htext, Except.mapError,
        Except.toOption, Option.bind_eq_bind, Option.bind_some, exec_lift, run_setWorkspace]
      -- what the check does is of no further concern
      generalize s.workspace.check key content = checked at hcheck ⊢
      split_ifs with hscans
      · rw [bind_pure_comp, exec_map]
        exact makes_call hcheck rfl
      · exact hcheck

/-- A change of a file comes down to its analysis, but for the report that is kept. -/
theorem exec_changed : ∃ reports, (exec (changed launch path force) s).2 =
    { (exec (analyze launch path none force true) s).2 with reports } := by
  unfold changed
  rcases hexec : exec (analyze launch path none force true) s with ⟨r, s'⟩
  simp only [exec_bind, exec_attempt, hexec]
  cases r with
  | ok report =>
    cases hskipped : report.skipped with
    | false => exact ⟨s'.reports ++ [report], by simp [hskipped]⟩
    | true => exact ⟨s'.reports, by simp [hskipped]⟩
  | error f =>
    refine ⟨s'.reports, ?_⟩
    cases f with
    | file e => cases e <;> rfl
    | _ => rfl

theorem makes_changed : Makes launch s (exec (changed launch path force) s).2
    (analysisCall? s path none force true) := by
  obtain ⟨reports, hchanged⟩ := exec_changed launch s path force
  rw [hchanged]
  exact (makes_analyze launch s path none force true).with_reports reports

theorem makes_fire :
    Makes launch s (exec (fire launch path) s).2 (scanCall? s (.fire path)) := by
  unfold fire scanCall?
  simp only [exec_bind, exec_get]
  cases startedTimer? s.watchers path with
  | none => exact Spares.refl s
  | some timer =>
    obtain ⟨i, k⟩ := timer
    simp only [exec_bind, exec_set, bind_pure_comp, exec_map]
    have hchanged := makes_changed launch
      { s with watchers := s.watchers.modify i fun w => w.expire path k } path
      (((s.watchers[i]?.bind fun w => w.timers[k]?).map Timer.force).getD false)
    exact hchanged.of_spares (.same rfl rfl rfl)

theorem makes_checkAndScan (key : String) : Makes launch s (exec (checkAndScan launch key force) s).2
    (fileCall? s key force) := by
  unfold checkAndScan fileCall?
  cases htext : s.files.readText (.ofString key) with
  | error e =>
    simp only [exec_bind, exec_documentText, textOf, htext, Except.mapError, Except.toOption,
      Option.bind_eq_bind, Option.bind_none]
    exact .refl s
  | ok content =>
    simp only [analyze, bind_assoc, exec_bind, exec_documentText, textOf, htext, Except.mapError, exec_get,
      exec_ofExcept, Except.toOption, Option.bind_eq_bind, Option.bind_some]
    cases hchecked : s.workspace.key key with
    | error e => exact Spares.refl s
    | ok checked =>
      have hcheck := spares_check s checked content
      simp only [Bool.false_and, Bool.false_eq_true, ↓reduceIte, exec_pure, exec_lift, run_setWorkspace,
        Option.bind_some]
      generalize s.workspace.check checked content = p at hcheck ⊢
      exact makes_call hcheck rfl

/-- Once the file is known to be one, the tool changes nothing of the session that reading, checking and
scanning it do not. -/
theorem exec_toolScan {key : String} (hkey : s.workspace.key path = .ok key)
    (hfile : s.files.isFile (.ofString key) = .ok true) (hscanner : s.workspace.scanner.isSome = true) :
    (exec (toolScan launch path force) s).2 = (exec (checkAndScan launch key force) s).2 := by
  rcases hexec : exec (checkAndScan launch key force) s with ⟨r, s'⟩
  have hsome : s.workspace.scanner.isNone = false := by simpa using hscanner
  simp only [toolScan, exec_bind, exec_get, exec_ofExcept, hkey, hfile, hsome, Except.mapError, Bool.not_true,
    Bool.false_eq_true, ↓reduceIte, exec_attempt, hexec]
  cases r with
  | error f => rfl
  | ok outcome =>
    by_cases hfailed : outcome = .failed
    · simp [hfailed]
    · simp [hfailed]

theorem makes_toolScan : Makes launch s (exec (toolScan launch path force) s).2
    (toolCall? s path force) := by
  unfold toolCall?
  cases hkey : s.workspace.key path with
  | error e =>
    simp only [toolScan, exec_bind, exec_get, exec_ofExcept, hkey, Except.mapError, Except.toOption,
      Option.bind_eq_bind, Option.bind_none]
    exact .refl s
  | ok key =>
    cases hfile : s.files.isFile (.ofString key) with
    | error e =>
      simp only [toolScan, exec_bind, exec_get, exec_ofExcept, hkey, hfile, Except.mapError, Except.toOption,
        Option.bind_eq_bind, Option.bind_some, Option.bind_none]
      exact .refl s
    | ok isFile =>
      simp only [hfile, Except.toOption, Option.bind_eq_bind, Option.bind_some]
      cases isFile with
      | false =>
        simp only [toolScan, exec_bind, exec_get, exec_ofExcept, hkey, hfile, Except.mapError]
        exact Spares.refl s
      | true =>
        cases hscanner : s.workspace.scanner.isSome with
        | false =>
          have hnone : s.workspace.scanner.isNone = true := by simpa using hscanner
          simp only [toolScan, exec_bind, exec_get, exec_ofExcept, hkey, hfile, hnone, Except.mapError]
          exact Spares.refl s
        | true =>
          rw [exec_toolScan launch s path force hkey hfile hscanner]
          exact makes_checkAndScan launch s force key

theorem spares_scanWorkspace (h : s.workspace.scanner.isSome = false) :
    Spares s (exec (scanWorkspace launch) s).2 := by
  have hnone : s.workspace.scanner = none := by simpa using h
  simp only [scanWorkspace, exec_bind, exec_scanner, hnone]
  exact .refl s

theorem exec_callTool_scanWorkspace :
    (exec (callTool launch .scanWorkspace) s).2 = (exec (scanWorkspace launch) s).2 := by
  rcases hexec : exec (scanWorkspace launch) s with ⟨r, s'⟩
  simp only [callTool, exec_bind, exec_get, ToolCall.fault?, exec_attempt, hexec]
  split
  · rfl
  · rfl
  · rfl

theorem makes_callTool (call : ToolCall) (h : forgets s (.tool call) = false) :
    Makes launch s (exec (callTool launch call) s).2 (scanCall? s (.tool call)) := by
  cases call with
  | ping message => exact Spares.refl s
  | principle p path content languageName =>
    simp only [callTool, ToolCall.fault?, bind_pure_comp, exec_bind, exec_get, exec_map, exec_ofExcept]
    exact Spares.refl s
  | file path content principles =>
    simp only [callTool, exec_bind, exec_get]
    cases (ToolCall.file path content principles).fault? with
    | some e => exact Spares.refl s
    | none =>
      generalize (if principles.isEmpty then Principle.names else principles) = asked
      rw [exec_bind, exec_ofExcept]
      cases hreport : s.workspace.inspect s.files path content "" asked with
      | error e => exact Spares.refl s
      | ok report => exact spares_addReport s report (Workspace.inspect_sources hreport)
  | scanFile path force =>
    have htool := makes_toolScan launch s path force
    simpa [callTool, ToolCall.fault?, scanCall?] using htool
  | scanWorkspace =>
    rw [exec_callTool_scanWorkspace]
    exact spares_scanWorkspace launch s h
  | diagnostics path =>
    simp only [callTool, ToolCall.fault?, bind_pure_comp, exec_bind, exec_get, exec_map, exec_ofExcept]
    exact Spares.refl s
  | clear => simp [forgets] at h

theorem makes_perform (step : Step) (h : forgets s step = false) :
    Makes launch s (exec (perform launch step) s).2 (scanCall? s step) := by
  cases step with
  | write path content => exact .same rfl rfl rfl
  | delete path => exact .same rfl rfl rfl
  | analyze path text force scan =>
    rw [perform, exec_map]
    exact makes_analyze launch s path text force scan
  | scanFile path text force languageName =>
    rw [perform, exec_map]
    exact makes_call (.refl s) rfl
  | scanWorkspace =>
    rw [perform, exec_map]
    exact spares_scanWorkspace launch s h
  | diagnostics path =>
    exact (Frames.bind .get fun _ => .map (frames_ofExcept (fun _ => rfl) _) _).spares s
  | key path =>
    exact (Frames.bind .get fun _ => .map (frames_ofExcept (fun _ => rfl) _) _).spares s
  | isIgnored path =>
    exact (Frames.bind .get fun _ => .bind .get fun _ =>
      .map (frames_ofExcept (fun _ => rfl) _) _).spares s
  | changed path force =>
    simp only [perform, bind_pure_comp, exec_map]
    exact makes_changed launch s path force
  | setChecks fields =>
    rw [perform, exec_bind, exec_ofExcept]
    cases Settings.ofFields fields with
    | error errors => exact .refl s
    | ok checks => exact ⟨rfl, fun _ => rfl, rfl, rfl⟩
  | clear => simp [forgets] at h
  | watch => exact (frames_startWatching.bind fun _ => .pure _).spares s
  | shutdown => exact (frames_shutdown.bind fun _ => .pure _).spares s
  | modified path isDirectory =>
    exact ((frames_receive _ _ _ _).bind fun _ => .pure _).spares s
  | created path isDirectory =>
    exact ((frames_receive _ _ _ _).bind fun _ => .pure _).spares s
  | fire path =>
    rw [perform, exec_map]
    exact makes_fire launch s path
  | tool call =>
    rw [perform, exec_map]
    exact makes_callTool launch s call h

end Calls

/-- A step that forgets all scans leaves nothing known and nothing waiting. -/
theorem after_forgets {n : Nat} {s : Session} {step : Step} (hs : Scripted n s)
    (h : forgets s step = true) :
    (after n s step).workspace.scheduler = s.workspace.scheduler.clear ∧
      Scripted n (after n s step) := by
  have hfull : s.workspace.scanner.isSome = true →
      (exec (scanWorkspace (launcher n)) s).2.workspace.scheduler = s.workspace.scheduler.clear ∧
        Scripted n (exec (scanWorkspace (launcher n)) s).2 := by
    intro hscanner
    obtain ⟨scanner, hsome⟩ := Option.isSome_iff_exists.1 hscanner
    have hlaunched := hs.launched (scanner.command s.workspace.root.toString)
    rw [exec_scanWorkspace hs, hsome]
    exact ⟨Workspace.completeFullScan_scheduler _ _ _, hlaunched.plain, hlaunched.enough⟩
  have hclear : ({ s with workspace := s.workspace.clear } : Session).workspace.scheduler =
      s.workspace.scheduler.clear ∧ Scripted n { s with workspace := s.workspace.clear } :=
    ⟨rfl, hs.plain, hs.enough⟩
  unfold after
  cases step with
  | clear => exact hclear
  | scanWorkspace =>
    rw [perform, exec_map]
    exact hfull h
  | tool call =>
    rw [perform, exec_map]
    cases call with
    | clear => exact hclear
    | scanWorkspace =>
      rw [exec_callTool_scanWorkspace]
      exact hfull h
    | _ => simp [forgets] at h
  | _ => simp [forgets] at h

end Session

end DesignLint
