import DesignLint.Proofs.Bursts
import DesignLint.Proofs.SessionSteps

/-! The watchers of a session. Whatever happens in a session, also while a scanner is at work, each of its watchers is
one that was new once and has taken steps since; so what holds along the runs of a watcher holds of the watchers of
every session. -/

namespace DesignLint.Watcher

def Reached (w : Watcher) : Prop :=
  ∃ (s : Settings) (delay : Float) (steps : List Step), w = (ofDelay s delay).run steps

theorem Reached.take {w : Watcher} (h : Reached w) (step : Step) : Reached (w.take step) := by
  obtain ⟨s, delay, steps, rfl⟩ := h
  exact ⟨s, delay, steps ++ [step], (run_snoc _ _ _).symm⟩

theorem reached_of_ofSettings? {s : Settings} {w : Watcher} (h : ofSettings? s = some w) : Reached w := by
  obtain ⟨delay, -, rfl⟩ := Option.map_eq_some_iff.1 h
  exact ⟨s, delay, [], rfl⟩

end DesignLint.Watcher

namespace DesignLint.Session

section Handed

variable {s : Session} {v : Watcher} (hs : s.watchers = [v]) (launch : Launcher) (path : String)

include hs

/-- A timer that fires hands its file on to one check. -/
theorem exec_fire_of_some {force : Bool} (hcall : v.call? (.expired path) = some (path, force)) :
    exec (fire launch path) s =
      exec (do changed launch path force; pure true) { s with watchers := [v.take (.expired path)] } := by
  obtain ⟨flag, hflag, heq⟩ := Option.map_eq_some_iff.1 hcall
  obtain rfl := (Prod.mk.inj heq).2
  exact @exec_fire launch s [] [] v path flag hs (fun _ => nofun) hflag

theorem exec_fire_of_none (hcall : v.call? (.expired path) = none) : exec (fire launch path) s = (.ok false, s) := by
  have hfiring : v.firing? path = none := Option.map_eq_none_iff.1 hcall
  have hnone : v.startedTimer? path = none := by
    by_contra hsome
    obtain ⟨k, hk⟩ := Option.ne_none_iff_exists'.1 hsome
    obtain ⟨t, ht, -⟩ := Watcher.runs_of_startedTimer? hk
    simp [Watcher.firing?, hk, ht] at hfiring
  simp [fire, hs, startedTimer?, hnone]

variable {ignored : Bool} (hignored : s.workspace.isIgnored s.files path = .ok ignored)

include hignored

theorem exec_receive {isDirectory : Bool} {counts : Watcher → Bool} {take : Watcher → Bool → Watcher}
    (htake : (counts v && v.isSource path isDirectory) = false → take v true = take v ignored) :
    exec (receive path isDirectory counts take) s = (.ok (), { s with watchers := [take v ignored] }) := by
  cases hasked : counts v && v.isSource path isDirectory with
  | true =>
    simp [receive, hs, currentWatcher?, hasked, hignored, modifyWatcher, Except.mapError]
  | false =>
    simp [receive, hs, currentWatcher?, hasked, modifyWatcher, htake hasked]

theorem exec_perform_modified (isDirectory : Bool) : exec (perform launch (.modified path isDirectory)) s =
    (.ok .done, { s with watchers := [v.take (.modified path isDirectory ignored)] }) := by
  rw [perform, exec_bind, exec_receive hs path hignored]
  · rfl
  · intro hasked
    simp [Watcher.modified, Watcher.isRelevant, ← Bool.and_assoc, hasked]

theorem exec_perform_created (isDirectory : Bool) : exec (perform launch (.created path isDirectory)) s =
    (.ok .done, { s with watchers := [v.take (.created path isDirectory ignored)] }) := by
  rw [perform, exec_bind, exec_receive hs path hignored]
  · rfl
  · intro hasked
    simp [Watcher.created, Watcher.isRelevant, ← Bool.and_assoc, hasked]

end Handed

/-- All watchers of a session were new once and have taken steps since. -/
def Tended (s : Session) : Prop :=
  ∀ w ∈ s.watchers, w.Reached

def Tends {α : Type} (act : Act α) : Prop :=
  ∀ s, Tended s → Tended (exec act s).2

section Tends

variable {α β ε : Type}

theorem Tends.of_same {act : Act α} (h : ∀ s, (exec act s).2.watchers = s.watchers) : Tends act := by
  intro s hs w hw
  exact hs w (h s ▸ hw)

theorem Tends.pure (a : α) : Tends (pure a) := .of_same fun _ => rfl

theorem Tends.throw (f : Fault) : Tends (throw f : Act α) := .of_same fun _ => rfl

theorem Tends.get : Tends (get : Act Session) := .of_same fun _ => rfl

theorem Tends.modify {f : Session → Session} (h : ∀ s, (f s).watchers = s.watchers) : Tends (modify f : Act PUnit) :=
  .of_same h

theorem Tends.ofExcept (fault : ε → Fault) (x : Except ε α) : Tends (ofExcept fault x) :=
  .of_same fun s => by rw [exec_ofExcept]

theorem Tends.setWorkspace (w : Workspace) : Tends (liftM (setWorkspace w) : Act Unit) := .of_same fun _ => rfl

theorem Tends.bind {act : Act α} {f : α → Act β} (h : Tends act) (hf : ∀ a, Tends (f a)) : Tends (act >>= f) := by
  intro s hs
  have hact := h s hs
  rw [exec_bind]
  rcases hexec : exec act s with ⟨r, s'⟩
  rw [hexec] at hact
  cases r with
  | error e => exact hact
  | ok a => exact hf a s' hact

theorem Tends.map {act : Act α} (h : Tends act) (f : α → β) : Tends (f <$> act) := by
  intro s hs
  rw [exec_map]
  exact h s hs

theorem Tends.attempt {act : Act α} (h : Tends act) : Tends (attempt act) := h

theorem Tends.forM (items : List α) {f : α → Act PUnit} (h : ∀ a, Tends (f a)) : Tends (items.forM f) := by
  induction items with
  | nil => exact .pure _
  | cons a items ih => exact .bind (h a) fun _ => ih

theorem Tends.ite {p : Prop} [Decidable p] {a b : Act α} (ha : Tends a) (hb : Tends b) :
    Tends (if p then a else b) := by
  split_ifs with hp
  · exact ha
  · exact hb

theorem Tends.optional {p : Prop} [Decidable p] {act : Act α} {rest : α → Act β} (a : α) (h : Tends act)
    (hrest : ∀ a, Tends (rest a)) : Tends (if p then act >>= rest else rest a) :=
  .ite (.bind h hrest) (hrest a)

end Tends

def TendsAtLaunch (launch : Launcher) : Prop :=
  ∀ command s, Tended s → Tended ((launch command).run s).2

section Scans

variable {launch : Launcher} (h : TendsAtLaunch launch)

theorem tends_documentText (key : String) (text : Option String) : Tends (documentText key text) :=
  .of_same fun s => by rw [exec_documentText]

theorem tends_scanner : Tends scanner := by
  refine .of_same fun s => ?_
  rw [exec_scanner]
  cases s.workspace.scanner with
  | none => rfl
  | some scanner => rfl

include h

theorem TendsAtLaunch.tends (command : List String) : Tends (liftM (launch command) : Act _) :=
  fun s hs => h command s hs

theorem tends_scanDocument (scanner : Scanner) (d : Document) : Tends (scanDocument launch scanner d) := by
  refine .bind (.modify fun _ => rfl) fun _ => .bind (h.tends _) fun _ => .bind .get fun _ => ?_
  exact .bind (.setWorkspace _) fun _ => .ofExcept _ _

theorem tends_drain (scanner : Scanner) (n : Nat) : Tends (drain launch scanner n) := by
  induction n with
  | zero => exact .pure _
  | succ n ih =>
    refine .bind .get fun s => ?_
    rcases s.workspace.nextDocument with ⟨w, next⟩
    refine .bind (.setWorkspace w) fun _ => ?_
    cases next with
    | none => exact .pure _
    | some d => exact .bind (tends_scanDocument h scanner d) fun _ => ih

theorem tends_submit (scanner : Scanner) (d : Document) (force : Bool) : Tends (submit launch scanner d force) := by
  refine .bind .get fun s => .bind .get fun s' => ?_
  rcases s'.workspace.submit d force with ⟨w, submission⟩
  refine .bind (.setWorkspace w) fun _ => ?_
  cases submission with
  | settled o => exact .pure _
  | begun =>
    exact .bind (tends_scanDocument h scanner d) fun _ => .bind (tends_drain h scanner _) fun _ => .pure _

theorem tends_scanFile (path : String) (text : Option String) (force : Bool) (languageName : Option String) :
    Tends (scanFile launch path text force languageName) :=
  .bind tends_scanner fun _ => .bind .get fun _ => .bind (.ofExcept _ _) fun _ =>
    .bind (tends_documentText _ _) fun _ => tends_submit h _ _ _

theorem tends_scanWorkspace : Tends (scanWorkspace launch) := by
  refine .bind tends_scanner fun scanner => .bind (.modify fun _ => rfl) fun _ => .bind .get fun _ => ?_
  refine .bind (h.tends _) fun output => .bind .get fun s => ?_
  rcases s.workspace.completeFullScan scanner output with ⟨w, result⟩
  refine .bind (.setWorkspace w) fun _ => ?_
  cases result with
  | ok summary => exact .pure _
  | error fault => cases fault <;> exact .throw _

theorem tends_analyze (path : String) (text : Option String) (force scan : Bool) :
    Tends (analyze launch path text force scan) := by
  refine .bind .get fun s => .bind (.ofExcept _ _) fun key => .bind (tends_documentText _ _) fun content => ?_
  refine .bind .get fun s' => ?_
  rcases s'.workspace.check key content with ⟨w, report⟩
  refine .bind (.setWorkspace w) fun _ => ?_
  exact .ite (.bind (tends_scanFile h _ _ _ _) fun _ => .pure _) (.pure _)

theorem tends_changed (path : String) (force : Bool) : Tends (changed launch path force) := by
  intro s hs
  obtain ⟨reports, hchanged⟩ := exec_changed launch s path force
  have htended := tends_analyze h path none force true s hs
  rw [hchanged]
  generalize (exec (analyze launch path none force true) s).2 = behind at htended
  exact htended

end Scans

section Watching

/-- A step of one watcher tends all of them. -/
theorem Tended.modify {s : Session} (h : Tended s) {i : Nat} {f : Watcher → Watcher}
    (hf : ∀ w, s.watchers[i]? = some w → (f w).Reached) : Tended { s with watchers := s.watchers.modify i f } := by
  intro w hw
  obtain ⟨k, hk⟩ := List.mem_iff_getElem?.1 hw
  rw [List.getElem?_modify] at hk
  obtain ⟨v, hv, rfl⟩ := Option.map_eq_some_iff.1 hk
  by_cases hi : i = k
  · simpa [hi] using hf v (hi ▸ hv)
  · simpa [hi] using h v (List.mem_of_getElem? hv)

theorem Tended.modifyWatcher {s : Session} (h : Tended s) {f : Watcher → Watcher}
    (hf : ∀ w, w.Reached → (f w).Reached) : Tended (s.modifyWatcher f) :=
  h.modify fun w hw => hf w (h w (List.mem_of_getElem? hw))

theorem tends_addWatcher : Tends addWatcher := by
  refine .bind .get fun s => ?_
  cases hw : Watcher.ofSettings? s.workspace.settings with
  | none => exact .throw _
  | some w =>
    intro s hs v hv
    rcases List.mem_append.1 hv with hv | hv
    · exact hs v hv
    · rw [List.mem_singleton.1 hv]
      exact Watcher.reached_of_ofSettings? hw

theorem tends_tell (k : Nat) (call : ObserverCall) : Tends (tell k call) := .modify fun _ => rfl

theorem tends_observe (k : Nat) (directory : String) : Tends (observe k directory) := by
  refine .bind .get fun s => .bind (.ofExcept _ _) fun isDirectory => ?_
  exact .ite (tends_tell _ _) (.pure _)

theorem tends_startWatching : Tends startWatching := by
  refine .bind .get fun _ => .bind (.modify fun _ => rfl) fun _ => .bind tends_addWatcher fun _ => ?_
  refine .bind .get fun _ => .bind (.forM _ (tends_observe _)) fun _ => ?_
  exact .bind (tends_tell _ _) fun _ => .modify fun _ => rfl

theorem tends_receive (path : String) (isDirectory : Bool) (counts : Watcher → Bool) {take : Watcher → Bool → Watcher}
    (htake : ∀ w ignored, w.Reached → (take w ignored).Reached) : Tends (receive path isDirectory counts take) := by
  refine .bind .get fun s => ?_
  dsimp only
  refine .optional () tends_addWatcher fun _ => ?_
  intro s hs
  simp only [exec_bind, exec_get]
  split_ifs with hasked
  · rw [exec_bind, exec_ofExcept]
    cases s.workspace.isIgnored s.files path with
    | error e => exact hs
    | ok ignored => exact hs.modifyWatcher fun w => htake w ignored
  · exact hs.modifyWatcher fun w => htake w true

theorem tends_shutdown : Tends (modify shutdown : Act PUnit) := by
  intro s hs
  have hcancelled : Tended (s.modifyWatcher Watcher.cancelAll) := hs.modifyWatcher fun w hw => hw.take .cancelled
  rw [exec_modify]
  unfold shutdown
  dsimp only
  split
  · exact hcancelled
  · exact hcancelled

theorem exists_of_startedTimer? {watchers : List Watcher} {path : String} {i k : Nat}
    (h : startedTimer? watchers path = some (i, k)) :
    ∃ w, watchers[i]? = some w ∧ w.startedTimer? path = some k := by
  obtain ⟨⟨w, j⟩, hw, htimer⟩ := List.mem_filterMap.1 (List.mem_of_mem_head? h)
  obtain ⟨k', hk, heq⟩ := Option.map_eq_some_iff.1 htimer
  obtain ⟨rfl, rfl⟩ := Prod.mk.inj heq
  exact ⟨w, List.mk_mem_zipIdx_iff_getElem?.1 hw, hk⟩

theorem tends_fire {launch : Launcher} (h : TendsAtLaunch launch) (path : String) : Tends (fire launch path) := by
  intro s hs
  unfold fire
  simp only [exec_bind, exec_get]
  cases htimer : startedTimer? s.watchers path with
  | none => exact hs
  | some timer =>
    obtain ⟨i, k⟩ := timer
    simp only [exec_bind, exec_set, bind_pure_comp, exec_map]
    refine tends_changed h path _ _ (hs.modify fun w hw => ?_)
    obtain ⟨v, hv, hk⟩ := exists_of_startedTimer? htimer
    obtain rfl : v = w := Option.some.inj (hv.symm.trans hw)
    simpa [Watcher.take, hk] using (hs v (List.mem_of_getElem? hv)).take (.expired path)

end Watching

section Steps

variable {launch : Launcher} (h : TendsAtLaunch launch)

include h

theorem tends_checkAndScan (key : String) (force : Bool) : Tends (checkAndScan launch key force) := by
  unfold checkAndScan
  refine .bind (tends_documentText key none) fun content => ?_
  exact .bind (tends_analyze h _ _ _ _) fun _ => tends_scanFile h _ _ _ _

theorem tends_toolScan (path : String) (force : Bool) : Tends (toolScan launch path force) := by
  unfold toolScan
  refine .bind .get fun s => .bind (.ofExcept _ _) fun key => .bind (.ofExcept _ _) fun isFile => ?_
  refine .optional () (.throw _) fun _ => .optional () (.throw _) fun _ => ?_
  refine .bind (tends_checkAndScan h key force).attempt fun result => ?_
  cases result with
  | error f => exact .throw _
  | ok outcome => exact .bind .get fun _ => .optional () (.throw _) fun _ => .pure _

theorem tends_callTool (call : ToolCall) : Tends (callTool launch call) := by
  unfold callTool
  refine .bind .get fun s => ?_
  dsimp only
  cases call.fault? with
  | some e => exact .throw _
  | none =>
    cases call with
    | ping message => exact .pure _
    | principle p path content languageName => exact .bind (.ofExcept _ _) fun _ => .pure _
    | file path content principles =>
      exact .bind (.ofExcept _ _) fun _ => .bind (.setWorkspace _) fun _ => .pure _
    | scanFile path force => exact tends_toolScan h path force
    | scanWorkspace =>
      refine .bind (tends_scanWorkspace h).attempt fun result => ?_
      cases result with
      | ok summary => exact .bind .get fun _ => .pure _
      | error f => cases f <;> exact .throw _
    | diagnostics path => exact .bind (.ofExcept _ _) fun _ => .pure _
    | clear => exact .bind (.setWorkspace _) fun _ => .pure _

theorem tends_perform (step : Step) : Tends (perform launch step) := by
  cases step with
  | write path content => exact .bind (.modify fun _ => rfl) fun _ => .pure _
  | delete path => exact .bind (.modify fun _ => rfl) fun _ => .pure _
  | analyze path text force scan => exact .map (tends_analyze h path text force scan) _
  | scanFile path text force languageName => exact .map (tends_scanFile h path text force languageName) _
  | scanWorkspace => exact .map (tends_scanWorkspace h) _
  | diagnostics path => exact .bind .get fun _ => .map (.ofExcept _ _) _
  | key path => exact .bind .get fun _ => .map (.ofExcept _ _) _
  | isIgnored path => exact .bind .get fun _ => .bind .get fun _ => .map (.ofExcept _ _) _
  | changed path force => exact .bind (tends_changed h path force) fun _ => .pure _
  | setChecks fields => exact .bind (.ofExcept _ _) fun _ => .bind (.modify fun _ => rfl) fun _ => .pure _
  | clear => exact .bind (.modify fun _ => rfl) fun _ => .pure _
  | watch => exact .bind tends_startWatching fun _ => .pure _
  | shutdown => exact .bind tends_shutdown fun _ => .pure _
  | modified path isDirectory =>
    exact .bind (tends_receive _ _ _ fun w ignored hw => hw.take (.modified path isDirectory ignored)) fun _ => .pure _
  | created path isDirectory =>
    exact .bind (tends_receive _ _ _ fun w ignored hw => hw.take (.created path isDirectory ignored)) fun _ => .pure _
  | fire path => exact .map (tends_fire h path) _
  | tool call => exact .map (tends_callTool h call) _

end Steps

theorem tended_foldl_after {n : Nat} (h : TendsAtLaunch (launcher n)) {s : Session} (hs : Tended s)
    (steps : List Step) : Tended (steps.foldl (after n) s) := by
  induction steps generalizing s with
  | nil => exact hs
  | cons step steps ih => exact ih (tends_perform h step s hs)

theorem tendsAtLaunch_launcher (n : Nat) : TendsAtLaunch (launcher n) := by
  induction n with
  | zero => exact fun _ _ hs => hs
  | succ n ih =>
    intro command s hs
    cases hreplies : s.replies with
    | nil =>
      simp [launcher, note, hreplies]
      exact hs
    | cons reply replies =>
      cases hduring : reply.during with
      | none =>
        simp [launcher, note, hreplies, hduring]
        exact hs
      | some steps =>
        -- what takes place before the scanner ends are steps like any others
        have hbegun : Tended { s with
            launches := s.launches ++ [.mk command s.workspace.root.toString none], replies } := hs
        have hsteps := tended_foldl_after ih hbegun steps
        rw [← answers_run] at hsteps
        simp [launcher, note, hreplies, hduring]
        exact hsteps

/-- The watchers of a session that starts without any are tended along every run. -/
theorem tended_run {s : Session} (h : s.watchers = []) (steps : List Step) : Tended (run s steps).2 := by
  rw [run_eq_foldl]
  refine tended_foldl_after (tendsAtLaunch_launcher _) (fun w hw => ?_) steps
  rw [h] at hw
  cases hw

end DesignLint.Session

namespace DesignLint.Watcher

theorem exists_runs_iff (w : Watcher) (path : String) : (∃ k, Runs w.timers path k) ↔ w.firing? path ≠ none := by
  constructor
  · rintro ⟨k, hk⟩
    obtain ⟨i, hi⟩ := Option.ne_none_iff_exists'.1 (startedTimer?_ne_none hk)
    obtain ⟨t, ht, -⟩ := runs_of_startedTimer? hi
    simp [firing?, hi, ht]
  · intro hfiring
    obtain ⟨force, hforce⟩ := Option.ne_none_iff_exists'.1 hfiring
    obtain ⟨k, hk, -⟩ := Option.bind_eq_some_iff.1 hforce
    exact ⟨k, runs_of_startedTimer? hk⟩

/-- Along every run of a watcher the timers that run are those it keeps, each under its own path, and a path has one
exactly as long as a burst of its events goes on. A burst that is not cancelled leads to one call for its path. An event
that does not count changes nothing. When all timers are cancelled none runs, and none of them fires later on. In a
session a call is handed on to the check of the file, events come with the answer whether their file is left out, and
every watcher has such a run behind it. -/
theorem live_timers_are_kept (s : Settings) (delay : Float) (steps : List Step) :
    let w := ofDelay s delay
    let v := w.run steps
    (∀ path k, (path, k) ∈ v.running ↔ Runs v.timers path k) ∧
    (∀ path k k', Runs v.timers path k → Runs v.timers path k' → k = k') ∧
    (∀ path, (∃ k, Runs v.timers path k) ↔ w.waiting path steps ≠ []) ∧
    (∀ path, ((w.calls steps).filter (·.1 == path)).map (·.2) =
      ((bursts (w.event? path) path [] steps).filter Burst.fired).map Burst.last) ∧
    (∀ path isDirectory ignored,
      (v.take (.modified path isDirectory ignored) = v ↔
        isDirectory = true ∨ Text.lower (Path.ofString path).suffix ∉ Language.suffixesOf s.languages ∨
          ignored = true ∨ s.scanOnSave = false ∧ s.scanOnChange = false) ∧
      (v.take (.created path isDirectory ignored) = v ↔
        isDirectory = true ∨ Text.lower (Path.ofString path).suffix ∉ Language.suffixesOf s.languages ∨
          ignored = true ∨ s.scanOnOpen = false)) ∧
    (∀ path k, ¬ Runs v.cancelAll.timers path k) ∧
    (∀ (k : Nat) (t : Timer) (more : List Step), v.timers[k]? = some t → t.state = .started →
      (v.cancelAll.run more).timers[k]? = some { t with state := .cancelled }) ∧
    (∀ (launch : Session.Launcher) (session : Session), session.watchers = [v] →
      (∀ path force, v.call? (.expired path) = some (path, force) →
        Session.exec (Session.fire launch path) session =
          Session.exec (do Session.changed launch path force; pure true)
            { session with watchers := [v.take (.expired path)] }) ∧
      (∀ path, v.call? (.expired path) = none →
        Session.exec (Session.fire launch path) session = (.ok false, session)) ∧
      ∀ path isDirectory ignored, session.workspace.isIgnored session.files path = .ok ignored →
        Session.exec (Session.perform launch (.modified path isDirectory)) session =
          (.ok .done, { session with watchers := [v.take (.modified path isDirectory ignored)] }) ∧
        Session.exec (Session.perform launch (.created path isDirectory)) session =
          (.ok .done, { session with watchers := [v.take (.created path isDirectory ignored)] })) ∧
    (∀ session sessionSteps, session.watchers = [] →
      ∀ u ∈ (Session.run session sessionSteps).2.watchers, Reached u) := by
  intro w v
  have htidy : Tidy v := (tidy_ofDelay s delay).run steps
  have hwaiting := (consistent_ofDelay s delay).firing?_run (firing?_ofDelay s delay) steps
  have hfields : v = { w with timers := v.timers, running := v.running } := run_eq w steps
  have hsuffixes : v.suffixes = Language.suffixesOf s.languages := by rw [hfields]; rfl
  have hmodify : v.scanOnModify = (s.scanOnSave || s.scanOnChange) := by rw [hfields]; rfl
  have hcreate : v.scanOnCreate = s.scanOnOpen := by rw [hfields]; rfl
  refine ⟨htidy.mem_running_iff, fun _ _ _ => htidy.runs_unique, fun path => ?_, fun path => ?_,
    fun path isDirectory ignored => ⟨?_, ?_⟩, fun path k hruns => ?_, fun k t more hk ht => ?_,
    fun launch session hs => ⟨fun path _ => Session.exec_fire_of_some hs launch path,
      Session.exec_fire_of_none hs launch, fun path isDirectory ignored hignored =>
        ⟨Session.exec_perform_modified hs launch path hignored isDirectory,
          Session.exec_perform_created hs launch path hignored isDirectory⟩⟩,
    fun session sessionSteps hs => Session.tended_run hs sessionSteps⟩
  · rw [exists_runs_iff, hwaiting, Ne, List.getLast?_eq_none_iff]
  · exact (consistent_ofDelay s delay).flags_calls (firing?_ofDelay s delay path) steps
  · rw [take, modified, event_eq_self_iff, Bool.and_eq_false_iff, isRelevant_eq_false, hsuffixes, hmodify]
    simp only [Bool.or_eq_false_iff]
    tauto
  · rw [take, created, event_eq_self_iff, Bool.and_eq_false_iff, isRelevant_eq_false, hsuffixes, hcreate]
    tauto
  · exact List.not_mem_nil ((htidy.take .cancelled).mem_running_iff path k |>.2 hruns)
  · exact htidy.getElem?_cancelled hk ht more

/-- Two files are changed, one of them twice; its timer runs out, and the other one is cancelled. -/
theorem live_timers_are_kept_two_files :
    let w := ofDelay {} 1500.0
    let steps : List Step :=
      [.created "a.py" false false, .modified "b.py" false false, .modified "a.py" false false, .expired "a.py"]
    let v := w.run steps
    let session : Session :=
      { files := { cwd := .ofString "/w" }, workspace := .ofSettings (.ofString "/w") {}, watchers := [v] }
    v.running = [("b.py", 1)] ∧ Runs v.timers "b.py" 1 ∧ w.waiting "b.py" steps = [true] ∧
      ((w.calls steps).filter (·.1 == "a.py")).map (·.2) = [true] ∧
      (bursts (w.event? "a.py") "a.py" [] steps).map Burst.flags = [[false, true]] ∧
      v.take (.modified "b.txt" false false) = v ∧ v.take (.modified "b.py" false true) = v ∧
      (v.cancelAll.run [.expired "b.py"]).timers[1]?.map Timer.state = some .cancelled ∧
      Session.exec (Session.fire (Session.launcher 0) "a.py") session = (.ok false, session) ∧
      Session.exec (Session.perform (Session.launcher 0) (.modified "c.py" false)) session =
        (.ok .done, { session with watchers := [v.take (.modified "c.py" false false)] }) := by
  intro w steps v session
  obtain ⟨hkept, -, -, hcalls, hcounts, -, hcancelled, hsession, -⟩ := live_timers_are_kept {} 1500.0 steps
  have hrunning : v.running = [("b.py", 1)] := by decide +kernel
  have hruns : Runs v.timers "b.py" 1 := (hkept "b.py" 1).1 (hrunning ▸ List.mem_singleton_self _)
  obtain ⟨-, hnone, hevents⟩ := hsession (Session.launcher 0) session rfl
  have hother := (hcounts "b.txt" false false).1.2 (.inr (.inl (by decide +kernel)))
  have hignored := (hcounts "b.py" false true).1.2 (.inr (.inr (.inl rfl)))
  refine ⟨hrunning, hruns, by decide +kernel, (hcalls "a.py").trans (by decide +kernel), by decide +kernel, hother,
    hignored, ?_, hnone "a.py" (by decide +kernel), (hevents "c.py" false false (by decide +kernel)).1⟩
  obtain ⟨t, ht, -, hstate⟩ := hruns
  rw [hcancelled 1 t [.expired "b.py"] ht hstate]
  rfl

end DesignLint.Watcher
