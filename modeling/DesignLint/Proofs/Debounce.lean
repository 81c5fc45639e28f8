import DesignLint.Proofs.NamedEntries
import DesignLint.Proofs.SessionRuns
import DesignLint.Workspace.Watching

/-! Events that wait for a file to be left alone. Along every run of a watcher the timers that run are those it
keeps by path, one for each path that has events waiting; and the flag with which a timer fires is that of the last
of these events, whatever the others asked for. -/

namespace DesignLint.Watcher

inductive Step
  | modified (path : String) (isDirectory ignored : Bool)
  | created (path : String) (isDirectory ignored : Bool)
  /-- The timer of the path runs out and fires, with no event in between. -/
  | expired (path : String)
  /-- All timers are cancelled. -/
  | cancelled
  deriving Repr, DecidableEq

def take (w : Watcher) : Step → Watcher
  | .modified path isDirectory ignored => w.modified path isDirectory ignored
  | .created path isDirectory ignored => w.created path isDirectory ignored
  | .expired path =>
    match w.startedTimer? path with
    | some k => w.expire path k
    | none => w
  | .cancelled => w.cancelAll

def run (w : Watcher) (steps : List Step) : Watcher :=
  steps.foldl take w

theorem run_snoc (w : Watcher) (steps : List Step) (step : Step) :
    w.run (steps ++ [step]) = (w.run steps).take step := by
  rw [run, List.foldl_append]
  rfl

/-- The flag with which the timer of a path fires, if one runs. -/
def firing? (w : Watcher) (path : String) : Option Bool :=
  (w.startedTimer? path).bind fun k => w.timers[k]?.map Timer.force

section Timers

def Runs (timers : List Timer) (path : String) (k : Nat) : Prop :=
  ∃ t, timers[k]? = some t ∧ t.path = path ∧ t.state = .started

/-- The timers that run are those that are kept, each under its own path. -/
def Consistent (w : Watcher) : Prop :=
  ∀ path k, w.running.lookup path = some k ↔ Runs w.timers path k

variable {timers : List Timer} {path q : String} {k i : Nat}

theorem Runs.path_eq (h : Runs timers path k) (h' : Runs timers q k) : path = q := by
  obtain ⟨t, ht, rfl, -⟩ := h
  obtain ⟨t', ht', rfl, -⟩ := h'
  rw [Option.some.inj (ht.symm.trans ht')]

theorem getElem?_setState (timers : List Timer) (k i : Nat) (state : TimerState) :
    (setState timers k state)[i]? = timers[i]?.map fun t => if k = i then { t with state } else t := by
  rw [setState, List.getElem?_modify]
  rfl

theorem force_setState (timers : List Timer) (k i : Nat) (state : TimerState) :
    (setState timers k state)[i]?.map Timer.force = timers[i]?.map Timer.force := by
  rw [getElem?_setState, Option.map_map]
  congr 1
  funext t
  by_cases hk : k = i
  · simp [hk]
  · simp [hk]

/-- A timer that is stopped runs no longer, and the others run on. -/
theorem runs_setState {state : TimerState} (hstate : state ≠ .started) :
    Runs (setState timers k state) path i ↔ i ≠ k ∧ Runs timers path i := by
  unfold Runs
  rw [getElem?_setState]
  by_cases hk : k = i
  · subst hk
    simp [hstate]
  · simp [hk, Ne.symm hk]

theorem runs_append_singleton (t : Timer) :
    Runs (timers ++ [t]) path i ↔ Runs timers path i ∨ i = timers.length ∧ t.path = path ∧ t.state = .started := by
  unfold Runs
  rw [List.getElem?_append]
  split_ifs with hi
  · simp [hi.ne]
  · have hnone : timers[i]? = none := List.getElem?_eq_none (Nat.le_of_not_lt hi)
    rw [hnone, List.getElem?_singleton]
    by_cases hend : i = timers.length
    · simp [hend]
    · simp [hend, show i - timers.length ≠ 0 by omega]

theorem runs_foldl_cancelled (running : List (String × Nat)) :
    Runs (running.foldl (fun timers r => setState timers r.2 .cancelled) timers) path i ↔
      (∀ r ∈ running, i ≠ r.2) ∧ Runs timers path i := by
  induction running generalizing timers with
  | nil => simp
  | cons r running ih =>
    rw [List.foldl_cons, ih, runs_setState (by decide), List.forall_mem_cons]
    tauto

variable {w : Watcher}

theorem runs_of_startedTimer? (h : w.startedTimer? path = some k) : Runs w.timers path k := by
  obtain ⟨hk, hstarted, -⟩ := List.findIdx?_eq_some_iff_getElem.1 h
  simp only [Bool.and_eq_true, beq_iff_eq] at hstarted
  exact ⟨_, List.getElem?_eq_getElem hk, hstarted⟩

theorem startedTimer?_ne_none (h : Runs w.timers path k) : w.startedTimer? path ≠ none := by
  obtain ⟨t, ht, hpath, hstate⟩ := h
  intro hnone
  have hnot := List.findIdx?_eq_none_iff.1 hnone t (List.mem_of_getElem? ht)
  simp [hpath, hstate] at hnot

/-- A path has one timer that runs at most, and it is the one that is kept. -/
theorem Consistent.startedTimer?_eq (h : Consistent w) (path : String) :
    w.startedTimer? path = w.running.lookup path := by
  cases hstarted : w.startedTimer? path with
  | some k => exact ((h path k).2 (runs_of_startedTimer? hstarted)).symm
  | none =>
    cases hkept : w.running.lookup path with
    | none => rfl
    | some k => exact absurd hstarted (startedTimer?_ne_none ((h path k).1 hkept))

theorem Consistent.firing?_eq (h : Consistent w) (path : String) :
    w.firing? path = (w.running.lookup path).bind fun k => w.timers[k]?.map Timer.force := by
  rw [firing?, h.startedTimer?_eq]

end Timers

def timersWithout (w : Watcher) (path : String) : List Timer :=
  match w.running.lookup path with
  | some k => setState w.timers k .cancelled
  | none => w.timers

theorem schedule_eq (w : Watcher) (path : String) (force : Bool) : w.schedule path force =
    { w with
      timers := w.timersWithout path ++ [⟨path, w.delay, force, .started⟩]
      running := Assoc.erase w.running path ++ [(path, (w.timersWithout path).length)] } := rfl

theorem force_timersWithout (w : Watcher) (path : String) (i : Nat) :
    (w.timersWithout path)[i]?.map Timer.force = w.timers[i]?.map Timer.force := by
  unfold timersWithout
  cases w.running.lookup path with
  | some k => exact force_setState ..
  | none => rfl

theorem lookup_schedule (w : Watcher) (path : String) (force : Bool) (q : String) :
    (w.schedule path force).running.lookup q =
      if q = path then some (w.timersWithout path).length else w.running.lookup q := by
  rw [schedule_eq, List.lookup_append, Assoc.lookup_erase, Assoc.lookup_cons]
  split_ifs with hq
  · rfl
  · simp

section Changes

variable {w : Watcher} (h : Consistent w) {path q : String} {k i : Nat}

include h

/-- Timers that run have the same place if they have the same path. -/
theorem Consistent.ne_iff (hk : Runs w.timers path k) (hi : Runs w.timers q i) : i ≠ k ↔ q ≠ path := by
  refine not_congr ⟨?_, ?_⟩
  · rintro rfl
    exact hi.path_eq hk
  · rintro rfl
    exact Option.some.inj (((h q i).2 hi).symm.trans ((h q k).2 hk))

theorem Consistent.runs_timersWithout : Runs (w.timersWithout path) q i ↔ q ≠ path ∧ Runs w.timers q i := by
  unfold timersWithout
  cases hkept : w.running.lookup path with
  | some k =>
    rw [runs_setState (by decide)]
    exact and_congr_left fun hi => h.ne_iff ((h path k).1 hkept) hi
  | none =>
    refine ⟨fun hi => ⟨?_, hi⟩, And.right⟩
    rintro rfl
    rw [(h q i).2 hi] at hkept
    cases hkept

theorem Consistent.schedule (path : String) (force : Bool) : Consistent (w.schedule path force) := by
  intro q i
  rw [lookup_schedule, schedule_eq, runs_append_singleton, h.runs_timersWithout, ← h q i]
  split_ifs with hq
  · simp [hq, eq_comm]
  · simp [hq, Ne.symm hq]

theorem Consistent.expire (hk : Runs w.timers path k) : Consistent (w.expire path k) := by
  intro q i
  rw [Watcher.expire, runs_setState (by decide), Assoc.lookup_erase]
  split_ifs with hq
  · exact ⟨nofun, fun ⟨hne, hi⟩ => absurd hq ((h.ne_iff hk hi).1 hne)⟩
  · rw [h q i]
    exact ⟨fun hi => ⟨(h.ne_iff hk hi).2 hq, hi⟩, And.right⟩

/-- No timer runs when all have been cancelled. -/
theorem Consistent.cancelAll : Consistent w.cancelAll := by
  intro q i
  rw [Watcher.cancelAll, runs_foldl_cancelled]
  refine ⟨nofun, fun ⟨hnot, hi⟩ => ?_⟩
  obtain ⟨before, after, hrunning, -⟩ := List.lookup_eq_some_iff.1 ((h q i).2 hi)
  exact absurd rfl (hnot (q, i) (by simp [hrunning]))

theorem Consistent.event (counts : Bool) (path : String) (force : Bool) :
    Consistent (if counts = true then w.schedule path force else w) := by
  split_ifs with hcounts
  · exact h.schedule path force
  · exact h

theorem Consistent.take (step : Step) : Consistent (w.take step) := by
  cases step with
  | modified path isDirectory ignored => exact h.event _ path _
  | created path isDirectory ignored => exact h.event _ path _
  | expired path =>
    rw [Watcher.take]
    cases hstarted : w.startedTimer? path with
    | none => exact h
    | some k => exact h.expire (runs_of_startedTimer? hstarted)
  | cancelled => exact h.cancelAll

theorem Consistent.run (steps : List Step) : Consistent (w.run steps) := by
  induction steps using List.reverseRecOn with
  | nil => exact h
  | append_singleton steps step ih =>
    rw [run_snoc]
    exact ih.take step

end Changes

section Flags

variable {w : Watcher} (h : Consistent w) (path q : String)

include h

theorem Consistent.firing?_schedule (force : Bool) :
    (w.schedule path force).firing? q = if q = path then some force else w.firing? q := by
  rw [(h.schedule path force).firing?_eq, lookup_schedule, h.firing?_eq]
  split_ifs with hq
  · simp [schedule_eq]
  · cases hkept : w.running.lookup q with
    | none => rfl
    | some k =>
      -- the timer of another path stands before the new one
      obtain ⟨t, ht, -, -⟩ := (h q k).1 hkept
      have hforce := force_timersWithout w path k
      obtain ⟨t', ht', -⟩ := Option.map_eq_some_iff.1 (hforce.trans (congrArg _ ht))
      have hk : k < (w.timersWithout path).length := (List.getElem?_eq_some_iff.1 ht').1
      simp only [Option.bind_some, schedule_eq]
      rw [List.getElem?_append_left hk, hforce]

theorem Consistent.firing?_expire {k : Nat} (hk : Runs w.timers path k) :
    (w.expire path k).firing? q = if q = path then none else w.firing? q := by
  rw [(h.expire hk).firing?_eq, h.firing?_eq, Watcher.expire, Assoc.lookup_erase]
  split_ifs with hq
  · rfl
  · simp only [force_setState]

theorem Consistent.firing?_cancelAll : w.cancelAll.firing? q = none := by
  rw [h.cancelAll.firing?_eq]
  rfl

end Flags

section Waiting

/-- The flag that a step brings for a path, if it is a relevant event of it. -/
def event? (w : Watcher) (path : String) : Step → Option Bool
  | .modified q isDirectory ignored =>
    if q = path ∧ (w.scanOnModify && w.isRelevant q isDirectory ignored) = true then some w.forceOnModify else none
  | .created q isDirectory ignored =>
    if q = path ∧ (w.scanOnCreate && w.isRelevant q isDirectory ignored) = true then some false else none
  | _ => none

def Step.settles (path : String) : Step → Bool
  | .expired q => q == path
  | .cancelled => true
  | _ => false

/-- The flags of the relevant events of a path since its timer last ran out or all were cancelled. -/
def waiting (w : Watcher) (path : String) (steps : List Step) : List Bool :=
  (steps.reverse.takeWhile fun step => !step.settles path).reverse.filterMap (w.event? path)

theorem waiting_snoc (w : Watcher) (path : String) (steps : List Step) (step : Step) :
    w.waiting path (steps ++ [step]) =
      if step.settles path = true then [] else w.waiting path steps ++ (w.event? path step).toList := by
  unfold waiting
  rw [List.reverse_append, List.reverse_singleton, List.singleton_append, List.takeWhile_cons]
  cases step.settles path with
  | true => rfl
  | false =>
    cases hevent : w.event? path step with
    | none => simp [hevent]
    | some flag => simp [hevent]

theorem event?_event (w : Watcher) (counts : Bool) (path : String) (force : Bool) :
    (if counts = true then w.schedule path force else w).event? = w.event? := by
  split_ifs with hcounts
  · rfl
  · rfl

/-- Steps change the timers and nothing else. -/
theorem event?_take (w : Watcher) (step : Step) : (w.take step).event? = w.event? := by
  cases step with
  | modified path isDirectory ignored => exact event?_event w _ path _
  | created path isDirectory ignored => exact event?_event w _ path _
  | expired path =>
    rw [take]
    cases w.startedTimer? path with
    | none => rfl
    | some k => rfl
  | cancelled => rfl

theorem event?_run (w : Watcher) (steps : List Step) : (w.run steps).event? = w.event? := by
  induction steps using List.reverseRecOn with
  | nil => rfl
  | append_singleton steps step ih => rw [run_snoc, event?_take, ih]

variable {w : Watcher} (h : Consistent w)

include h

/-- An event that counts gives its flag to the timer of its path, whatever the flag was before. -/
theorem Consistent.firing?_event (counts : Bool) (q : String) (force : Bool) (path : String) :
    (if counts = true then w.schedule q force else w).firing? path =
      (if q = path ∧ counts = true then some force else none).or (w.firing? path) := by
  cases counts with
  | false => simp
  | true =>
    rw [if_pos rfl, h.firing?_schedule]
    by_cases hq : path = q
    · simp [hq]
    · simp [hq, Ne.symm hq]

theorem Consistent.firing?_take (step : Step) (path : String) : (w.take step).firing? path =
    if step.settles path = true then none else (w.event? path step).or (w.firing? path) := by
  cases step with
  | modified q isDirectory ignored => exact h.firing?_event _ q _ path
  | created q isDirectory ignored => exact h.firing?_event _ q _ path
  | expired q =>
    simp only [Watcher.take, Step.settles, event?, beq_iff_eq, Option.none_or]
    cases hstarted : w.startedTimer? q with
    | some k =>
      rw [h.firing?_expire _ _ (runs_of_startedTimer? hstarted)]
      simp only [eq_comm]
    | none =>
      split_ifs with hq
      · rw [← hq, firing?, hstarted]
        rfl
      · rfl
  | cancelled => exact h.firing?_cancelAll path

/-- The flag with which a timer fires is that of the last event that waits. -/
theorem Consistent.firing?_run (hnone : ∀ path, w.firing? path = none) (steps : List Step) (path : String) :
    (w.run steps).firing? path = (w.waiting path steps).getLast? := by
  induction steps using List.reverseRecOn with
  | nil => exact hnone path
  | append_singleton steps step ih =>
    rw [run_snoc, (h.run steps).firing?_take, event?_run, ih, waiting_snoc]
    split_ifs with hsettles
    · rfl
    · cases w.event? path step with
      | none => simp
      | some flag => simp

end Waiting

section Settings

variable (s : Settings) (delay : Float)

theorem consistent_ofDelay : Consistent (ofDelay s delay) := by
  intro path k
  refine ⟨nofun, ?_⟩
  rintro ⟨t, ht, -, -⟩
  cases ht

theorem firing?_ofDelay (path : String) : (ofDelay s delay).firing? path = none := rfl

/-- A flag comes from a modification, or from a creation that counts and asks for nothing. -/
theorem event?_eq_some {w : Watcher} {path : String} {step : Step} {flag : Bool} (h : w.event? path step = some flag) :
    flag = w.forceOnModify ∧ w.isSource path false = true ∨ flag = false ∧ w.scanOnCreate = true := by
  cases step with
  | modified q isDirectory ignored =>
    simp only [event?, Option.ite_none_right_eq_some, Bool.and_eq_true, isRelevant, isSource, Bool.not_eq_true'] at h
    obtain ⟨⟨rfl, -, ⟨-, hsuffix⟩, -⟩, hflag⟩ := h
    exact .inl ⟨(Option.some.inj hflag).symm, by rw [isSource, hsuffix]; rfl⟩
  | created q isDirectory ignored =>
    simp only [event?, Option.ite_none_right_eq_some, Bool.and_eq_true] at h
    exact .inr ⟨(Option.some.inj h.2).symm, h.1.2.1⟩
  | _ => cases h

theorem exists_event_of_mem {w : Watcher} {path : String} {steps : List Step} {flag : Bool}
    (h : flag ∈ w.waiting path steps) : ∃ step, w.event? path step = some flag := by
  obtain ⟨step, -, hstep⟩ := List.mem_filterMap.1 h
  exact ⟨step, hstep⟩

theorem waiting_both {path : String} (hsave : s.scanOnSave = true) (hopen : s.scanOnOpen = true)
    (hsource : (ofDelay s delay).isSource path false = true) :
    (ofDelay s delay).waiting path [.modified path false false, .created path false false] = [true, false] := by
  have hmodify : (ofDelay s delay).scanOnModify = true := by simp [ofDelay, hsave]
  have hforce : (ofDelay s delay).forceOnModify = true := hsave
  have hcreate : (ofDelay s delay).scanOnCreate = true := hopen
  have hmodified : (ofDelay s delay).event? path (.modified path false false) = some true := by
    simp [event?, isRelevant, hsource, hmodify, hforce]
  have hcreated : (ofDelay s delay).event? path (.created path false false) = some false := by
    simp [event?, isRelevant, hsource, hcreate]
  simp [waiting, Step.settles, hmodified, hcreated]

/-- A forced event is forgotten only if another event of the path comes without force. -/
theorem getLast?_waiting {path : String} {steps : List Step}
    (hnot : ¬ (s.scanOnSave = true ∧ s.scanOnOpen = true ∧ ∃ path, (ofDelay s delay).isSource path false = true))
    (h : true ∈ (ofDelay s delay).waiting path steps) :
    ((ofDelay s delay).waiting path steps).getLast? = some true := by
  have hall : ∀ flag ∈ (ofDelay s delay).waiting path steps, flag = true := by
    obtain ⟨forced, hforced⟩ := exists_event_of_mem h
    rcases event?_eq_some hforced with ⟨hsave, hsource⟩ | ⟨hfalse, -⟩
    · intro flag hflag
      obtain ⟨step, hstep⟩ := exists_event_of_mem hflag
      rcases event?_eq_some hstep with ⟨rfl, -⟩ | ⟨-, hopen⟩
      · exact hsave.symm
      · exact absurd ⟨hsave.symm, hopen, path, hsource⟩ hnot
    · cases hfalse
  rw [List.getLast?_eq_some_getLast (List.ne_nil_of_mem h), hall _ (List.getLast_mem _)]

end Settings

end DesignLint.Watcher

namespace DesignLint.Session

theorem startedTimer?_eq {before after : List Watcher} {w : Watcher} {path : String}
    (hbefore : ∀ v ∈ before, v.startedTimer? path = none) {k : Nat} (hk : w.startedTimer? path = some k) :
    startedTimer? (before ++ w :: after) path = some (before.length, k) := by
  have hnone (e : Watcher × Nat) (he : e ∈ before.zipIdx) : e.1.startedTimer? path = none :=
    hbefore e.1 (List.fst_mem_of_mem_zipIdx he)
  rw [startedTimer?, List.zipIdx_append, List.filterMap_append, List.filterMap_eq_nil_iff.2 fun e he => ?_]
  · simp [List.zipIdx_cons, hk]
  · simp only [hnone e he, Option.map_none]

/-- The flag of the timer that fires is handed on to the check of the file. -/
theorem exec_fire (launch : Launcher) {s : Session} {before after : List Watcher} {w : Watcher} {path : String}
    {force : Bool} (hs : s.watchers = before ++ w :: after) (hbefore : ∀ v ∈ before, v.startedTimer? path = none)
    (hforce : w.firing? path = some force) :
    exec (fire launch path) s = exec (do changed launch path force; pure true)
      { s with watchers := before ++ w.take (.expired path) :: after } := by
  obtain ⟨k, hk, hflag⟩ := Option.bind_eq_some_iff.1 hforce
  have hexpired : (before ++ w :: after).modify before.length (fun w => w.expire path k) =
      before ++ w.take (.expired path) :: after := by
    simp [List.modify_eq_take_drop, Watcher.take, hk]
  have hpassed : (((before ++ w :: after)[before.length]?.bind fun w => w.timers[k]?).map Timer.force).getD false =
      force := by
    simp [hflag]
  unfold fire
  simp only [exec_bind, exec_get, exec_set, hs, startedTimer?_eq hbefore hk, hexpired, hpassed]

end DesignLint.Session

namespace DesignLint.Watcher

/-- A timer fires with the flag of the last event that waits for it, and this flag goes to the check of the file. So
a forced event among those that wait is always honoured unless the settings ask for scans both of saved files, with
force, and of opened ones, without. -/
theorem fires_with_last_flag (s : Settings) (delay : Float) :
    let w := ofDelay s delay
    (∀ (steps : List Step) (path : String), (w.run steps).firing? path = (w.waiting path steps).getLast?) ∧
    (∀ (launch : Session.Launcher) (session : Session) (before after : List Watcher) (steps : List Step)
      (path : String) (force : Bool), session.watchers = before ++ w.run steps :: after →
      (∀ v ∈ before, v.startedTimer? path = none) → (w.run steps).firing? path = some force →
      Session.exec (Session.fire launch path) session =
        Session.exec (do Session.changed launch path force; pure true)
          { session with watchers := before ++ (w.run steps).take (.expired path) :: after }) ∧
    ((∀ (steps : List Step) (path : String), true ∈ w.waiting path steps →
        (w.run steps).firing? path = some true) ↔
      ¬ (s.scanOnSave = true ∧ s.scanOnOpen = true ∧ ∃ path, w.isSource path false = true)) := by
  intro w
  have hfires := (consistent_ofDelay s delay).firing?_run (firing?_ofDelay s delay)
  refine ⟨hfires, fun launch _ _ _ _ _ _ => Session.exec_fire launch, fun hkept => ?_, fun hnot steps path h => ?_⟩
  · rintro ⟨hsave, hopen, path, hsource⟩
    have hwaiting := waiting_both s delay hsave hopen hsource
    have hforced := hkept [.modified path false false, .created path false false] path (by simp [w, hwaiting])
    rw [hfires, hwaiting] at hforced
    exact absurd hforced (by decide)
  · rw [hfires, getLast?_waiting s delay hnot h]

/-- A file that is saved after it was opened. -/
theorem fires_with_last_flag_saved :
    let w := ofDelay {} 1500.0
    let steps : List Step := [.created "a.py" false false, .modified "a.py" false false]
    let session : Session :=
      { files := { cwd := .ofString "/w" }, workspace := .ofSettings (.ofString "/w") {}, watchers := [w.run steps] }
    w.waiting "a.py" steps = [false, true] ∧ (w.run steps).firing? "a.py" = some true ∧
      Session.exec (Session.fire (Session.launcher 0) "a.py") session =
        Session.exec (do Session.changed (Session.launcher 0) "a.py" true; pure true)
          { session with watchers := [(w.run steps).take (.expired "a.py")] } := by
  intro w steps session
  obtain ⟨hfires, hpassed, -⟩ := fires_with_last_flag {} 1500.0
  have hwaiting : w.waiting "a.py" steps = [false, true] := by decide +kernel
  have hfiring : (w.run steps).firing? "a.py" = some true := (hfires steps "a.py").trans (by rw [hwaiting]; rfl)
  exact ⟨hwaiting, hfiring, hpassed _ session [] [] steps "a.py" true rfl (fun _ => nofun) hfiring⟩

/-- A file that is opened after it was saved: the force of the first event is forgotten. -/
theorem forced_event_forgotten :
    let w := ofDelay {} 1500.0
    let steps : List Step := [.modified "a.py" false false, .created "a.py" false false]
    w.waiting "a.py" steps = [true, false] ∧ (w.run steps).firing? "a.py" = some false := by
  decide +kernel

end DesignLint.Watcher
