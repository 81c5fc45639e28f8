import DesignLint.Proofs.Debounce

/-! Bursts of events. The events of a path that come before its timer runs out or is cancelled are one burst. A path
has a timer of its own as long as a burst of it goes on, and no other, so a burst that is not cancelled leads to
exactly one call, whatever happens to other paths meanwhile. -/

namespace DesignLint.Watcher

structure Tidy (w : Watcher) : Prop where
  consistent : Consistent w
  nodup : (w.running.map (·.1)).Nodup

section Tidy

variable {w : Watcher} (h : Tidy w)

include h

theorem Tidy.mem_running_iff (path : String) (k : Nat) : (path, k) ∈ w.running ↔ Runs w.timers path k := by
  rw [← h.consistent path k]
  refine ⟨fun hmem => Assoc.lookup_of_mem h.nodup hmem, fun hkept => ?_⟩
  obtain ⟨before, after, hrunning, -⟩ := List.lookup_eq_some_iff.1 hkept
  simp [hrunning]

theorem Tidy.runs_unique {path : String} {k k' : Nat} (hk : Runs w.timers path k) (hk' : Runs w.timers path k') :
    k = k' :=
  Option.some.inj (((h.consistent path k).2 hk).symm.trans ((h.consistent path k').2 hk'))

theorem Tidy.schedule (path : String) (force : Bool) : Tidy (w.schedule path force) := by
  have hrest : ((Assoc.erase w.running path).map (·.1)).Nodup := h.nodup.sublist (List.filter_sublist.map _)
  refine ⟨h.consistent.schedule path force, ?_⟩
  rw [schedule_eq, List.map_append, List.map_singleton, List.nodup_append]
  refine ⟨hrest, List.nodup_singleton _, fun name hname other hother => ?_⟩
  obtain rfl := List.mem_singleton.1 hother
  obtain ⟨e, he, rfl⟩ := List.mem_map.1 hname
  simpa using (List.mem_filter.1 he).2

theorem Tidy.event (counts : Bool) (path : String) (force : Bool) :
    Tidy (if counts = true then w.schedule path force else w) := by
  split_ifs with hcounts
  · exact h.schedule path force
  · exact h

theorem Tidy.take (step : Step) : Tidy (w.take step) := by
  cases step with
  | modified path isDirectory ignored => exact h.event _ path _
  | created path isDirectory ignored => exact h.event _ path _
  | expired path =>
    refine ⟨h.consistent.take _, ?_⟩
    rw [Watcher.take]
    cases w.startedTimer? path with
    | none => exact h.nodup
    | some k => exact h.nodup.sublist (List.filter_sublist.map _)
  | cancelled => exact ⟨h.consistent.cancelAll, List.nodup_nil⟩

theorem Tidy.run (steps : List Step) : Tidy (w.run steps) := by
  induction steps using List.reverseRecOn with
  | nil => exact h
  | append_singleton steps step ih =>
    rw [run_snoc]
    exact ih.take step

end Tidy

theorem tidy_ofDelay (s : Settings) (delay : Float) : Tidy (ofDelay s delay) :=
  ⟨consistent_ofDelay s delay, List.nodup_nil⟩

section Calls

/-- The call that a step leads to: the file that was left alone, and whether its scan is forced. -/
def call? (w : Watcher) : Step → Option (String × Bool)
  | .expired path => (w.firing? path).map fun force => (path, force)
  | _ => none

def calls (w : Watcher) : List Step → List (String × Bool)
  | [] => []
  | step :: steps => (w.call? step).toList ++ (w.take step).calls steps

/-- Events of a path that was not left alone between them, by their flags. -/
structure Burst where
  flags : List Bool
  nonempty : flags ≠ []
  /-- Did the timer run out, rather than being cancelled? -/
  fired : Bool

def Burst.last (b : Burst) : Bool :=
  b.flags.getLast b.nonempty

def burst? (waiting : List Bool) (fired : Bool) : Option Burst :=
  if h : waiting = [] then none else some ⟨waiting, h, fired⟩

/-- The bursts of a path that end during steps, if events with the flags `waiting` have come before. Which steps are
events of the path is told by `event?`. -/
def bursts (event? : Step → Option Bool) (path : String) (waiting : List Bool) : List Step → List Burst
  | [] => []
  | step :: steps =>
    if step.settles path then
      (burst? waiting (step == .expired path)).toList ++ bursts event? path [] steps
    else bursts event? path (waiting ++ (event? step).toList) steps

theorem filter_fired_burst? (waiting : List Bool) (fired : Bool) :
    ((burst? waiting fired).toList.filter Burst.fired).map Burst.last =
      if fired = true then waiting.getLast?.toList else [] := by
  unfold burst?
  split_ifs with hnil hfired hfired
  · simp [hnil]
  · rfl
  · simp [hfired, Burst.last, List.getLast?_eq_some_getLast hnil]
  · simp [hfired]

/-- The flag of a call is that with which the timer of its path fires. -/
theorem filter_call? (w : Watcher) (step : Step) (path : String) :
    ((w.call? step).toList.filter (·.1 == path)).map (·.2) =
      if step = .expired path then (w.firing? path).toList else [] := by
  cases step with
  | expired q =>
    by_cases hq : q = path
    · subst hq
      cases hfiring : w.firing? q with
      | none => simp [call?, hfiring]
      | some force => simp [call?, hfiring]
    · cases hfiring : w.firing? q with
      | none => simp [call?, hfiring, hq]
      | some force => simp [call?, hfiring, hq]
  | _ => rfl

/-- A burst leads to one call, unless it is cancelled. -/
theorem Consistent.flags_calls {w : Watcher} (h : Consistent w) {path : String} {waiting : List Bool}
    (hwaiting : w.firing? path = waiting.getLast?) (steps : List Step) :
    ((w.calls steps).filter (·.1 == path)).map (·.2) =
      ((bursts (w.event? path) path waiting steps).filter Burst.fired).map Burst.last := by
  induction steps generalizing w waiting with
  | nil => rfl
  | cons step steps ih =>
    have hnext := h.firing?_take step path
    have hrest (waiting' : List Bool) (hfiring : (w.take step).firing? path = waiting'.getLast?) :=
      ih (h.take step) hfiring
    rw [event?_take] at hrest
    rw [calls, List.filter_append, List.map_append, filter_call?, hwaiting, bursts]
    split_ifs at hnext ⊢ with hexpired hsettles hsettles
    · rw [List.filter_append, List.map_append, filter_fired_burst?, if_pos (by simp [hexpired]),
        hrest [] hnext]
    · rw [hexpired] at hsettles
      exact absurd (beq_self_eq_true path) hsettles
    · rw [List.filter_append, List.map_append, filter_fired_burst?, if_neg (by simpa using hexpired),
        hrest [] hnext]
    · rw [hrest (waiting ++ (w.event? path step).toList)]
      · rfl
      · rw [hnext, hwaiting]
        cases w.event? path step with
        | none => simp
        | some flag => simp

end Calls

section Stopped

variable {w : Watcher}

theorem getElem?_foldl_cancelled (running : List (String × Nat)) (timers : List Timer) (i : Nat) :
    (running.foldl (fun timers r => setState timers r.2 .cancelled) timers)[i]? =
      timers[i]?.map fun t => if i ∈ running.map (·.2) then { t with state := .cancelled } else t := by
  induction running generalizing timers with
  | nil => simp
  | cons r running ih =>
    rw [List.foldl_cons, ih, getElem?_setState, Option.map_map, List.map_cons]
    congr 1
    funext t
    by_cases hr : r.2 = i
    · simp [hr]
    · simp only [Function.comp_apply, if_neg hr, List.mem_cons, Ne.symm hr, false_or]

theorem ne_of_runs {path : String} {k i : Nat} {t : Timer} (hi : w.timers[i]? = some t) (ht : t.state ≠ .started)
    (hk : Runs w.timers path k) : k ≠ i := by
  rintro rfl
  obtain ⟨u, hu, -, hstate⟩ := hk
  rw [Option.some.inj (hi.symm.trans hu)] at ht
  exact ht hstate

theorem getElem?_setState_of_ne {timers : List Timer} {k i : Nat} {t : Timer} (hi : timers[i]? = some t) (hk : k ≠ i)
    (state : TimerState) : (setState timers k state)[i]? = some t := by
  rw [getElem?_setState, hi, Option.map_some, if_neg hk]

theorem Consistent.getElem?_schedule (h : Consistent w) {i : Nat} {t : Timer} (hi : w.timers[i]? = some t)
    (ht : t.state ≠ .started) (path : String) (force : Bool) : (w.schedule path force).timers[i]? = some t := by
  have hwithout : (w.timersWithout path)[i]? = some t := by
    unfold timersWithout
    cases hkept : w.running.lookup path with
    | none => exact hi
    | some k => exact getElem?_setState_of_ne hi (ne_of_runs hi ht ((h path k).1 hkept)) _
  rw [schedule_eq, List.getElem?_append_left (List.getElem?_eq_some_iff.1 hwithout).1, hwithout]

/-- A timer that runs no longer is left as it is. -/
theorem Tidy.getElem?_take (h : Tidy w) {i : Nat} {t : Timer} (hi : w.timers[i]? = some t) (ht : t.state ≠ .started)
    (step : Step) : (w.take step).timers[i]? = some t := by
  have hevent (counts : Bool) (path : String) (force : Bool) :
      (if counts = true then w.schedule path force else w).timers[i]? = some t := by
    split_ifs with hcounts
    · exact h.consistent.getElem?_schedule hi ht path force
    · exact hi
  cases step with
  | modified path isDirectory ignored => exact hevent _ path _
  | created path isDirectory ignored => exact hevent _ path _
  | expired path =>
    rw [Watcher.take]
    cases hstarted : w.startedTimer? path with
    | none => exact hi
    | some k => exact getElem?_setState_of_ne hi (ne_of_runs hi ht (runs_of_startedTimer? hstarted)) _
  | cancelled =>
    have hnot : i ∉ w.running.map (·.2) := by
      intro hmem
      obtain ⟨⟨path, k⟩, hr, rfl⟩ := List.mem_map.1 hmem
      exact ne_of_runs hi ht ((h.mem_running_iff path k).1 hr) rfl
    rw [Watcher.take, cancelAll, getElem?_foldl_cancelled, hi, Option.map_some, if_neg hnot]

theorem Tidy.getElem?_run (h : Tidy w) {i : Nat} {t : Timer} (hi : w.timers[i]? = some t) (ht : t.state ≠ .started)
    (steps : List Step) : (w.run steps).timers[i]? = some t := by
  induction steps using List.reverseRecOn with
  | nil => exact hi
  | append_singleton steps step ih =>
    rw [run_snoc]
    exact (h.run steps).getElem?_take ih ht step

/-- A timer that is cancelled with all others never fires. -/
theorem Tidy.getElem?_cancelled (h : Tidy w) {i : Nat} {t : Timer} (hi : w.timers[i]? = some t)
    (ht : t.state = .started) (steps : List Step) :
    (w.cancelAll.run steps).timers[i]? = some { t with state := .cancelled } := by
  have hkept : i ∈ w.running.map (·.2) :=
    List.mem_map.2 ⟨(t.path, i), (h.mem_running_iff t.path i).2 ⟨t, hi, rfl, ht⟩, rfl⟩
  have hcancelled : w.cancelAll.timers[i]? = some { t with state := .cancelled } := by
    rw [cancelAll, getElem?_foldl_cancelled, hi, Option.map_some, if_pos hkept]
  exact (h.take .cancelled).getElem?_run hcancelled (show TimerState.cancelled ≠ .started by decide) steps

end Stopped

section Irrelevant

theorem schedule_ne (w : Watcher) (path : String) (force : Bool) : w.schedule path force ≠ w := by
  intro heq
  have hwithout : (w.timersWithout path).length = w.timers.length := by
    unfold timersWithout
    cases w.running.lookup path with
    | some k => exact List.length_modify ..
    | none => rfl
  have hlength := congrArg (fun w => w.timers.length) heq
  simp [schedule_eq, hwithout] at hlength

theorem event_eq_self_iff (w : Watcher) (counts : Bool) (path : String) (force : Bool) :
    (if counts = true then w.schedule path force else w) = w ↔ counts = false := by
  cases counts with
  | true => simpa using schedule_ne w path force
  | false => simp

/-- An event concerns no source file that is looked after. -/
theorem isRelevant_eq_false (w : Watcher) (path : String) (isDirectory ignored : Bool) :
    w.isRelevant path isDirectory ignored = false ↔
      isDirectory = true ∨ Text.lower (Path.ofString path).suffix ∉ w.suffixes ∨ ignored = true := by
  cases isDirectory with
  | true => simp [isRelevant, isSource]
  | false => cases ignored <;> simp [isRelevant, isSource]

/-- Steps change the timers and nothing else. -/
theorem take_eq (w : Watcher) (step : Step) :
    w.take step = { w with timers := (w.take step).timers, running := (w.take step).running } := by
  have hevent (counts : Bool) (path : String) (force : Bool) :
      (if counts = true then w.schedule path force else w) =
        { w with
          timers := (if counts = true then w.schedule path force else w).timers
          running := (if counts = true then w.schedule path force else w).running } := by
    split_ifs with hcounts
    · rfl
    · rfl
  cases step with
  | modified path isDirectory ignored => exact hevent _ path _
  | created path isDirectory ignored => exact hevent _ path _
  | expired path =>
    rw [take]
    cases w.startedTimer? path with
    | none => rfl
    | some k => rfl
  | cancelled => rfl

theorem run_eq (w : Watcher) (steps : List Step) :
    w.run steps = { w with timers := (w.run steps).timers, running := (w.run steps).running } := by
  induction steps using List.reverseRecOn with
  | nil => rfl
  | append_singleton steps step ih =>
    rw [run_snoc, take_eq, ih]

end Irrelevant

end DesignLint.Watcher
