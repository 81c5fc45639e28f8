import DesignLint.Scan.Run
import Mathlib.Tactic

/-! Runs of the scheduler, act by act. The results of a run tell which acts took place; replaying
them one after the other, each fits the state it is done in, and they lead to the state in which the
run ends. So an invariant of the acts holds all through a run, also while scans are in flight. -/

namespace DesignLint.Schedule

/-- What the scheduler does in one go, with nothing else in between. -/
inductive Act
  /-- A request is answered at once. -/
  | answer (r : Request) (reply : Reply)
  /-- The scan of a submitted document begins. -/
  | begin (d : Document)
  /-- The first document of the queue is taken off it, and either its scan begins or it is dropped. -/
  | pop (d : Document) (scanned : Bool)
  /-- The scan in flight ends. -/
  | finish (d : Document) (e : Ending)
  deriving Repr, DecidableEq

def Act.after (s : Scheduler) : Act → Scheduler
  | .answer r _ => (serve s r).1
  | .begin _ => s.start
  | .pop _ scanned => { s with pending := s.pending.tail, inFlight := scanned }
  | .finish d e => s.finish d e.succeeded

def Act.Fits (s : Scheduler) : Act → Prop
  | .answer r reply => (serve s r).2 = .reply reply
  | .begin d => ∃ force, (serve s (.submit d force)).2 = .scan d
  | .pop d scanned => s.inFlight = false ∧
      ∃ w ∈ s.pending.head?, w.document = d ∧ scanned = !s.isSettled w
  | .finish _ _ => s.inFlight = true

def stateAfter (s : Scheduler) (acts : List Act) : Scheduler :=
  acts.foldl Act.after s

def Legal (s : Scheduler) : List Act → Prop
  | [] => True
  | a :: acts => a.Fits s ∧ Legal (a.after s) acts

@[simp] theorem stateAfter_nil (s : Scheduler) : stateAfter s [] = s := rfl

@[simp] theorem stateAfter_cons (s : Scheduler) (a : Act) (acts : List Act) :
    stateAfter s (a :: acts) = stateAfter (a.after s) acts := rfl

@[simp] theorem stateAfter_append (s : Scheduler) (as bs : List Act) :
    stateAfter s (as ++ bs) = stateAfter (stateAfter s as) bs :=
  List.foldl_append

@[simp] theorem legal_nil (s : Scheduler) : Legal s [] := trivial

@[simp] theorem legal_cons {s : Scheduler} {a : Act} {acts : List Act} :
    Legal s (a :: acts) ↔ a.Fits s ∧ Legal (a.after s) acts := Iff.rfl

theorem Act.after_useCache (s : Scheduler) (a : Act) : (a.after s).useCache = s.useCache := by
  cases a with
  | answer r reply =>
    cases r with
    | submit d force =>
      simp only [Act.after, serve]
      split <;> rfl
    | _ => rfl
  | _ => rfl

theorem stateAfter_useCache (s : Scheduler) (acts : List Act) :
    (stateAfter s acts).useCache = s.useCache := by
  induction acts generalizing s with
  | nil => rfl
  | cons a acts ih => rw [stateAfter_cons, ih, Act.after_useCache]

theorem legal_append {s : Scheduler} {as bs : List Act} :
    Legal s (as ++ bs) ↔ Legal s as ∧ Legal (stateAfter s as) bs := by
  induction as generalizing s with
  | nil => simp
  | cons a as ih => simp only [List.cons_append, legal_cons, stateAfter_cons, ih, and_assoc]

/-- What holds at the start and is kept by every act that fits holds at every point of a run. -/
theorem Legal.run {I : List Act → Scheduler → Prop} {s : Scheduler} {acts : List Act}
    (h : Legal s acts) (start : I [] s)
    (step : ∀ {before a t}, a ∈ acts → a.Fits t → I before t → I (before ++ [a]) (a.after t)) :
    I acts (stateAfter s acts) := by
  suffices run : ∀ (rest before : List Act) (t : Scheduler), (∀ a ∈ rest, a ∈ acts) → Legal t rest →
      I before t → I (before ++ rest) (stateAfter t rest) from
    run acts [] s (fun _ ha => ha) h start
  intro rest
  induction rest with
  | nil =>
    intro before t _ _ hI
    simpa using hI
  | cons a rest ih =>
    intro before t hmem hl hI
    have hI' := ih (before ++ [a]) (a.after t) (fun b hb => hmem b (List.mem_cons_of_mem a hb)) hl.2
      (step (hmem a List.mem_cons_self) hl.1 hI)
    rwa [List.append_assoc, List.singleton_append] at hI'

def Call.acts (call : Call) : List Act :=
  call.during.map (fun x => Act.answer x.1 x.2.reply) ++ [.finish call.document call.ending]

def Event.acts : Event → List Act
  | .scan call => .pop call.document true :: call.acts
  | .drop d => [.pop d false]

def requestActs (s : Scheduler) (scans : List Scan) (r : Request) : List Act :=
  match (serve s r).2, (request s scans r).1.events with
  | .reply reply, _ => [.answer r reply]
  | .scan _, .scan call :: events => .begin call.document :: call.acts ++ events.flatMap Event.acts
  | _, events => events.flatMap Event.acts

def history (s : Scheduler) (scans : List Scan) : List Request → List Act
  | [] => []
  | r :: rs =>
    let result := (request s scans r).1
    requestActs s scans r ++ history result.scheduler result.scans rs

/-- What callers are told of: that a scan begins, and that a submission waits. -/
inductive Notice
  | scan (d : Document)
  | queue (w : Waiting)
  deriving Repr, DecidableEq

def Act.notice? : Act → Option Notice
  | .answer (.submit d force) (.outcome .queued) => some (.queue ⟨d, force⟩)
  | .begin d => some (.scan d)
  | .pop d true => some (.scan d)
  | _ => none

def Call.notices (call : Call) : List Notice :=
  .scan call.document :: call.during.filterMap fun x => (Act.answer x.1 x.2.reply).notice?

/-- A submission that is answered at once is skipped, or put into the queue. -/
theorem serve_submit_reply {s : Scheduler} {d : Document} {force : Bool} {reply : Reply}
    (h : (serve s (.submit d force)).2 = .reply reply) :
    (s.isSettled ⟨d, force⟩ = true ∧ reply = .outcome .skipped ∧ (serve s (.submit d force)).1 = s) ∨
      (s.isSettled ⟨d, force⟩ = false ∧ s.inFlight = true ∧ reply = .outcome .queued ∧
        (serve s (.submit d force)).1 =
          { s with pending := Scheduler.enqueue s.pending ⟨d, force⟩ }) := by
  simp only [serve, Scheduler.decision] at h ⊢
  split_ifs at h ⊢ with hsettled hflight
  · cases h
    exact Or.inl ⟨hsettled, rfl, rfl⟩
  · cases h
    exact Or.inr ⟨by simpa using hsettled, hflight, rfl, rfl⟩

/-- While a scan is in flight every request is answered at once. -/
theorem serve_inFlight {s : Scheduler} (hs : s.inFlight = true) (r : Request) :
    (serve s r).1.inFlight = true ∧ ∃ reply, (serve s r).2 = .reply reply ∧
      serveDuring s r = ((serve s r).1, answer (serve s r).1 reply) := by
  suffices h : (serve s r).1.inFlight = true ∧ ∃ reply, (serve s r).2 = .reply reply by
    obtain ⟨h1, reply, h2⟩ := h
    refine ⟨h1, reply, h2, ?_⟩
    unfold serveDuring
    rw [← Prod.mk.eta (p := serve s r), h2]
  cases r with
  | submit d force =>
    by_cases hd : s.isSettled ⟨d, force⟩ = true
    · simp [serve, Scheduler.decision, hd, hs]
    · simp [serve, Scheduler.decision, hd, hs]
  | idle => simp [serve, hs]
  | forget path => simp [serve, Scheduler.forget, hs]
  | clear => simp [serve, Scheduler.clear, hs]
  | isCached d => simp [serve, hs]
  | digest d => simp [serve, hs]

theorem serveAll_spec {s : Scheduler} (hs : s.inFlight = true) (rs : List Request) :
    let acts := (serveAll s rs).2.map fun x => Act.answer x.1 x.2.reply
    Legal s acts ∧ stateAfter s acts = (serveAll s rs).1 ∧ (serveAll s rs).1.inFlight = true ∧
      (serveAll s rs).2.map (·.1) = rs := by
  induction rs generalizing s with
  | nil => exact ⟨trivial, rfl, hs, rfl⟩
  | cons r rs ih =>
    obtain ⟨hs', reply, hreply, hserve⟩ := serve_inFlight hs r
    obtain ⟨h1, h2, h3, h4⟩ := ih hs'
    simp only [serveAll, hserve]
    refine ⟨⟨hreply, h1⟩, h2, h3, ?_⟩
    rw [List.map_cons, h4]

/-- A scan that has begun runs to its end. -/
theorem scan_spec {s : Scheduler} (hs : s.inFlight = true) (d : Document) (e : Scan) :
    Legal s (scan s d e).2.acts ∧ stateAfter s (scan s d e).2.acts = (scan s d e).1 ∧
      (scan s d e).1.inFlight = false ∧
      ∀ r reply, .answer r reply ∈ (scan s d e).2.acts → r ∈ e.during := by
  obtain ⟨h1, h2, h3, h4⟩ := serveAll_spec hs e.during
  simp only [scan, Call.acts]
  refine ⟨?_, ?_, rfl, ?_⟩
  · rw [legal_append]
    exact ⟨h1, by rw [h2]; exact h3, trivial⟩
  · rw [stateAfter_append, h2]
    rfl
  · intro r reply h
    simp only [List.mem_append, List.mem_map, List.mem_singleton, reduceCtorEq, or_false] at h
    obtain ⟨x, hx, hxr⟩ := h
    injection hxr with hxr
    rw [← hxr, ← h4]
    exact List.mem_map_of_mem hx

theorem pop_fits {s : Scheduler} (hs : s.inFlight = false) {w : Waiting} {scanned : Bool}
    (hw : s.isSettled w = !scanned) (queue : List Waiting) :
    (Act.pop w.document scanned).Fits { s with pending := w :: queue } := by
  refine ⟨hs, w, rfl, rfl, ?_⟩
  change scanned = !s.isSettled w
  rw [hw, Bool.not_not]

/-- The documents that are dropped, and the one that is scanned, come off the queue one by one. -/
theorem split_spec {s : Scheduler} (hs : s.inFlight = false) (queue : List Waiting) :
    let acts := (s.split queue).1.map (Act.pop · false) ++
      (s.split queue).2.1.toList.map (Act.pop · true)
    Legal { s with pending := queue } acts ∧
      stateAfter { s with pending := queue } acts =
        { s with pending := (s.split queue).2.2, inFlight := (s.split queue).2.1.isSome } ∧
      ((s.split queue).2.1 = none → (s.split queue).2.2 = []) := by
  induction queue with
  | nil => exact ⟨trivial, by simp [Scheduler.split, hs], fun _ => rfl⟩
  | cons w queue ih =>
    by_cases hw : s.isSettled w = true
    · have hfits := pop_fits hs (show s.isSettled w = !false from hw) queue
      simp only [Scheduler.split, hw, if_true, List.map_cons, List.cons_append, legal_cons,
        stateAfter_cons]
      have hafter : (Act.pop w.document false).after { s with pending := w :: queue } =
          { s with pending := queue } := by simp [Act.after, hs]
      rw [hafter]
      exact ⟨⟨hfits, ih.1⟩, ih.2⟩
    · have hw : s.isSettled w = !true := by simpa using hw
      have hfits := pop_fits hs hw queue
      simp only [Scheduler.split, hw, Bool.not_true, Bool.false_eq_true, if_false]
      exact ⟨⟨hfits, trivial⟩, rfl, by simp⟩

theorem take_spec {s : Scheduler} (hs : s.inFlight = false) :
    let acts := s.take.2.1.map (Act.pop · false) ++ s.take.2.2.toList.map (Act.pop · true)
    Legal s acts ∧ stateAfter s acts = s.take.1 ∧ s.take.1.inFlight = s.take.2.2.isSome ∧
      (s.take.2.2 = none → s.take.1.pending = []) := by
  obtain ⟨h1, h2, h3⟩ := split_spec hs s.pending
  simp only [Scheduler.take, hs, Bool.false_eq_true, if_false]
  exact ⟨h1, h2, trivial, h3⟩

/-- The acts behind a result: they are legal and lead to its state, they answer only what is asked
beforehand or during the scans, and they give the notices of the result's scans. -/
structure Serves (s : Scheduler) (scans : List Scan) (asks : List Request) (acts : List Act)
    (result : Result) : Prop where
  legal : Legal s acts
  state : stateAfter s acts = result.scheduler
  idle : result.scheduler.inFlight = false
  asked : ∀ r reply, .answer r reply ∈ acts → r ∈ asks ∨ ∃ e ∈ scans, r ∈ e.during
  notices : acts.filterMap Act.notice? = result.calls.flatMap Call.notices
  later : result.scans <:+ scans
  crashed : ∀ x ∈ result.crash, ∃ e ∈ scans, crash? e.ending = some x

namespace Serves

variable {s s' : Scheduler} {scans scans' : List Scan} {asks asks' : List Request} {first acts : List Act}
  {result : Result}

theorem mono (h : Serves s scans asks acts result) (hs : scans <:+ scans') (ha : asks ⊆ asks') :
    Serves s scans' asks' acts result where
  legal := h.legal
  state := h.state
  idle := h.idle
  asked := by
    intro r reply hr
    rcases h.asked r reply hr with hr | ⟨e, he, hre⟩
    · exact Or.inl (ha hr)
    · exact Or.inr ⟨e, hs.subset he, hre⟩
  notices := h.notices
  later := h.later.trans hs
  crashed := by
    intro x hx
    obtain ⟨e, he, hex⟩ := h.crashed x hx
    exact ⟨e, hs.subset he, hex⟩

/-- More acts and their events in front. -/
theorem behind (h : Serves s' scans asks acts result) {events : List Event} (hl : Legal s first)
    (hs : stateAfter s first = s') (ha : ∀ r reply, .answer r reply ∈ first → ∃ e ∈ scans, r ∈ e.during)
    (he : first.filterMap Act.notice? = (events.filterMap Event.call?).flatMap Call.notices) :
    Serves s scans asks (first ++ acts) { result with events := events ++ result.events } where
  legal := legal_append.2 ⟨hl, hs ▸ h.legal⟩
  state := by rw [stateAfter_append, hs]; exact h.state
  idle := h.idle
  asked := by
    intro r reply hr
    rcases List.mem_append.1 hr with hr | hr
    · exact Or.inr (ha r reply hr)
    · exact h.asked r reply hr
  notices := by
    rw [List.filterMap_append, he, h.notices, Result.calls, Result.calls, List.filterMap_append,
      List.flatMap_append]
  later := h.later
  crashed := h.crashed

end Serves

theorem drainAll_spec {s : Scheduler} (hs : s.inFlight = false) (queue : List Waiting) :
    let out := drainAll { s with pending := [] } queue
    Serves { s with pending := queue } [] [] (out.2.flatMap Event.acts) ⟨out.1, [], out.2, none⟩ := by
  induction queue generalizing s with
  | nil => exact ⟨trivial, rfl, hs, by simp [drainAll], rfl, List.suffix_refl _, by simp⟩
  | cons w queue ih =>
    have hsettled : Scheduler.isSettled { s with pending := [] } w = s.isSettled w := rfl
    by_cases hw : s.isSettled w = true
    · have hw : s.isSettled w = !false := hw
      have hfits := pop_fits hs hw queue
      have hafter : (Act.pop w.document false).after { s with pending := w :: queue } =
          { s with pending := queue } := by simp [Act.after, hs]
      have h := ih hs
      simp only [drainAll, drainOne, hsettled, hw, Bool.not_false, if_true, List.flatMap_cons]
      refine ⟨⟨hfits, hafter ▸ h.legal⟩, ?_, h.idle, ?_, h.notices, h.later, h.crashed⟩
      · rw [stateAfter_append]
        change stateAfter ((Act.pop w.document false).after _) _ = _
        rw [hafter]
        exact h.state
      · intro r reply hmem
        rcases List.mem_append.1 hmem with hmem | hmem
        · simp [Event.acts] at hmem
        · exact h.asked r reply hmem
    · have hw : s.isSettled w = !true := by simpa using hw
      have hfits := pop_fits hs hw queue
      have h := ih (s := s.finish w.document true) rfl
      simp only [drainAll, drainOne, hsettled, hw, Bool.not_true, Bool.false_eq_true, if_false,
        List.flatMap_cons]
      refine ⟨⟨hfits, rfl, h.legal⟩, h.state, h.idle, ?_, ?_, h.later, h.crashed⟩
      · intro r reply hmem
        rcases List.mem_append.1 hmem with hmem | hmem
        · simp [Event.acts, Call.acts] at hmem
        · exact h.asked r reply hmem
      · exact congrArg (Notice.scan w.document :: ·) h.notices

theorem flatMap_drop_acts (dropped : List Document) :
    (dropped.map Event.drop).flatMap Event.acts = dropped.map (Act.pop · false) := by
  induction dropped with
  | nil => rfl
  | cons d dropped ih => simp only [List.map_cons, List.flatMap_cons, ih, Event.acts, List.singleton_append]

theorem call_notices (call : Call) :
    Notice.scan call.document :: call.acts.filterMap Act.notice? = call.notices := by
  simp only [Call.acts, Call.notices, List.filterMap_append, List.filterMap_map]
  exact congrArg _ (List.append_nil _)

theorem event_notices (events : List Event) :
    (events.flatMap Event.acts).filterMap Act.notice? =
      (events.filterMap Event.call?).flatMap Call.notices := by
  induction events with
  | nil => rfl
  | cons event events ih =>
    rw [List.flatMap_cons, List.filterMap_append, ih]
    cases event with
    | scan call =>
      change _ = (call :: events.filterMap Event.call?).flatMap Call.notices
      rw [List.flatMap_cons, ← call_notices]
      rfl
    | drop d => rfl

def proceed (s : Scheduler) (e : Scan) (scans : List Scan) : Result :=
  match crash? e.ending with
  | some crash => ⟨s, scans, [], some crash⟩
  | none => drain s scans

theorem drain_cons_of_none {s s' : Scheduler} {dropped : List Document} (h : s.take = (s', dropped, none))
    (e : Scan) (scans : List Scan) :
    drain s (e :: scans) = ⟨s', e :: scans, dropped.map .drop, none⟩ := by
  rw [drain, h]

theorem drain_cons_of_some {s s' : Scheduler} {dropped : List Document} {d : Document}
    (h : s.take = (s', dropped, some d)) (e : Scan) (scans : List Scan) :
    drain s (e :: scans) =
      { proceed (scan s' d e).1 e scans with
        events := (dropped.map .drop ++ [.scan (scan s' d e).2]) ++
          (proceed (scan s' d e).1 e scans).events } := by
  rw [drain, h, proceed]
  cases hc : crash? e.ending with
  | none => simp
  | some x => simp

theorem scanAndDrain_eq (s : Scheduler) (d : Document) (e : Scan) (scans : List Scan) :
    scanAndDrain s d e scans =
      { proceed (scan s d e).1 e scans with
        events := [.scan (scan s d e).2] ++ (proceed (scan s d e).1 e scans).events } := by
  rw [scanAndDrain, proceed]
  cases hc : crash? e.ending with
  | none => simp
  | some x => simp

theorem proceed_spec {s : Scheduler} (hs : s.inFlight = false) (e : Scan) {scans : List Scan}
    (h : Serves s scans [] ((drain s scans).events.flatMap Event.acts) (drain s scans)) :
    Serves s (e :: scans) [] ((proceed s e scans).events.flatMap Event.acts) (proceed s e scans) := by
  unfold proceed
  cases hc : crash? e.ending with
  | none => exact h.mono (List.suffix_cons e scans) (List.Subset.refl [])
  | some x =>
    refine ⟨trivial, rfl, hs, by simp, rfl, List.suffix_cons e scans, ?_⟩
    rintro y ⟨⟩
    exact ⟨e, List.mem_cons_self, hc⟩

theorem drain_spec {s : Scheduler} (hs : s.inFlight = false) (scans : List Scan) :
    Serves s scans [] ((drain s scans).events.flatMap Event.acts) (drain s scans) := by
  induction scans generalizing s with
  | nil => exact drainAll_spec hs s.pending
  | cons e scans ih =>
    obtain ⟨h1, h2, h3, -⟩ := take_spec hs
    rcases htake : s.take with ⟨s', dropped, next⟩
    rw [htake] at h1 h2 h3
    cases next with
    | none =>
      simp only [Option.toList_none, List.map_nil, List.append_nil] at h1 h2
      rw [drain_cons_of_none htake]
      refine ⟨?_, ?_, h3, ?_, ?_, List.suffix_refl _, by simp⟩
      · rw [flatMap_drop_acts]; exact h1
      · rw [flatMap_drop_acts]; exact h2
      · simp [flatMap_drop_acts]
      · exact event_notices _
    | some d =>
      obtain ⟨h5, h6, h7, h8⟩ := scan_spec h3 d e
      have hfirst : (dropped.map Event.drop ++ [Event.scan (scan s' d e).2]).flatMap Event.acts =
          (dropped.map (Act.pop · false) ++ [Act.pop d true]) ++ (scan s' d e).2.acts := by
        rw [List.flatMap_append, flatMap_drop_acts, List.append_assoc]
        simp [Event.acts, scan]
      rw [drain_cons_of_some htake, List.flatMap_append]
      refine (proceed_spec h7 e (ih h7)).behind ?_ ?_ ?_ (event_notices _)
      · rw [hfirst]
        exact legal_append.2 ⟨h1, h2 ▸ h5⟩
      · have h2 : stateAfter s (dropped.map (Act.pop · false) ++ [Act.pop d true]) = s' := h2
        rw [hfirst, stateAfter_append, h2]
        exact h6
      · intro r reply hr
        rw [hfirst] at hr
        rcases List.mem_append.1 hr with hr | hr
        · simp at hr
        · exact ⟨e, List.mem_cons_self, h8 r reply hr⟩

/-- A submitted document is scanned, and then the queue that this left. -/
theorem scanAndDrain_spec {s : Scheduler} {d : Document} {force : Bool}
    (hserve : serve s (.submit d force) = (s.start, .scan d)) (e : Scan) (scans all : List Scan)
    (hduring : ∀ r ∈ e.during, ∃ e' ∈ all, r ∈ e'.during)
    (hproceed : (scan s.start d e).1.inFlight = false → Serves (scan s.start d e).1 all []
      ((proceed (scan s.start d e).1 e scans).events.flatMap Event.acts)
      (proceed (scan s.start d e).1 e scans)) :
    Serves s all [] (.begin d :: (scan s.start d e).2.acts ++
      (proceed (scan s.start d e).1 e scans).events.flatMap Event.acts)
      (scanAndDrain s.start d e scans) := by
  obtain ⟨h1, h2, h3, h4⟩ := scan_spec (s := s.start) rfl d e
  rw [scanAndDrain_eq]
  refine (hproceed h3).behind ⟨⟨force, by rw [hserve]⟩, h1⟩ h2 ?_ ?_
  · intro r reply hr
    rcases List.mem_cons.1 hr with hr | hr
    · simp at hr
    · exact hduring r (h4 r reply hr)
  · exact (call_notices (scan s.start d e).2).trans (List.append_nil _).symm

/-- The three things that a request can lead to while no scan is in flight. -/
theorem serve_cases {s : Scheduler} (hs : s.inFlight = false) (r : Request) :
    (∃ reply, (serve s r).2 = .reply reply ∧ (serve s r).1.inFlight = false ∧
      (Act.answer r reply).notice? = none ∧ (s.pending = [] → (serve s r).1.pending = [])) ∨
    (∃ d force, r = .submit d force ∧ serve s r = (s.start, .scan d)) ∨
    (r = .idle ∧ serve s r = (s, .drain)) := by
  cases r with
  | submit d force =>
    by_cases hd : s.isSettled ⟨d, force⟩ = true
    · exact Or.inl ⟨.outcome .skipped, by simp [serve, Scheduler.decision, Act.notice?, hd, hs]⟩
    · exact Or.inr (Or.inl ⟨d, force, rfl, by simp [serve, Scheduler.decision, hd, hs]⟩)
  | idle => exact Or.inr (Or.inr ⟨rfl, by simp [serve, hs]⟩)
  | forget path => exact Or.inl ⟨.done, rfl, hs, rfl, id⟩
  | clear => exact Or.inl ⟨.done, rfl, hs, rfl, fun _ => rfl⟩
  | isCached d => exact Or.inl ⟨_, rfl, hs, rfl, id⟩
  | digest d => exact Or.inl ⟨_, rfl, hs, rfl, id⟩

/-- A request made while no scan is in flight. -/
theorem request_spec {s : Scheduler} (hs : s.inFlight = false) (scans : List Scan) (r : Request) :
    Serves s scans [r] (requestActs s scans r) (request s scans r).1 := by
  rcases serve_cases hs r with ⟨reply, hreply, hidle, hnotice, -⟩ | ⟨d, force, rfl, hserve⟩ | ⟨rfl, hserve⟩
  · have hresult : (request s scans r).1 = ⟨(serve s r).1, scans, [], none⟩ := by
      rw [request, ← Prod.mk.eta (p := serve s r), hreply]
    have hacts : requestActs s scans r = [.answer r reply] := by rw [requestActs, hreply]
    rw [hresult, hacts]
    refine ⟨⟨hreply, trivial⟩, rfl, hidle, ?_, ?_, List.suffix_refl _, by simp⟩
    · intro r' reply' h
      cases List.mem_singleton.1 h
      exact Or.inl (List.mem_singleton.2 rfl)
    · rw [List.filterMap_cons_none hnotice]
      rfl
  · have hresult : (request s scans (.submit d force)).1 =
        scanAndDrain s.start d (scans.head?.getD {}) scans.tail := by rw [request, hserve]
    have hacts : requestActs s scans (.submit d force) =
        .begin d :: (scan s.start d (scans.head?.getD {})).2.acts ++
          (proceed (scan s.start d (scans.head?.getD {})).1 (scans.head?.getD {})
            scans.tail).events.flatMap Event.acts := by
      rw [requestActs, hserve, hresult, scanAndDrain_eq]
      rfl
    rw [hresult, hacts]
    refine Serves.mono ?_ (List.suffix_refl scans) (List.nil_subset _)
    cases scans with
    | nil => exact scanAndDrain_spec hserve {} [] [] (by simp) fun h => drain_spec h []
    | cons e scans =>
      exact scanAndDrain_spec hserve e scans (e :: scans) (fun r hr => ⟨e, List.mem_cons_self, hr⟩)
        fun h => proceed_spec h e (drain_spec h scans)
  · have hresult : (request s scans .idle).1 = drain s scans := by rw [request, hserve]
    have hacts : requestActs s scans .idle = (drain s scans).events.flatMap Event.acts := by
      rw [requestActs, hserve, hresult]
    rw [hresult, hacts]
    exact (drain_spec hs scans).mono (List.suffix_refl scans) (List.nil_subset _)

theorem drainAll_pending (s : Scheduler) (queue : List Waiting) :
    (drainAll s queue).1.pending = s.pending := by
  induction queue generalizing s with
  | nil => rfl
  | cons w queue ih =>
    rw [drainAll]
    refine (ih _).trans ?_
    unfold drainOne
    split_ifs <;> rfl

theorem proceed_pending {s : Scheduler} {e : Scan} {scans : List Scan}
    (h : (drain s scans).crash = none → (drain s scans).scheduler.pending = [])
    (hc : (proceed s e scans).crash = none) : (proceed s e scans).scheduler.pending = [] := by
  unfold proceed at hc ⊢
  cases he : crash? e.ending with
  | none => rw [he] at hc; exact h hc
  | some x => rw [he] at hc; cases hc

/-- The queue is empty at the end, unless a scan broke off. -/
theorem drain_pending {s : Scheduler} (hs : s.inFlight = false) (scans : List Scan)
    (hc : (drain s scans).crash = none) : (drain s scans).scheduler.pending = [] := by
  induction scans generalizing s with
  | nil => exact drainAll_pending _ _
  | cons e scans ih =>
    obtain ⟨-, -, h3, h4⟩ := take_spec hs
    rcases htake : s.take with ⟨s', dropped, next⟩
    rw [htake] at h3 h4
    cases next with
    | none =>
      rw [drain_cons_of_none htake]
      exact h4 rfl
    | some d =>
      rw [drain_cons_of_some htake] at hc ⊢
      exact proceed_pending (ih (scan_spec h3 d e).2.2.1) hc

/-- The queue is empty behind a request that led to scans and ran to its end. -/
theorem request_emptied {s : Scheduler} (hs : s.inFlight = false) (scans : List Scan) (r : Request)
    (hled : ∀ reply, (serve s r).2 ≠ .reply reply) (hcrash : (request s scans r).1.crash = none) :
    (request s scans r).1.scheduler.pending = [] := by
  rcases serve_cases hs r with ⟨reply, hreply, -⟩ | ⟨d, force, rfl, hserve⟩ | ⟨rfl, hserve⟩
  · exact absurd hreply (hled reply)
  · rw [request, hserve] at hcrash ⊢
    dsimp only at hcrash ⊢
    rw [scanAndDrain_eq] at hcrash ⊢
    exact proceed_pending (drain_pending (scan_spec rfl d _).2.2.1 _) hcrash
  · rw [request, hserve] at hcrash ⊢
    exact drain_pending hs scans hcrash

theorem request_pending {s : Scheduler} (hs : s.inFlight = false) (hp : s.pending = [])
    (scans : List Scan) (r : Request) (hc : (request s scans r).1.crash = none) :
    (request s scans r).1.scheduler.pending = [] := by
  rcases serve_cases hs r with ⟨reply, hreply, -, -, hpending⟩ | ⟨d, force, rfl, hserve⟩ | ⟨rfl, hserve⟩
  · rw [request, ← Prod.mk.eta (p := serve s r), hreply]
    exact hpending hp
  · exact request_emptied hs scans _ (by simp [hserve]) hc
  · exact request_emptied hs scans _ (by simp [hserve]) hc

/-- The history of a run is legal, answers what was asked, and gives the notices of the run. -/
theorem history_spec {s : Scheduler} (hs : s.inFlight = false) (scans : List Scan)
    (requests : List Request) :
    Legal s (history s scans requests) ∧
      (∀ r reply, .answer r reply ∈ history s scans requests →
        r ∈ requests ∨ ∃ e ∈ scans, r ∈ e.during) ∧
      (history s scans requests).filterMap Act.notice? =
        (run s scans requests).flatMap fun x => x.1.calls.flatMap Call.notices := by
  induction requests generalizing s scans with
  | nil => exact ⟨trivial, by simp [history], rfl⟩
  | cons r requests ih =>
    have h := request_spec hs scans r
    obtain ⟨h1, h2, h3⟩ := ih h.idle (request s scans r).1.scans
    refine ⟨legal_append.2 ⟨h.legal, h.state ▸ h1⟩, ?_, ?_⟩
    · intro r' reply hr
      rcases List.mem_append.1 hr with hr | hr
      · rcases h.asked r' reply hr with hr | hr
        · exact Or.inl (List.mem_cons.2 (Or.inl (List.mem_singleton.1 hr)))
        · exact Or.inr hr
      · rcases h2 r' reply hr with hr | ⟨e, he, hre⟩
        · exact Or.inl (List.mem_cons_of_mem r hr)
        · exact Or.inr ⟨e, h.later.subset he, hre⟩
    · rw [history, List.filterMap_append, h.notices, h3]
      rfl

/-- Behind every request of a run in which no scan breaks off, the queue is empty. -/
theorem history_pending {s : Scheduler} (hs : s.inFlight = false) (hp : s.pending = [])
    (scans : List Scan) (hscans : ∀ e ∈ scans, crash? e.ending = none) (requests : List Request) :
    (stateAfter s (history s scans requests)).pending = [] := by
  induction requests generalizing s scans with
  | nil => exact hp
  | cons r requests ih =>
    have h := request_spec hs scans r
    have hcrash : (request s scans r).1.crash = none := by
      rw [Option.eq_none_iff_forall_not_mem]
      intro x hx
      obtain ⟨e, he, hex⟩ := h.crashed x hx
      rw [hscans e he] at hex
      cases hex
    rw [history, stateAfter_append, h.state]
    exact ih h.idle (request_pending hs hp scans r hcrash) _ fun e he => hscans e (h.later.subset he)

end DesignLint.Schedule
