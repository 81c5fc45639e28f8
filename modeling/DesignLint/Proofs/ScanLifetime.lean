import DesignLint.Proofs.Timeline

/-! The lifetime of scans. In the history of a run every scan that begins comes to its end before the
next one begins, and the scheduler says that a scan is in flight exactly in between. A scan that
breaks off ends the request that led to it and leaves the digests and the queue as they are. -/

namespace DesignLint.Schedule

def Act.begun? : Act → Option Document
  | .begin d => some d
  | .pop d true => some d
  | _ => none

def runningStep (running : Option Document) : Act → Option Document
  | .begin d => some d
  | .pop d true => some d
  | .finish _ _ => none
  | _ => running

/-- The document whose scan has begun and has not come to its end. -/
def running (acts : List Act) : Option Document :=
  acts.foldl runningStep none

theorem running_snoc (acts : List Act) (a : Act) :
    running (acts ++ [a]) = runningStep (running acts) a := by
  simp [running]

def Bracketed (running : Option Document) : List Act → Prop
  | [] => True
  | a :: acts => (∀ d e, a = .finish d e → running = some d) ∧ Bracketed (runningStep running a) acts

section Brackets

variable {r : Option Document} {as bs : List Act}

theorem bracketed_append :
    Bracketed r (as ++ bs) ↔ Bracketed r as ∧ Bracketed (as.foldl runningStep r) bs := by
  induction as generalizing r with
  | nil => simp [Bracketed]
  | cons a as ih => simp only [List.cons_append, Bracketed, List.foldl_cons, ih, and_assoc]

/-- Answers leave the scan that is running alone. -/
theorem bracketed_answers (r : Option Document) (answers : List (Request × Reply)) :
    Bracketed r (answers.map fun x => Act.answer x.1 x.2) ∧
      (answers.map fun x => Act.answer x.1 x.2).foldl runningStep r = r := by
  induction answers with
  | nil => exact ⟨trivial, rfl⟩
  | cons x answers ih => exact ⟨⟨fun d e h => Act.noConfusion h, ih.1⟩, ih.2⟩

theorem call_bracketed (call : Call) :
    Bracketed (some call.document) call.acts ∧
      call.acts.foldl runningStep (some call.document) = none := by
  have hmap : (call.during.map fun x => Act.answer x.1 x.2.reply) =
      (call.during.map fun x => (x.1, x.2.reply)).map fun x => Act.answer x.1 x.2 := by
    rw [List.map_map]
    rfl
  obtain ⟨hanswers, hsame⟩ := bracketed_answers (some call.document)
    (call.during.map fun x => (x.1, x.2.reply))
  rw [← hmap] at hanswers hsame
  rw [Call.acts, bracketed_append, List.foldl_append, hsame]
  refine ⟨⟨hanswers, ?_, trivial⟩, rfl⟩
  rintro d e ⟨⟩
  rfl

theorem events_bracketed (events : List Event) :
    Bracketed none (events.flatMap Event.acts) ∧
      (events.flatMap Event.acts).foldl runningStep none = none := by
  induction events with
  | nil => exact ⟨trivial, rfl⟩
  | cons event events ih =>
    rw [List.flatMap_cons, bracketed_append, List.foldl_append]
    cases event with
    | scan call =>
      obtain ⟨hcall, hend⟩ := call_bracketed call
      have hacts : (Event.acts (.scan call)).foldl runningStep none = none := hend
      rw [hacts]
      exact ⟨⟨⟨fun d e h => Act.noConfusion h, hcall⟩, ih.1⟩, ih.2⟩
    | drop d => exact ⟨⟨⟨fun d e h => Act.noConfusion h, trivial⟩, ih.1⟩, ih.2⟩

theorem requestActs_bracketed (s : Scheduler) (scans : List Scan) (r : Request) :
    Bracketed none (requestActs s scans r) ∧
      (requestActs s scans r).foldl runningStep none = none := by
  unfold requestActs
  split
  · exact ⟨⟨fun d e h => Act.noConfusion h, trivial⟩, rfl⟩
  next call events _ _ =>
    obtain ⟨hcall, hend⟩ := call_bracketed call
    obtain ⟨hevents, hnone⟩ := events_bracketed events
    have hacts : (.begin call.document :: call.acts).foldl runningStep none = none := hend
    rw [bracketed_append, List.foldl_append, hacts]
    exact ⟨⟨⟨fun d e h => Act.noConfusion h, hcall⟩, hevents⟩, hnone⟩
  · exact events_bracketed _

theorem history_bracketed (s : Scheduler) (scans : List Scan) (requests : List Request) :
    Bracketed none (history s scans requests) := by
  induction requests generalizing s scans with
  | nil => trivial
  | cons r requests ih =>
    obtain ⟨hacts, hnone⟩ := requestActs_bracketed s scans r
    rw [history, bracketed_append, hnone]
    exact ⟨hacts, ih _ _⟩

end Brackets

/-- An answer leaves the flag alone. -/
theorem serve_reply_inFlight {s : Scheduler} {r : Request} {reply : Reply}
    (h : (serve s r).2 = .reply reply) : (serve s r).1.inFlight = s.inFlight := by
  cases r with
  | submit d force =>
    rcases serve_submit_reply h with ⟨-, -, hs⟩ | ⟨-, -, -, hs⟩
    · rw [hs]
    · rw [hs]
  | _ => rfl

theorem serve_scan_idle {s : Scheduler} {d d' : Document} {force : Bool}
    (h : (serve s (.submit d force)).2 = .scan d') : s.inFlight = false := by
  simp only [serve, Scheduler.decision] at h
  split_ifs at h with hsettled hflight
  simpa using hflight

/-- The flag follows the scan that is running. -/
theorem Act.after_inFlight {s : Scheduler} {a : Act} {r : Option Document} (ha : a.Fits s)
    (hs : s.inFlight = r.isSome) : (a.after s).inFlight = (runningStep r a).isSome := by
  cases a with
  | answer q reply => exact (serve_reply_inFlight ha).trans hs
  | begin d => rfl
  | finish d e => rfl
  | pop d scanned =>
    rw [ha.1] at hs
    cases scanned with
    | true => rfl
    | false => exact hs

theorem inFlight_eq_running {s : Scheduler} {acts : List Act} (hs : s.inFlight = false)
    (h : Legal s acts) : (stateAfter s acts).inFlight = (running acts).isSome := by
  refine h.run (I := fun acts t => t.inFlight = (running acts).isSome) hs ?_
  intro before a t _ hfits ht
  rw [running_snoc]
  exact a.after_inFlight hfits ht

def Meanwhile : Request → Reply → Prop
  | .submit _ _, reply => reply = .outcome .skipped ∨ reply = .outcome .queued
  | .idle, reply => reply = .scanned 0
  | .forget _, reply | .clear, reply => reply = .done
  | .isCached _, reply => ∃ b, reply = .cached b
  | .digest d, reply => reply = .digest d.digest

theorem meanwhile_of_inFlight {s : Scheduler} {r : Request} {reply : Reply}
    (hs : s.inFlight = true) (h : (serve s r).2 = .reply reply) : Meanwhile r reply := by
  cases r with
  | submit d force =>
    rcases serve_submit_reply h with ⟨-, hreply, -⟩ | ⟨-, -, hreply, -⟩
    · exact Or.inl hreply
    · exact Or.inr hreply
  | idle =>
    rw [serve, if_pos hs] at h
    cases h
    rfl
  | isCached d => exact ⟨_, (Verdict.reply.inj h).symm⟩
  | forget path => exact (Verdict.reply.inj h).symm
  | clear => exact (Verdict.reply.inj h).symm
  | digest d => exact (Verdict.reply.inj h).symm

/-- The act at some point of a history, and the scan that is running there. -/
theorem history_at {s : Scheduler} (hs : s.inFlight = false) {scans : List Scan}
    {requests : List Request} {before after : List Act} {a : Act}
    (h : history s scans requests = before ++ a :: after) :
    a.Fits (stateAfter s before) ∧ (stateAfter s before).inFlight = (running before).isSome ∧
      ∀ d e, a = .finish d e → running before = some d := by
  obtain ⟨hlegal, -⟩ := history_spec hs scans requests
  have hbrackets := history_bracketed s scans requests
  rw [h, legal_append] at hlegal
  rw [h, bracketed_append] at hbrackets
  exact ⟨hlegal.2.1, inFlight_eq_running hs hlegal.1, hbrackets.2.1⟩

/-- A scan begins only where none is running. -/
theorem running_eq_none_of_begun {s : Scheduler} {before : List Act} {a : Act} (ha : a.Fits s)
    (hs : s.inFlight = (running before).isSome) (hbegun : a.begun?.isSome = true) :
    running before = none := by
  suffices hidle : s.inFlight = false by
    rw [hidle] at hs
    exact Option.isSome_eq_false_iff.1 hs.symm |> Option.isNone_iff_eq_none.1
  cases a with
  | begin d => exact serve_scan_idle ha.choose_spec
  | pop d scanned => exact ha.1
  | answer r reply => cases hbegun
  | finish d e => cases hbegun

def resume (s : Scheduler) (scans : List Scan) : List Request → Scheduler × List Scan
  | [] => (s, scans)
  | r :: rs =>
    let result := (request s scans r).1
    resume result.scheduler result.scans rs

section Resume

variable {s : Scheduler}

theorem resume_inFlight (hs : s.inFlight = false) (scans : List Scan) (requests : List Request) :
    (resume s scans requests).1.inFlight = false := by
  induction requests generalizing s scans with
  | nil => exact hs
  | cons r requests ih => exact ih (request_spec hs scans r).idle _

theorem run_append (s : Scheduler) (scans : List Scan) (done rest : List Request) :
    run s scans (done ++ rest) = run s scans done ++
      run (resume s scans done).1 (resume s scans done).2 rest := by
  induction done generalizing s scans with
  | nil => rfl
  | cons r done ih => exact congrArg (request s scans r :: ·) (ih _ _)

theorem history_append (s : Scheduler) (scans : List Scan) (done rest : List Request) :
    history s scans (done ++ rest) = history s scans done ++
      history (resume s scans done).1 (resume s scans done).2 rest := by
  induction done generalizing s scans with
  | nil => rfl
  | cons r done ih =>
    rw [List.cons_append, history, history, ih, List.append_assoc]
    rfl

theorem stateAfter_history (hs : s.inFlight = false) (scans : List Scan) (requests : List Request) :
    stateAfter s (history s scans requests) = (resume s scans requests).1 := by
  induction requests generalizing s scans with
  | nil => rfl
  | cons r requests ih =>
    have h := request_spec hs scans r
    rw [history, stateAfter_append, h.state, ih h.idle]
    rfl

end Resume

/-- No scan broke off, or only the one that came to its end last. -/
def Breaks (acts : List Act) : Option (String × String) → Prop
  | none => ∀ d e, .finish d e ∈ acts → crash? e = none
  | some x => ∃ first d e, acts = first ++ [.finish d e] ∧ crash? e = some x ∧
      ∀ d e, .finish d e ∈ first → crash? e = none

section Breaks

variable {first acts : List Act} {crash : Option (String × String)}

theorem Breaks.behind (h : Breaks acts crash) (hfirst : Breaks first none) :
    Breaks (first ++ acts) crash := by
  have hjoin : ∀ {bs : List Act}, Breaks bs none → ∀ d e, .finish d e ∈ first ++ bs →
      crash? e = none := by
    intro bs hbs d e he
    rcases List.mem_append.1 he with he | he
    · exact hfirst d e he
    · exact hbs d e he
  cases crash with
  | none => exact hjoin h
  | some x =>
    obtain ⟨bs, d, e, rfl, hx, hbs⟩ := h
    exact ⟨first ++ bs, d, e, (List.append_assoc _ _ _).symm, hx, hjoin hbs⟩

/-- The end that broke off is the last act. -/
theorem Breaks.last {before after : List Act} {d : Document} {e : Ending} {x : String × String}
    (h : Breaks (before ++ .finish d e :: after) crash) (he : crash? e = some x) :
    after = [] ∧ crash = some x := by
  have hmem : ∀ {bs : List Act}, Breaks bs none → .finish d e ∉ bs := by
    intro bs hbs hin
    rw [hbs d e hin] at he
    cases he
  cases crash with
  | none => exact absurd (List.mem_append_right before List.mem_cons_self) (hmem h)
  | some y =>
    obtain ⟨first, d', e', hsplit, hy, hfirst⟩ := h
    rcases List.eq_nil_or_concat after with rfl | ⟨after', a, rfl⟩
    · obtain ⟨-, hend⟩ := List.append_inj' hsplit rfl
      cases hend
      exact ⟨rfl, hy.symm.trans he⟩
    · rw [List.concat_eq_append, ← List.cons_append, ← List.append_assoc] at hsplit
      obtain ⟨hinit, -⟩ := List.append_inj' hsplit rfl
      refine absurd ?_ (hmem hfirst)
      rw [← hinit]
      exact List.mem_append_right before List.mem_cons_self

theorem call_breaks (call : Call) : Breaks call.acts (crash? call.ending) := by
  have hanswers : ∀ d e, .finish d e ∉ call.during.map fun x => Act.answer x.1 x.2.reply := by
    intro d e he
    obtain ⟨x, -, hx⟩ := List.mem_map.1 he
    cases hx
  rw [Call.acts]
  cases hcrash : crash? call.ending with
  | none =>
    intro d e he
    rcases List.mem_append.1 he with he | he
    · exact absurd he (hanswers d e)
    · cases List.mem_singleton.1 he
      exact hcrash
  | some x => exact ⟨_, _, _, rfl, hcrash, fun d e he => absurd he (hanswers d e)⟩

/-- A scan that is begun in either way. -/
theorem begun_breaks {a : Act} (ha : ∀ d e, a ≠ .finish d e) (call : Call) :
    Breaks (a :: call.acts) (crash? call.ending) := by
  have hbegin : Breaks [a] none := by
    intro d e he
    exact absurd (List.mem_singleton.1 he).symm (ha d e)
  exact (call_breaks call).behind hbegin

theorem drops_breaks (dropped : List Document) : Breaks (dropped.map (Act.pop · false)) none := by
  intro d e he
  obtain ⟨x, -, hx⟩ := List.mem_map.1 he
  cases hx

theorem drainAll_breaks (s : Scheduler) (queue : List Waiting) :
    Breaks ((drainAll s queue).2.flatMap Event.acts) none := by
  induction queue generalizing s with
  | nil => exact fun d e he => absurd he List.not_mem_nil
  | cons w queue ih =>
    simp only [drainAll, List.flatMap_cons]
    refine (ih _).behind ?_
    unfold drainOne
    split_ifs
    · exact drops_breaks [w.document]
    · exact begun_breaks (by simp) ⟨w.document, [], .success⟩

/-- A scan and what follows it. -/
theorem proceed_breaks {e : Scan} (hfirst : Breaks first (crash? e.ending)) {s : Scheduler}
    {scans : List Scan}
    (h : Breaks ((drain s scans).events.flatMap Event.acts) (drain s scans).crash) :
    Breaks (first ++ (proceed s e scans).events.flatMap Event.acts) (proceed s e scans).crash := by
  unfold proceed
  cases hcrash : crash? e.ending with
  | none =>
    rw [hcrash] at hfirst
    exact h.behind hfirst
  | some x =>
    rw [hcrash] at hfirst
    simpa using hfirst

theorem drain_breaks (s : Scheduler) (scans : List Scan) :
    Breaks ((drain s scans).events.flatMap Event.acts) (drain s scans).crash := by
  induction scans generalizing s with
  | nil => exact drainAll_breaks _ _
  | cons e scans ih =>
    rcases htake : s.take with ⟨s', dropped, next⟩
    cases next with
    | none =>
      rw [drain_cons_of_none htake, flatMap_drop_acts]
      exact drops_breaks dropped
    | some d =>
      rw [drain_cons_of_some htake, List.flatMap_append, List.flatMap_append, flatMap_drop_acts,
        List.append_assoc, List.flatMap_singleton]
      refine Breaks.behind ?_ (drops_breaks dropped)
      exact proceed_breaks (begun_breaks (by simp) (scan s' d e).2) (ih (scan s' d e).1)

theorem request_breaks {s : Scheduler} (hs : s.inFlight = false) (scans : List Scan) (r : Request) :
    Breaks (requestActs s scans r) (request s scans r).1.crash := by
  rcases serve_cases hs r with ⟨reply, hreply, -⟩ | ⟨d, force, rfl, hserve⟩ | ⟨rfl, hserve⟩
  · rw [requestActs, request, ← Prod.mk.eta (p := serve s r), hreply]
    simp [Breaks]
  · rw [requestActs, request, hserve]
    dsimp only
    rw [scanAndDrain_eq]
    exact proceed_breaks (begun_breaks (by simp) (scan s.start d (scans.head?.getD {})).2)
      (drain_breaks _ _)
  · rw [requestActs, request, hserve]
    exact drain_breaks s scans

end Breaks

structure Concludes (s : Scheduler) (acts : List Act) (r : Request) (reply : Reply) (t : Scheduler) :
    Prop where
  state : stateAfter s acts = t
  idle : t.inFlight = false
  /-- A submission that was scanned leaves no queue. -/
  scanned : ∀ d force, r = .submit d force →
    reply = .outcome .completed ∨ reply = .outcome .failed → t.pending = []
  drained : ∀ n, r = .idle → reply = .scanned n → t.pending = []
  /-- A scan that breaks off is the last act and its reason is the reply; the digests and the queue
  stay as they were when it broke off. -/
  broken : ∀ before d kind message after, acts = before ++ .finish d (.crash kind message) :: after →
    after = [] ∧ reply = .crash kind message ∧ t.digests = (stateAfter s before).digests ∧
      t.pending = (stateAfter s before).pending
  crashed : ∀ kind message, reply = .crash kind message →
    ∃ before d, acts = before ++ [.finish d (.crash kind message)]

theorem crash?_eq_some {e : Ending} {kind message : String} (h : crash? e = some (kind, message)) :
    e = .crash kind message := by
  cases e with
  | crash k m =>
    cases h
    rfl
  | success => cases h
  | failure => cases h

/-- The reply to a request that led to scans. -/
theorem reply_of_crash {result : Result} {whole : Reply} {kind message : String}
    (h : result.crash = some (kind, message)) : result.reply whole = .crash kind message := by
  rw [Result.reply, h]

theorem reply_of_none {result : Result} {whole : Reply} (h : result.crash = none) :
    result.reply whole = whole := by
  rw [Result.reply, h]

/-- The reply tells of the scan that broke off, and only of that. -/
theorem request_reply {s : Scheduler} (hs : s.inFlight = false) (scans : List Scan) (r : Request)
    (kind message : String) :
    (request s scans r).2 = .crash kind message ↔
      (request s scans r).1.crash = some (kind, message) := by
  have hresult : ∀ {result : Result} {whole : Reply}, whole ≠ .crash kind message →
      (result.reply whole = .crash kind message ↔ result.crash = some (kind, message)) := by
    intro result whole hwhole
    refine ⟨fun h => ?_, reply_of_crash⟩
    cases hcrash : result.crash with
    | none => exact absurd ((reply_of_none hcrash).symm.trans h) hwhole
    | some x =>
      rw [Result.reply, hcrash] at h
      cases h
      rfl
  rcases serve_cases hs r with ⟨reply, hreply, -⟩ | ⟨d, force, rfl, hserve⟩ | ⟨rfl, hserve⟩
  · rw [request, ← Prod.mk.eta (p := serve s r), hreply]
    refine ⟨?_, fun h => by cases h⟩
    rintro rfl
    cases r with
    | submit d force =>
      rcases serve_submit_reply hreply with ⟨-, h, -⟩ | ⟨-, -, h, -⟩
      · cases h
      · cases h
    | idle =>
      rw [serve, hs] at hreply
      cases hreply
    | _ => cases hreply
  · rw [request, hserve]
    exact hresult (by simp)
  · rw [request, hserve]
    exact hresult (by simp)

theorem request_concludes {s : Scheduler} (hs : s.inFlight = false) (scans : List Scan) (r : Request) :
    Concludes s (requestActs s scans r) r (request s scans r).2 (request s scans r).1.scheduler := by
  have hserves := request_spec hs scans r
  have hbreaks := request_breaks hs scans r
  have hwhole : ∀ {reply}, (request s scans r).2 = reply → (∀ kind message, reply ≠ .crash kind message) →
      (request s scans r).1.crash = none := by
    intro reply hreply hne
    rw [Option.eq_none_iff_forall_not_mem]
    rintro ⟨kind, message⟩ hx
    exact hne kind message (hreply.symm.trans ((request_reply hs scans r kind message).2 hx))
  refine ⟨hserves.state, hserves.idle, ?_, ?_, ?_, ?_⟩
  · rintro d force rfl hreply
    refine request_emptied hs scans _ ?_ ?_
    · intro reply h
      have hsame : (request s scans (.submit d force)).2 = reply := by
        rw [request, ← Prod.mk.eta (p := serve s (.submit d force)), h]
      rcases serve_submit_reply h with ⟨-, rfl, -⟩ | ⟨-, -, rfl, -⟩
      · rw [hsame] at hreply
        simp at hreply
      · rw [hsame] at hreply
        simp at hreply
    · rcases hreply with h | h
      · exact hwhole h (by simp)
      · exact hwhole h (by simp)
  · rintro n rfl hreply
    refine request_emptied hs scans _ ?_ (hwhole hreply (by simp))
    intro reply h
    rw [serve, hs] at h
    cases h
  · intro before d kind message after h
    rw [h] at hbreaks
    obtain ⟨rfl, hcrash⟩ := hbreaks.last (x := (kind, message)) rfl
    rw [← hserves.state, h, stateAfter_append]
    exact ⟨rfl, (request_reply hs scans r kind message).2 hcrash, rfl, rfl⟩
  · intro kind message hreply
    rw [(request_reply hs scans r kind message).1 hreply] at hbreaks
    obtain ⟨first, d, e, hacts, he, -⟩ := hbreaks
    rw [crash?_eq_some he] at hacts
    exact ⟨first, d, hacts⟩

/-- One scan at a time, in every run from the start. The flag is up exactly while a scan is running;
scans begin only where none is running, and what is asked meanwhile is answered without one. Each
request leaves the flag down, and no queue if it led to scans and ran to its end. A scan that breaks
off ends its request and changes neither the digests nor the queue. -/
theorem one_scan_at_a_time (useCache : Bool) (scans : List Scan) (requests : List Request) :
    let s : Scheduler := { useCache }
    let acts := history s scans requests
    Legal s acts ∧
      (∀ before after, acts = before ++ after →
        (stateAfter s before).inFlight = (running before).isSome) ∧
      (∀ before a after, acts = before ++ a :: after →
        (a.begun?.isSome = true → running before = none) ∧
        (∀ d e, a = .finish d e → running before = some d) ∧
        (∀ r reply, a = .answer r reply → running before ≠ none → Meanwhile r reply)) ∧
      (∀ done r rest, requests = done ++ r :: rest →
        let now := (resume s scans done).1
        let coming := (resume s scans done).2
        let result := (request now coming r).1
        let reply := (request now coming r).2
        run s scans requests =
          run s scans done ++ (result, reply) :: run result.scheduler result.scans rest ∧
        acts = history s scans done ++
          (requestActs now coming r ++ history result.scheduler result.scans rest) ∧
        Concludes now (requestActs now coming r) r reply result.scheduler) := by
  intro s acts
  have hlegal : Legal s acts := (history_spec (s := s) rfl scans requests).1
  refine ⟨hlegal, ?_, ?_, ?_⟩
  · intro before after h
    rw [h, legal_append] at hlegal
    exact inFlight_eq_running rfl hlegal.1
  · intro before a after h
    obtain ⟨hfits, hflag, hend⟩ := history_at (s := s) rfl h
    refine ⟨running_eq_none_of_begun hfits hflag, hend, ?_⟩
    rintro r reply rfl hrunning
    rw [Option.isSome_iff_ne_none.2 hrunning] at hflag
    exact meanwhile_of_inFlight hflag hfits
  · rintro done r rest rfl
    exact ⟨run_append s scans done (r :: rest), history_append s scans done (r :: rest),
      request_concludes (resume_inFlight rfl scans done) _ r⟩

end DesignLint.Schedule
