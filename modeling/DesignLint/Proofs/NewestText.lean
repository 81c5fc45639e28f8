import DesignLint.Proofs.FinishedScans

/-! Which text of a document is known at the end. In a run in which no scan fails and nothing is
forgotten, the digest that is kept of a document is that of the newest submission that was accepted,
that is queued or scanned at once. A submission is skipped if its text is that of the last finished
scan, even if another text of the document is in flight or waits meanwhile; that other text then
prevails, although it is older. -/

namespace DesignLint.Schedule

def Act.submitted? : Act → Option Document
  | .answer (.submit d _) _ => some d
  | .begin d => some d
  | _ => none

def Act.accepted? : Act → Option Document
  | .answer (.submit d _) (.outcome .queued) => some d
  | .begin d => some d
  | _ => none

def Act.keeps : Act → Bool
  | .finish _ e => e.succeeded
  | .answer (.forget _) _ => false
  | .answer .clear _ => false
  | _ => true

/-- The document of the newest submission under a path that was accepted. -/
def newestAccepted (key : String) (acts : List Act) : Option Document :=
  (latest (fun a => a.accepted?.any (·.path == key)) acts).bind Act.accepted?

theorem any_path_eq_false {key : String} {o : Option Document} (h : ∀ d ∈ o, d.path ≠ key) :
    o.any (·.path == key) = false := by
  cases o with
  | none => rfl
  | some d => simpa using h d rfl

theorem newestAccepted_snoc_same {key : String} {acts : List Act} {a : Act}
    (h : ∀ d ∈ a.accepted?, d.path ≠ key) :
    newestAccepted key (acts ++ [a]) = newestAccepted key acts := by
  rw [newestAccepted, latest_snoc, any_path_eq_false h]
  rfl

theorem newestAccepted_snoc_new {acts : List Act} {a : Act} {d : Document}
    (h : a.accepted? = some d) : newestAccepted d.path (acts ++ [a]) = some d := by
  have hany : a.accepted?.any (·.path == d.path) = true := by simp [h]
  rw [newestAccepted, latest_snoc, if_pos hany]
  exact h

theorem newestAccepted_append_same {key : String} {after : List Act} (before : List Act)
    (h : ∀ a ∈ after, ∀ d ∈ a.accepted?, d.path ≠ key) :
    newestAccepted key (before ++ after) = newestAccepted key before := by
  rw [newestAccepted, latest_append_of_none, newestAccepted]
  exact fun a ha => any_path_eq_false (h a ha)

theorem Act.submitted?_of_accepted? {a : Act} {d : Document} (h : a.accepted? = some d) :
    a.submitted? = some d := by
  unfold Act.accepted? at h
  split at h
  · exact h
  · exact h
  · cases h

/-- A submission is accepted, or skipped because its text is known. -/
theorem Act.submitted?_cases {s : Scheduler} {a : Act} {d : Document} (ha : a.Fits s)
    (h : a.submitted? = some d) :
    a.accepted? = some d ∨ ∃ force, a = .answer (.submit d force) (.outcome .skipped) ∧
      s.digests.lookup d.path = some d.digest := by
  cases a with
  | answer r reply =>
    cases r with
    | submit d' force =>
      cases h
      rcases serve_submit_reply ha with ⟨hsettled, rfl, -⟩ | ⟨-, -, rfl, -⟩
      · exact Or.inr ⟨force, rfl, ((isSettled_iff s d force).1 hsettled).2.2⟩
      · exact Or.inl rfl
    | _ => cases h
  | begin d' => exact Or.inl h
  | pop d' scanned => cases h
  | finish d' e => cases h

def Waits (key : String) (queue : List Waiting) : Prop :=
  ∃ w ∈ queue, w.document.path = key

def Busy (key : String) (running : Option Document) (queue : List Waiting) : Prop :=
  (∃ d ∈ running, d.path = key) ∨ Waits key queue

theorem mem_enqueue {queue : List Waiting} {w x : Waiting} (hx : x ∈ Scheduler.enqueue queue w) :
    x.document = w.document ∨ x ∈ queue ∧ x.document.path ≠ w.document.path := by
  unfold Scheduler.enqueue at hx
  split_ifs at hx with hany
  · obtain ⟨q, hq, rfl⟩ := List.mem_map.1 hx
    by_cases hpath : q.document.path = w.document.path
    · simp [hpath]
    · simp [hpath, hq]
  · rcases List.mem_append.1 hx with hx | hx
    · refine Or.inr ⟨hx, fun hpath => hany ?_⟩
      exact List.any_eq_true.2 ⟨x, hx, by simpa using hpath⟩
    · exact Or.inl (by rw [List.mem_singleton.1 hx])

theorem waits_enqueue {key : String} {queue : List Waiting} {w : Waiting} :
    Waits key (Scheduler.enqueue queue w) ↔ w.document.path = key ∨ Waits key queue := by
  unfold Scheduler.enqueue Waits
  split_ifs with hany
  · obtain ⟨q, hq, hpath⟩ := List.any_eq_true.1 hany
    have hkeeps : ∀ q : Waiting, (if q.document.path == w.document.path then
        (⟨w.document, q.force || w.force⟩ : Waiting) else q).document.path = q.document.path := by
      intro q
      by_cases hpath : q.document.path = w.document.path
      · simp [hpath]
      · simp [hpath]
    simp only [List.mem_map, exists_exists_and_eq_and, hkeeps]
    refine ⟨Or.inr, ?_⟩
    rintro (rfl | h)
    · exact ⟨q, hq, by simpa using hpath⟩
    · exact h
  · simp only [List.mem_append, List.mem_singleton, or_and_right, exists_or, exists_eq_left]
    exact Or.comm

/-- What will be known of a document once the queue is empty: the text that waits, else the one that
is being scanned, else what is known already. -/
structure Settles (key : String) (digest : Option String) (running : Option Document)
    (s : Scheduler) : Prop where
  waiting : ∀ w ∈ s.pending, w.document.path = key → some w.document.digest = digest
  flying : ¬Waits key s.pending → ∀ d ∈ running, d.path = key → some d.digest = digest
  known : ¬Busy key running s.pending → s.digests.lookup key = digest

namespace Settles

variable {key : String} {digest : Option String} {r : Option Document} {s : Scheduler}

theorem start (key : String) (useCache : Bool) : Settles key none none { useCache } where
  waiting w hw := absurd hw List.not_mem_nil
  flying _ d hd := by cases hd
  known _ := rfl

/-- Of a document that is busy something will be known. -/
theorem exists_of_busy (h : Settles key digest r s) (hbusy : Busy key r s.pending) :
    ∃ x, digest = some x := by
  by_cases hwaits : Waits key s.pending
  · obtain ⟨w, hw, hpath⟩ := hwaits
    exact ⟨_, (h.waiting w hw hpath).symm⟩
  · obtain ⟨d, hd, hpath⟩ := hbusy.resolve_right hwaits
    exact ⟨_, (h.flying hwaits d hd hpath).symm⟩

theorem queue_other (h : Settles key digest r s) {w : Waiting} (hw : w.document.path ≠ key) :
    Settles key digest r { s with pending := Scheduler.enqueue s.pending w } := by
  have hwaits : Waits key (Scheduler.enqueue s.pending w) ↔ Waits key s.pending := by
    rw [waits_enqueue, or_iff_right hw]
  refine ⟨?_, ?_, ?_⟩
  · intro x hx hpath
    rcases mem_enqueue hx with hx | ⟨hx, -⟩
    · exact absurd (hx ▸ hpath) hw
    · exact h.waiting x hx hpath
  · intro hno
    exact h.flying (mt hwaits.2 hno)
  · intro hno
    exact h.known (mt (Or.imp id hwaits.2) hno)

theorem queue_own (r : Option Document) (s : Scheduler) (w : Waiting) :
    Settles w.document.path (some w.document.digest) r
      { s with pending := Scheduler.enqueue s.pending w } := by
  have hwaits : Waits w.document.path (Scheduler.enqueue s.pending w) := waits_enqueue.2 (Or.inl rfl)
  refine ⟨?_, fun hno => absurd hwaits hno, fun hno => absurd (Or.inr hwaits) hno⟩
  intro x hx hpath
  rcases mem_enqueue hx with hx | ⟨-, hne⟩
  · rw [hx]
  · exact absurd hpath hne

theorem begin_own {d : Document} (hs : s.pending = []) :
    Settles d.path (some d.digest) (some d) s.start := by
  refine ⟨?_, ?_, ?_⟩
  · intro w hw
    exact absurd (hs ▸ hw) List.not_mem_nil
  · rintro - d' ⟨⟩ -
    rfl
  · intro hno
    exact absurd (Or.inl ⟨d, rfl, rfl⟩) hno

theorem begin_other {d : Document} (h : Settles key digest none s) (hd : d.path ≠ key) :
    Settles key digest (some d) s.start := by
  refine ⟨h.waiting, ?_, ?_⟩
  · rintro - d' ⟨⟩ hpath
    exact absurd hpath hd
  · intro hno
    refine h.known fun hbusy => hno ?_
    rcases hbusy with ⟨d', hd', -⟩ | hwaits
    · cases hd'
    · exact Or.inr hwaits

/-- The first document of the queue is dropped because its text is known, or its scan begins. -/
theorem pop {d : Document} {scanned : Bool} (h : Settles key digest none s)
    (ha : (Act.pop d scanned).Fits s) :
    Settles key digest (if scanned then some d else none)
      { s with pending := s.pending.tail, inFlight := scanned } := by
  obtain ⟨-, w, hw, rfl, hscanned⟩ := ha
  obtain ⟨queue, hqueue⟩ := List.head?_eq_some_iff.1 hw
  have hmem : w ∈ s.pending := List.mem_of_head? hw
  have hwaits : Waits key s.pending ↔ w.document.path = key ∨ Waits key queue := by
    simp [Waits, hqueue]
  rw [hqueue, List.tail_cons]
  refine ⟨?_, ?_, ?_⟩
  · intro x hx
    exact h.waiting x (hqueue ▸ List.mem_cons_of_mem w hx)
  · intro _ d hd hpath
    cases scanned with
    | false => cases hd
    | true =>
      cases hd
      exact h.waiting w hmem hpath
  · intro hno
    by_cases hpath : w.document.path = key
    · cases scanned with
      | true => exact absurd (Or.inl ⟨w.document, rfl, hpath⟩) hno
      | false =>
        have hsettled : s.isSettled ⟨w.document, w.force⟩ = true := by simpa using hscanned.symm
        rw [← h.waiting w hmem hpath, ← hpath]
        exact ((isSettled_iff s w.document w.force).1 hsettled).2.2
    · refine h.known ?_
      rintro (⟨d, hd, -⟩ | hbusy)
      · cases hd
      · rcases hwaits.1 hbusy with hw | hw
        · exact hpath hw
        · exact hno (Or.inr hw)

theorem finish {d : Document} (h : Settles key digest (some d) s) :
    Settles key digest none (s.finish d true) := by
  refine ⟨h.waiting, ?_, ?_⟩
  · rintro - d' ⟨⟩
  · intro hno
    have hwaits : ¬Waits key s.pending := fun hw => hno (Or.inr hw)
    change (Assoc.set s.digests d.path d.digest).lookup key = digest
    rw [Assoc.lookup_set]
    by_cases hpath : key = d.path
    · rw [if_pos hpath]
      exact h.flying hwaits d rfl hpath.symm
    · rw [if_neg hpath]
      refine h.known ?_
      rintro (⟨d', ⟨⟩, hd⟩ | hw)
      · exact hpath hd.symm
      · exact hwaits hw

/-- What is accepted for the document will be known of it. -/
theorem accept {a : Act} {d : Document} (ha : a.Fits s) (hd : a.accepted? = some d)
    (hbegin : ∀ d, a = .begin d → s.pending = []) (r : Option Document) :
    Settles d.path (some d.digest) (runningStep r a) (a.after s) := by
  cases a with
  | begin d' =>
    cases hd
    exact begin_own (hbegin d rfl)
  | answer q reply =>
    cases q with
    | submit d' force =>
      rcases serve_submit_reply ha with ⟨-, rfl, -⟩ | ⟨-, -, rfl, hstate⟩
      · cases hd
      · cases hd
        rw [Act.after, hstate]
        exact queue_own r s ⟨d, force⟩
    | _ => cases hd
  | pop d' scanned => cases hd
  | finish d' e => cases hd

/-- No other act changes what will be known of the document. -/
theorem step {a : Act} (h : Settles key digest r s) (ha : a.Fits s)
    (hflag : s.inFlight = r.isSome) (hend : ∀ d e, a = .finish d e → r = some d)
    (hkeeps : a.keeps = true) (hother : ∀ d ∈ a.accepted?, d.path ≠ key) :
    Settles key digest (runningStep r a) (a.after s) := by
  have hidle : s.inFlight = false → r = none := by
    intro hs
    rw [hs] at hflag
    simpa using hflag.symm
  cases a with
  | begin d =>
    rw [hidle (serve_scan_idle ha.choose_spec)] at h
    exact h.begin_other (hother d rfl)
  | answer q reply =>
    cases q with
    | submit d force =>
      rw [Act.after]
      rcases serve_submit_reply ha with ⟨-, rfl, hstate⟩ | ⟨-, -, rfl, hstate⟩
      · rw [hstate]
        exact h
      · rw [hstate]
        exact h.queue_other (w := ⟨d, force⟩) (hother d rfl)
    | forget path => cases hkeeps
    | clear => cases hkeeps
    | idle => exact h
    | isCached d => exact h
    | digest d => exact h
  | pop d scanned =>
    rw [hidle ha.1] at h ⊢
    cases scanned with
    | true => exact h.pop ha
    | false => exact h.pop ha
  | finish d e =>
    rw [hend d e rfl] at h
    have he : e.succeeded = true := hkeeps
    rw [Act.after, he]
    exact h.finish

end Settles

section Kept

variable {s : Scheduler} {scans : List Scan}

theorem crash?_of_succeeded {e : Ending} (h : e.succeeded = true) : crash? e = none := by
  cases e with
  | success => rfl
  | failure => cases h
  | crash kind message => cases h

theorem request_crash_none (hs : s.inFlight = false) {r : Request}
    (hkept : ∀ a ∈ requestActs s scans r, a.keeps = true) : (request s scans r).1.crash = none := by
  have hbreaks := request_breaks hs scans r
  cases hcrash : (request s scans r).1.crash with
  | none => rfl
  | some x =>
    rw [hcrash] at hbreaks
    obtain ⟨first, d, e, hacts, he, -⟩ := hbreaks
    have hend := hkept (.finish d e) (hacts ▸ List.mem_append_right first List.mem_cons_self)
    rw [crash?_of_succeeded hend] at he
    cases he

theorem begin_not_mem_events (d : Document) (events : List Event) :
    .begin d ∉ events.flatMap Event.acts := by
  intro h
  obtain ⟨event, -, hevent⟩ := List.mem_flatMap.1 h
  cases event with
  | drop d' => simp [Event.acts] at hevent
  | scan call => simp [Event.acts, Call.acts] at hevent

/-- Only the first act of a request can begin the scan of a submitted document. -/
theorem eq_nil_of_begin {r : Request} {before after : List Act} {d : Document}
    (h : requestActs s scans r = before ++ .begin d :: after) : before = [] := by
  have htail : .begin d ∉ (requestActs s scans r).tail := by
    unfold requestActs
    split
    · simp
    next call events _ _ =>
      rw [List.cons_append, List.tail_cons, List.mem_append, not_or]
      exact ⟨by simp [Call.acts], begin_not_mem_events d events⟩
    · exact fun hmem => begin_not_mem_events d _ (List.mem_of_mem_tail hmem)
  cases before with
  | nil => rfl
  | cons a before =>
    rw [h, List.cons_append, List.tail_cons] at htail
    exact absurd (List.mem_append_right before List.mem_cons_self) htail

/-- As long as no scan fails, submissions are scanned at once only when nothing waits. -/
theorem history_begin {requests : List Request} (hs : s.inFlight = false) (hp : s.pending = [])
    (hkept : ∀ a ∈ history s scans requests, a.keeps = true) {before after : List Act} {d : Document}
    (h : history s scans requests = before ++ .begin d :: after) :
    (stateAfter s before).pending = [] := by
  induction requests generalizing s scans before with
  | nil => simp [history] at h
  | cons r requests ih =>
    have hserves := request_spec hs scans r
    have hcrash := request_crash_none hs fun a ha => hkept a (List.mem_append_left _ ha)
    have hrest : ∀ more : List Act,
        history (request s scans r).1.scheduler (request s scans r).1.scans requests =
          more ++ .begin d :: after →
        (stateAfter (request s scans r).1.scheduler more).pending = [] :=
      fun _ => ih hserves.idle (request_pending hs hp scans r hcrash)
        (fun a ha => hkept a (List.mem_append_right _ ha))
    rw [history] at h
    rcases List.append_eq_append_iff.1 h with ⟨more, rfl, hmore⟩ | ⟨more, hacts, hmore⟩
    · rw [stateAfter_append, hserves.state]
      exact hrest more hmore
    · cases more with
      | nil =>
        rw [List.append_nil] at hacts
        rw [← hacts, hserves.state]
        exact hrest [] hmore.symm
      | cons a more =>
        cases hmore
        rw [eq_nil_of_begin hacts]
        exact hp

theorem resume_pending {requests : List Request} (hs : s.inFlight = false) (hp : s.pending = [])
    (hkept : ∀ a ∈ history s scans requests, a.keeps = true) :
    (resume s scans requests).1.pending = [] := by
  induction requests generalizing s scans with
  | nil => exact hp
  | cons r requests ih =>
    refine ih (request_spec hs scans r).idle (request_pending hs hp scans r ?_) ?_
    · exact request_crash_none hs fun a ha => hkept a (List.mem_append_left _ ha)
    · exact fun a ha => hkept a (List.mem_append_right _ ha)

end Kept

/-- At every point of the run, what will be known of a document is the newest text accepted for it. -/
theorem history_settles {useCache : Bool} {scans : List Scan} {requests : List Request}
    (hkept : ∀ a ∈ history { useCache } scans requests, a.keeps = true) (key : String)
    {before after : List Act} (h : history { useCache } scans requests = before ++ after) :
    Settles key ((newestAccepted key before).map Document.digest) (running before)
      (stateAfter { useCache } before) := by
  induction before using List.reverseRecOn generalizing after with
  | nil => exact Settles.start key useCache
  | append_singleton before a ih =>
    rw [List.append_assoc, List.singleton_append] at h
    obtain ⟨hfits, hflag, hend⟩ := history_at rfl h
    rw [running_snoc, stateAfter_append]
    by_cases haccepted : ∀ d ∈ a.accepted?, d.path ≠ key
    · rw [newestAccepted_snoc_same haccepted]
      refine (ih h).step hfits hflag hend (hkept a ?_) haccepted
      rw [h]
      exact List.mem_append_right before List.mem_cons_self
    · push Not at haccepted
      obtain ⟨d, hd, rfl⟩ := haccepted
      rw [newestAccepted_snoc_new hd]
      refine Settles.accept hfits hd ?_ _
      rintro d' rfl
      exact history_begin rfl rfl hkept h

/-- In a run in which no scan fails and nothing is forgotten, the digest that is known of a submitted
document is that of the newest text that was accepted for it. That is the text of its newest
submission, unless this was skipped while a text of the document was in flight or waiting. -/
theorem newest_accepted_text_known (useCache : Bool) (scans : List Scan) (requests : List Request)
    (hkept : ∀ a ∈ history { useCache } scans requests, a.keeps = true) :
    let s : Scheduler := { useCache }
    let acts := history s scans requests
    let t := (resume s scans requests).1
    t.inFlight = false ∧ t.pending = [] ∧
      ∀ before a after d, acts = before ++ a :: after → a.submitted? = some d →
        (∀ b ∈ after, ∀ d' ∈ b.submitted?, d'.path ≠ d.path) →
        ∃ d', newestAccepted d.path acts = some d' ∧ t.digests.lookup d.path = some d'.digest ∧
          (d'.digest = d.digest ∨
            (∃ force, a = .answer (.submit d force) (.outcome .skipped)) ∧
              Busy d.path (running before) (stateAfter s before).pending) := by
  intro s acts t
  have hflag : t.inFlight = false := resume_inFlight rfl scans requests
  have hpending : t.pending = [] := resume_pending rfl rfl hkept
  refine ⟨hflag, hpending, ?_⟩
  intro before a after d h hd hafter
  obtain ⟨hfits, -⟩ := history_at (s := s) rfl h
  have hknown : t.digests.lookup d.path = (newestAccepted d.path acts).map Document.digest := by
    have hlast := (history_settles hkept d.path (List.append_nil acts).symm).known
    rw [stateAfter_history rfl] at hlast
    refine hlast ?_
    -- at the end nothing is in flight and nothing waits
    rintro (⟨d', hd', -⟩ | ⟨w, hw, -⟩)
    · have hrunning := inFlight_eq_running (s := s) rfl (history_spec rfl scans requests).1
      rw [stateAfter_history rfl, hflag, Option.mem_def.1 hd'] at hrunning
      cases hrunning
    · exact absurd (hpending ▸ hw) List.not_mem_nil
  have hlater : newestAccepted d.path acts = newestAccepted d.path (before ++ [a]) := by
    rw [h, List.append_cons]
    refine newestAccepted_append_same _ ?_
    intro b hb d' hd'
    exact hafter b hb d' (Act.submitted?_of_accepted? hd')
  rcases Act.submitted?_cases hfits hd with haccepted | ⟨force, rfl, hlookup⟩
  · rw [hlater, newestAccepted_snoc_new haccepted] at hknown ⊢
    exact ⟨d, rfl, hknown, Or.inl rfl⟩
  · rw [newestAccepted_snoc_same (by simp [Act.accepted?])] at hlater
    have hbefore := history_settles hkept d.path h
    by_cases hbusy : Busy d.path (running before) (stateAfter s before).pending
    · obtain ⟨x, hx⟩ := hbefore.exists_of_busy hbusy
      obtain ⟨d', hd', -⟩ := Option.map_eq_some_iff.1 hx
      rw [hlater, hd'] at hknown ⊢
      exact ⟨d', rfl, hknown, Or.inr ⟨⟨force, rfl⟩, hbusy⟩⟩
    · have hsame := (hbefore.known hbusy).symm.trans hlookup
      obtain ⟨d', hd', hdigest⟩ := Option.map_eq_some_iff.1 hsame
      rw [hlater, hd'] at hknown ⊢
      exact ⟨d', rfl, hknown, Or.inl hdigest⟩

/-- Two documents; the second text of the first one waits while its first one is scanned. -/
theorem newest_accepted_text_known_resubmitted :
    let scans : List Scan := [⟨[.submit ⟨"a", "2", none⟩ false], .success⟩]
    let requests : List Request := [.submit ⟨"a", "1", none⟩ false, .submit ⟨"b", "1", none⟩ true]
    (∀ a ∈ history {} scans requests, a.keeps = true) ∧
      ∃ d', newestAccepted "a" (history {} scans requests) = some d' ∧
        (resume {} scans requests).1.digests.lookup "a" = some d'.digest := by
  intro scans requests
  have hkept : ∀ a ∈ history {} scans requests, a.keeps = true := by decide +kernel
  have hacts : history {} scans requests =
      [.begin ⟨"a", "1", none⟩] ++ .answer (.submit ⟨"a", "2", none⟩ false) (.outcome .queued) ::
        [.finish ⟨"a", "1", none⟩ .success, .pop ⟨"a", "2", none⟩ true,
          .finish ⟨"a", "2", none⟩ .success, .begin ⟨"b", "1", none⟩,
          .finish ⟨"b", "1", none⟩ .success] := by decide +kernel
  obtain ⟨d', hd', hlookup, -⟩ := (newest_accepted_text_known true scans requests hkept).2.2 _ _ _
    ⟨"a", "2", none⟩ hacts rfl (by decide)
  exact ⟨hkept, d', hd', hlookup⟩

/-- A text that is changed and changed back while another scan is in flight: the newest submission is
skipped, and the text in between, which waits, is scanned and prevails. -/
theorem reverted_text_does_not_prevail :
    let scans : List Scan := [⟨[], .success⟩, ⟨[.submit ⟨"b.py", "x = 2", none⟩ false,
      .submit ⟨"b.py", "x = 1", none⟩ false], .success⟩]
    let requests : List Request :=
      [.submit ⟨"b.py", "x = 1", none⟩ false, .submit ⟨"a.py", "x = 1", none⟩ false]
    let acts := history {} scans requests
    (∀ a ∈ acts, a.keeps = true) ∧
      (latest (fun a => a.submitted?.any (·.path == "b.py")) acts).bind Act.submitted? =
        some ⟨"b.py", "x = 1", none⟩ ∧
      (resume {} scans requests).1.digests.lookup "b.py" = some (Digest.ofText "x = 2") ∧
      Digest.ofText "x = 2" ≠ Digest.ofText "x = 1" := by
  decide +kernel

end DesignLint.Schedule
