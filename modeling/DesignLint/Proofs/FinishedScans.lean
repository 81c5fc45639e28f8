import DesignLint.Proofs.NamedEntries
import DesignLint.Proofs.ScanLifetime

/-! What the scheduler knows of a document. At every point of a run it is what the latest act left that
decides about the document: the digest of the text whose scan succeeded, or nothing once the document
was forgotten or everything cleared. So a submission is skipped exactly when that act is a successful
scan of a text with the same digest. -/

namespace DesignLint.Schedule

def Act.decides (key : String) : Act → Bool
  | .finish d .success => d.path == key
  | .answer (.forget path) _ => path == key
  | .answer .clear _ => true
  | _ => false

def Act.digest? : Act → Option String
  | .finish d _ => some d.digest
  | _ => none

/-- The latest act that decides about a document is a successful scan of a text with this digest. -/
def LastScanned (key digest : String) (acts : List Act) : Prop :=
  ∃ d, latest (Act.decides key) acts = some (.finish d .success) ∧ d.path = key ∧ d.digest = digest

theorem serve_reply_digests {s : Scheduler} {d : Document} {force : Bool} {reply : Reply}
    (h : (serve s (.submit d force)).2 = .reply reply) :
    (serve s (.submit d force)).1.digests = s.digests := by
  rcases serve_submit_reply h with ⟨-, -, hs⟩ | ⟨-, -, -, hs⟩
  · rw [hs]
  · rw [hs]

/-- An act changes what is known of a document only if it decides about it. -/
theorem Act.lookup_after {s : Scheduler} {a : Act} (ha : a.Fits s) (key : String) :
    (a.after s).digests.lookup key =
      if a.decides key = true then a.digest? else s.digests.lookup key := by
  cases a with
  | answer r reply =>
    cases r with
    | submit d force => exact congrArg (List.lookup key) (serve_reply_digests ha)
    | forget path =>
      change (Assoc.erase s.digests path).lookup key = _
      rw [Assoc.lookup_erase]
      by_cases hk : key = path
      · simp [Act.decides, Act.digest?, hk]
      · simp [Act.decides, hk, Ne.symm hk]
    | clear => rfl
    | idle => rfl
    | isCached d => rfl
    | digest d => rfl
  | begin d => rfl
  | pop d scanned => rfl
  | finish d e =>
    cases e with
    | success =>
      change (Assoc.set s.digests d.path d.digest).lookup key = _
      rw [Assoc.lookup_set]
      by_cases hk : key = d.path
      · simp [Act.decides, Act.digest?, hk]
      · simp [Act.decides, hk, Ne.symm hk]
    | failure => rfl
    | crash kind message => rfl

theorem lookup_eq_latest {useCache : Bool} {acts : List Act} (h : Legal { useCache } acts)
    (key : String) : (stateAfter { useCache } acts).digests.lookup key =
      (latest (Act.decides key) acts).bind Act.digest? := by
  refine h.run (I := fun acts t => t.digests.lookup key =
    (latest (Act.decides key) acts).bind Act.digest?) rfl ?_
  intro before a t _ hfits ht
  rw [Act.lookup_after hfits, latest_snoc, ht]
  split_ifs
  · rfl
  · rfl

theorem lastScanned_iff {key digest : String} {acts : List Act} :
    (latest (Act.decides key) acts).bind Act.digest? = some digest ↔
      LastScanned key digest acts := by
  refine ⟨fun h => ?_, ?_⟩
  · obtain ⟨a, ha, hdigest⟩ := Option.bind_eq_some_iff.1 h
    have hdecides : a.decides key = true := List.find?_some ha
    cases a with
    | finish d e =>
      cases e with
      | success => exact ⟨d, ha, by simpa [Act.decides] using hdecides, Option.some.inj hdigest⟩
      | failure => cases hdecides
      | crash kind message => cases hdecides
    | answer r reply => cases hdigest
    | begin d => cases hdigest
    | pop d scanned => cases hdigest
  · rintro ⟨d, hd, -, rfl⟩
    rw [hd]
    rfl

theorem isSettled_iff (s : Scheduler) (d : Document) (force : Bool) :
    s.isSettled ⟨d, force⟩ = true ↔
      s.useCache = true ∧ force = false ∧ s.digests.lookup d.path = some d.digest := by
  simp only [Scheduler.isSettled, Scheduler.isCached, Bool.and_eq_true, Bool.not_eq_true', beq_iff_eq]
  tauto

/-- A settled submission is skipped and changes nothing, whether a scan is in flight or not. -/
theorem submit_of_settled {s : Scheduler} {d : Document} {force : Bool}
    (h : s.isSettled ⟨d, force⟩ = true) (coming : List Scan) :
    request s coming (.submit d force) = (⟨s, coming, [], none⟩, .outcome .skipped) ∧
      serveDuring s (.submit d force) = (s, answer s (.outcome .skipped)) := by
  simp [request, serveDuring, serve, Scheduler.decision, h]

/-- A submission that is not settled is not skipped. -/
theorem submit_of_not_settled {s : Scheduler} {d : Document} {force : Bool}
    (h : s.isSettled ⟨d, force⟩ = false) (coming : List Scan) :
    (request s coming (.submit d force)).2 ≠ .outcome .skipped ∧
      (serveDuring s (.submit d force)).2.reply ≠ .outcome .skipped := by
  have hreply : ∀ (result : Result) (e : Ending),
      result.reply (.outcome e.outcome) ≠ .outcome .skipped := by
    intro result e
    unfold Result.reply
    cases result.crash with
    | some x => simp
    | none => cases e <;> simp [Ending.outcome]
  cases hflight : s.inFlight with
  | true => simp [request, serveDuring, serve, Scheduler.decision, h, hflight, answer]
  | false => simp [request, serveDuring, serve, Scheduler.decision, h, hflight, answer, hreply]

/-- At every point of every run the digests are those of the latest successful scans that were not
forgotten since, and these alone settle which submissions are skipped; a skipped submission calls for
no scan and changes nothing. -/
theorem digests_of_last_scans (useCache : Bool) (scans : List Scan) (requests : List Request) :
    let s : Scheduler := { useCache }
    let acts := history s scans requests
    Legal s acts ∧ stateAfter s acts = (resume s scans requests).1 ∧
      ∀ before after, acts = before ++ after →
        let t := stateAfter s before
        (∀ key digest, t.digests.lookup key = some digest ↔ LastScanned key digest before) ∧
        ∀ d force coming,
          let settled := useCache = true ∧ force = false ∧ LastScanned d.path d.digest before
          ((request t coming (.submit d force)).2 = .outcome .skipped ↔ settled) ∧
          ((serveDuring t (.submit d force)).2.reply = .outcome .skipped ↔ settled) ∧
          (settled →
            request t coming (.submit d force) = (⟨t, coming, [], none⟩, .outcome .skipped) ∧
            serveDuring t (.submit d force) = (t, answer t (.outcome .skipped))) := by
  intro s acts
  have hlegal : Legal s acts := (history_spec (s := s) rfl scans requests).1
  refine ⟨hlegal, stateAfter_history rfl scans requests, ?_⟩
  intro before after h t
  rw [h, legal_append] at hlegal
  have hknown : ∀ key digest, t.digests.lookup key = some digest ↔ LastScanned key digest before := by
    intro key digest
    rw [lookup_eq_latest hlegal.1, lastScanned_iff]
  refine ⟨hknown, ?_⟩
  intro d force coming settled
  have hsettled : t.isSettled ⟨d, force⟩ = true ↔ settled := by
    rw [isSettled_iff, stateAfter_useCache, hknown]
  rw [← hsettled]
  cases hd : t.isSettled ⟨d, force⟩ with
  | true =>
    obtain ⟨hrequest, hduring⟩ := submit_of_settled hd coming
    rw [hrequest, hduring]
    simp [answer]
  | false =>
    obtain ⟨hrequest, hduring⟩ := submit_of_not_settled hd coming
    simp [hrequest, hduring]

end DesignLint.Schedule
