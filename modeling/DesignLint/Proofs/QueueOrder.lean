import DesignLint.Proofs.Timeline

/-! The queue of the scheduler against the history of a run. The slot of a document holds its queued
submissions since it was last taken off the queue. The queue has one place for each slot that is not
empty, in the order in which the slots were opened, with the newest document of the slot and the force
of any of its submissions; so nothing that was queued is lost, scanned twice or overtaken. -/

namespace DesignLint.Schedule

def slotStep (key : String) (slot : List (Waiting × Nat)) : Act × Nat → List (Waiting × Nat)
  | (.answer (.submit d force) (.outcome .queued), i) =>
    if d.path = key then slot ++ [(⟨d, force⟩, i)] else slot
  | (.pop d _, _) => if d.path = key then [] else slot
  | _ => slot

/-- The queued submissions of a document since it was last taken off the queue, each with its place in
the history. -/
def slot (key : String) (acts : List Act) : List (Waiting × Nat) :=
  acts.zipIdx.foldl (slotStep key) []

def opened (key : String) (acts : List Act) : Option Nat :=
  (slot key acts).head?.map (·.2)

section Slot

variable {key : String} {acts : List Act} {a : Act}

theorem slot_snoc (key : String) (acts : List Act) (a : Act) :
    slot key (acts ++ [a]) = slotStep key (slot key acts) (a, acts.length) := by
  simp [slot, List.zipIdx_append]

theorem slot_queued {d : Document} {force : Bool} :
    slot key (acts ++ [.answer (.submit d force) (.outcome .queued)]) =
      if d.path = key then slot key acts ++ [(⟨d, force⟩, acts.length)] else slot key acts :=
  slot_snoc key acts _

theorem slot_pop {d : Document} {scanned : Bool} :
    slot key (acts ++ [.pop d scanned]) = if d.path = key then [] else slot key acts :=
  slot_snoc key acts _

/-- The three things that can happen to a slot. -/
theorem slot_snoc_cases (key : String) (acts : List Act) (a : Act) :
    slot key (acts ++ [a]) = slot key acts ∨ slot key (acts ++ [a]) = [] ∨
      ∃ w, slot key (acts ++ [a]) = slot key acts ++ [(w, acts.length)] := by
  rw [slot_snoc]
  unfold slotStep
  split
  next d force i h =>
    obtain ⟨-, rfl⟩ := Prod.mk.inj h
    split_ifs
    · exact Or.inr (Or.inr ⟨_, rfl⟩)
    · exact Or.inl rfl
  next =>
    split_ifs
    · exact Or.inr (Or.inl rfl)
    · exact Or.inl rfl
  next => exact Or.inl rfl

theorem lt_length_of_mem_slot {x : Waiting × Nat} (hx : x ∈ slot key acts) : x.2 < acts.length := by
  induction acts using List.reverseRecOn with
  | nil => exact absurd hx List.not_mem_nil
  | append_singleton acts a ih =>
    rw [List.length_append, List.length_singleton]
    rcases slot_snoc_cases key acts a with h | h | ⟨w, h⟩
    · rw [h] at hx
      exact Nat.lt_succ_of_lt (ih hx)
    · rw [h] at hx
      exact absurd hx List.not_mem_nil
    · rw [h] at hx
      rcases List.mem_append.1 hx with hx | hx
      · exact Nat.lt_succ_of_lt (ih hx)
      · rw [List.mem_singleton.1 hx]
        exact Nat.lt_succ_self acts.length

theorem lt_length_of_opened {i : Nat} (hi : i ∈ opened key acts) : i < acts.length := by
  obtain ⟨x, hx, rfl⟩ := Option.map_eq_some_iff.1 hi
  exact lt_length_of_mem_slot (List.mem_of_head? hx)

theorem exists_opened (h : slot key acts ≠ []) : ∃ i, i ∈ opened key acts := by
  obtain ⟨x, rest, hx⟩ := List.exists_cons_of_ne_nil h
  exact ⟨x.2, by rw [opened, hx]; rfl⟩

/-- A slot keeps the place where it was opened. -/
theorem opened_snoc {j : Nat} (hj : j ∈ opened key (acts ++ [a])) :
    j ∈ opened key acts ∨ j = acts.length := by
  unfold opened at hj ⊢
  rcases slot_snoc_cases key acts a with h | h | ⟨w, h⟩
  · rw [h] at hj
    exact Or.inl hj
  · rw [h] at hj
    cases hj
  · rw [h] at hj
    cases hs : slot key acts with
    | nil =>
      rw [hs] at hj
      cases hj
      exact Or.inr rfl
    | cons x rest =>
      rw [hs] at hj
      exact Or.inl hj

/-- What is opened behind place `i` stays behind it. -/
theorem opened_append {i : Nat} {rest : List Act} (hi : i < acts.length)
    (h : ∀ key, ∀ j ∈ opened key acts, i < j) : ∀ key, ∀ j ∈ opened key (acts ++ rest), i < j := by
  induction rest using List.reverseRecOn with
  | nil => simpa using h
  | append_singleton rest a ih =>
    intro key j hj
    rw [← List.append_assoc] at hj
    rcases opened_snoc hj with hj | rfl
    · exact ih key j hj
    · rw [List.length_append]
      omega

end Slot

/-- The place in the queue of a slot: the newest document, forced if any submission was. -/
structure Merges (slot : List (Waiting × Nat)) (w : Waiting) : Prop where
  newest : slot.getLast?.map (·.1.document) = some w.document
  force : w.force = true ↔ ∃ x ∈ slot, x.1.force = true

theorem Merges.single (w : Waiting) (i : Nat) : Merges [(w, i)] w :=
  ⟨rfl, by simp⟩

theorem Merges.join {slot : List (Waiting × Nat)} {q : Waiting} (h : Merges slot q) (w : Waiting) (i : Nat) :
    Merges (slot ++ [(w, i)]) ⟨w.document, q.force || w.force⟩ := by
  refine ⟨by simp, ?_⟩
  rw [Bool.or_eq_true, h.force]
  simp [or_and_right, exists_or]

theorem Merges.ne_nil {slot : List (Waiting × Nat)} {w : Waiting} (h : Merges slot w) : slot ≠ [] := by
  rintro rfl
  cases h.newest

/-- The queue after these acts has the slots that are not empty, in the order of their opening. -/
structure Tracks (acts : List Act) (queue : List Waiting) : Prop where
  nodup : (queue.map (·.document.path)).Nodup
  merged : ∀ w ∈ queue, Merges (slot w.document.path acts) w
  waiting : ∀ key, slot key acts ≠ [] → key ∈ queue.map (·.document.path)
  ordered : queue.Pairwise fun a b =>
    ∀ i ∈ opened a.document.path acts, ∀ j ∈ opened b.document.path acts, i < j

namespace Tracks

variable {acts : List Act} {a : Act} {queue : List Waiting} {w : Waiting}

theorem start : Tracks [] [] :=
  ⟨List.nodup_nil, by simp, fun key h => absurd rfl h, List.Pairwise.nil⟩

/-- An act that changes no slot. -/
theorem same (h : Tracks acts queue) (ha : ∀ key, slot key (acts ++ [a]) = slot key acts) :
    Tracks (acts ++ [a]) queue := by
  refine ⟨h.nodup, ?_, ?_, ?_⟩
  · intro w hw
    rw [ha]
    exact h.merged w hw
  · intro key hkey
    rw [ha] at hkey
    exact h.waiting key hkey
  · simpa only [opened, ha] using h.ordered

/-- The first place of the queue is given up. -/
theorem pop (h : Tracks acts (w :: queue)) (scanned : Bool) :
    Tracks (acts ++ [.pop w.document scanned]) queue := by
  have hnodup := List.nodup_cons.1 h.nodup
  have hordered := List.pairwise_cons.1 h.ordered
  have hother : ∀ q ∈ queue, w.document.path ≠ q.document.path := by
    intro q hq he
    exact hnodup.1 (List.mem_map.2 ⟨q, hq, he.symm⟩)
  have hslot : ∀ q ∈ queue, slot q.document.path (acts ++ [.pop w.document scanned]) =
      slot q.document.path acts := by
    intro q hq
    rw [slot_pop, if_neg (hother q hq)]
  refine ⟨hnodup.2, ?_, ?_, ?_⟩
  · intro q hq
    rw [hslot q hq]
    exact h.merged q (List.mem_cons_of_mem w hq)
  · intro key hkey
    rw [slot_pop] at hkey
    split_ifs at hkey with hw
    · exact absurd rfl hkey
    · rcases List.mem_cons.1 (h.waiting key hkey) with hk | hk
      · exact absurd hk.symm hw
      · exact hk
  · refine hordered.2.imp_of_mem ?_
    intro p q hp hq hpq
    simpa only [opened, hslot p hp, hslot q hq] using hpq

/-- A submission whose document has no place in the queue opens its slot. -/
theorem enqueue_new (h : Tracks acts queue) (hw : w.document.path ∉ queue.map (·.document.path)) :
    Tracks (acts ++ [.answer (.submit w.document w.force) (.outcome .queued)]) (queue ++ [w]) := by
  have hother : ∀ q ∈ queue, w.document.path ≠ q.document.path := by
    intro q hq he
    exact hw (List.mem_map.2 ⟨q, hq, he.symm⟩)
  have hempty : slot w.document.path acts = [] := by
    by_contra hne
    exact hw (h.waiting _ hne)
  have hown : slot w.document.path
      (acts ++ [.answer (.submit w.document w.force) (.outcome .queued)]) = [(w, acts.length)] := by
    rw [slot_queued, if_pos rfl, hempty, List.nil_append]
  have hslot : ∀ q ∈ queue, slot q.document.path
      (acts ++ [.answer (.submit w.document w.force) (.outcome .queued)]) =
        slot q.document.path acts := by
    intro q hq
    rw [slot_queued, if_neg (hother q hq)]
  refine ⟨?_, ?_, ?_, ?_⟩
  · rw [List.map_append, List.map_singleton, ← List.concat_eq_append]
    exact h.nodup.concat hw
  · intro q hq
    rcases List.mem_append.1 hq with hq | hq
    · rw [hslot q hq]
      exact h.merged q hq
    · rw [List.mem_singleton.1 hq, hown]
      exact Merges.single w _
  · intro key hkey
    rw [List.map_append, List.mem_append]
    rw [slot_queued] at hkey
    split_ifs at hkey with hk
    · exact Or.inr (List.mem_singleton.2 hk.symm)
    · exact Or.inl (h.waiting key hkey)
  · refine List.pairwise_append.2 ⟨?_, List.pairwise_singleton _ w, ?_⟩
    · refine h.ordered.imp_of_mem ?_
      intro p q hp hq hpq
      simpa only [opened, hslot p hp, hslot q hq] using hpq
    · intro p hp q hq i hi j hj
      -- the new slot is opened by the newest act of all
      rw [List.mem_singleton.1 hq, opened, hown] at hj
      rw [opened, hslot p hp] at hi
      cases hj
      exact lt_length_of_opened hi

/-- A submission whose document waits joins its slot, which keeps its place. -/
theorem enqueue_again (h : Tracks acts queue) (hw : w.document.path ∈ queue.map (·.document.path)) :
    Tracks (acts ++ [.answer (.submit w.document w.force) (.outcome .queued)])
      (queue.map fun q =>
        if q.document.path == w.document.path then ⟨w.document, q.force || w.force⟩ else q) := by
  set joined : Waiting → Waiting := fun q =>
    if q.document.path == w.document.path then ⟨w.document, q.force || w.force⟩ else q with hjoined
  have hpath : ∀ q, (joined q).document.path = q.document.path := by
    intro q
    by_cases hq : q.document.path = w.document.path
    · simp [hjoined, hq]
    · simp [hjoined, hq]
  have hpaths : (queue.map joined).map (·.document.path) = queue.map (·.document.path) := by
    rw [List.map_map]
    exact List.map_congr_left fun q _ => hpath q
  have hopened : ∀ q ∈ queue, opened q.document.path
      (acts ++ [.answer (.submit w.document w.force) (.outcome .queued)]) =
        opened q.document.path acts := by
    intro q hq
    obtain ⟨x, rest, hx⟩ := List.exists_cons_of_ne_nil (h.merged q hq).ne_nil
    rw [opened, opened, slot_queued]
    split_ifs
    · rw [hx]
      rfl
    · rfl
  refine ⟨hpaths ▸ h.nodup, ?_, ?_, ?_⟩
  · intro p hp
    obtain ⟨q, hq, rfl⟩ := List.mem_map.1 hp
    rw [hpath, slot_queued]
    by_cases hk : w.document.path = q.document.path
    · simpa only [hjoined, if_pos hk, hk, beq_self_eq_true, if_true] using
        (h.merged q hq).join w acts.length
    · have hk' : (q.document.path == w.document.path) = false := by simpa using Ne.symm hk
      simpa only [hjoined, if_neg hk, hk', Bool.false_eq_true, if_false] using h.merged q hq
  · intro key hkey
    rw [hpaths]
    rw [slot_queued] at hkey
    split_ifs at hkey with hk
    · exact hk ▸ hw
    · exact h.waiting key hkey
  · rw [List.pairwise_map]
    refine h.ordered.imp_of_mem ?_
    intro p q hp hq hpq
    rw [hpath, hpath, hopened p hp, hopened q hq]
    exact hpq

theorem enqueue (h : Tracks acts queue) (w : Waiting) :
    Tracks (acts ++ [.answer (.submit w.document w.force) (.outcome .queued)])
      (Scheduler.enqueue queue w) := by
  unfold Scheduler.enqueue
  split_ifs with hw
  · refine h.enqueue_again ?_
    simpa [List.any_eq_true] using hw
  · refine h.enqueue_new ?_
    simpa [List.any_eq_true] using hw

/-- An act other than clearing the queue. -/
theorem step {s : Scheduler} (h : Tracks acts s.pending) (ha : a.Fits s)
    (hclear : ∀ reply, a ≠ .answer .clear reply) : Tracks (acts ++ [a]) (a.after s).pending := by
  cases a with
  | answer r reply =>
    cases r with
    | submit d force =>
      rw [Act.after]
      rcases serve_submit_reply ha with ⟨-, rfl, hstate⟩ | ⟨-, -, rfl, hstate⟩
      · rw [hstate]
        exact h.same fun key => slot_snoc key acts _
      · rw [hstate]
        exact h.enqueue ⟨d, force⟩
    | clear => exact absurd rfl (hclear reply)
    | idle => exact h.same fun key => slot_snoc key acts _
    | forget path => exact h.same fun key => slot_snoc key acts _
    | isCached d => exact h.same fun key => slot_snoc key acts _
    | digest d => exact h.same fun key => slot_snoc key acts _
  | begin d => exact h.same fun key => slot_snoc key acts _
  | finish d e => exact h.same fun key => slot_snoc key acts _
  | pop d scanned =>
    obtain ⟨-, w, hw, rfl, -⟩ := ha
    obtain ⟨queue, hqueue⟩ := List.head?_eq_some_iff.1 hw
    rw [hqueue] at h
    simpa only [Act.after, hqueue, List.tail_cons] using h.pop scanned

end Tracks

/-- What becomes of a document that is taken off the queue: it is the newest of its slot, and it is
dropped only if nothing in the slot was forced and its text is that of its last finished scan. -/
structure Handled (useCache : Bool) (digests : List (String × String)) (slot : List (Waiting × Nat))
    (d : Document) (scanned : Bool) : Prop where
  newest : slot.getLast?.map (·.1.document) = some d
  scanned_iff : scanned = true ↔ (∃ x ∈ slot, x.1.force = true) ∨
    ¬(useCache = true ∧ digests.lookup d.path = some d.digest)

theorem Tracks.handled {acts : List Act} {s : Scheduler} {d : Document} {scanned : Bool}
    (h : Tracks acts s.pending) (ha : (Act.pop d scanned).Fits s) :
    Handled s.useCache s.digests (slot d.path acts) d scanned := by
  obtain ⟨-, w, hw, rfl, rfl⟩ := ha
  have hmerged := h.merged w (List.mem_of_head? hw)
  refine ⟨hmerged.newest, ?_⟩
  rw [← hmerged.force]
  simp [Scheduler.isSettled, Scheduler.isCached, imp_iff_not_or]

/-- All that is open behind the first document of the queue was opened later. -/
theorem Tracks.opened_lt {acts : List Act} {s : Scheduler} {d : Document} {scanned : Bool}
    (h : Tracks acts s.pending) (ha : (Act.pop d scanned).Fits s) {i : Nat}
    (hi : i ∈ opened d.path acts) :
    ∀ key, ∀ j ∈ opened key (acts ++ [.pop d scanned]), i < j := by
  obtain ⟨-, w, hw, rfl, -⟩ := ha
  obtain ⟨queue, hqueue⟩ := List.head?_eq_some_iff.1 hw
  rw [hqueue] at h
  intro key j hj
  rw [opened, slot_pop] at hj
  split_ifs at hj with hk
  · cases hj
  · obtain ⟨x, hx, -⟩ := Option.map_eq_some_iff.1 hj
    have hne : slot key acts ≠ [] := List.ne_nil_of_mem (List.mem_of_head? hx)
    rcases List.mem_cons.1 (h.waiting key hne) with he | hmem
    · exact absurd he.symm hk
    · obtain ⟨q, hq, rfl⟩ := List.mem_map.1 hmem
      exact (List.pairwise_cons.1 h.ordered).1 q hq i hi j hj

theorem Handled.ne_nil {useCache : Bool} {digests : List (String × String)}
    {slot : List (Waiting × Nat)} {d : Document} {scanned : Bool}
    (h : Handled useCache digests slot d scanned) : slot ≠ [] := by
  rintro rfl
  cases h.newest

section History

variable (useCache : Bool) {scans : List Scan} {requests : List Request}

/-- The queue is tracked at every point of a run without clearing. -/
theorem history_tracks (hscans : ∀ e ∈ scans, .clear ∉ e.during) (hrequests : .clear ∉ requests)
    {before after : List Act} (h : history { useCache } scans requests = before ++ after) :
    Tracks before (stateAfter { useCache } before).pending ∧
      Legal (stateAfter { useCache } before) after := by
  obtain ⟨hlegal, hasked, -⟩ := history_spec (s := { useCache }) rfl scans requests
  rw [h] at hlegal hasked
  obtain ⟨hbefore, hafter⟩ := legal_append.1 hlegal
  refine ⟨hbefore.run (I := fun acts s => Tracks acts s.pending) Tracks.start ?_, hafter⟩
  intro acts a s hmem hfits htracks
  refine htracks.step hfits ?_
  rintro reply rfl
  rcases hasked .clear reply (List.mem_append_left after hmem) with hr | ⟨e, he, hr⟩
  · exact hrequests hr
  · exact hscans e he hr

/-- When a request is done nothing waits, so all slots are empty. -/
theorem history_slot (hcrash : ∀ e ∈ scans, crash? e.ending = none)
    (hscans : ∀ e ∈ scans, .clear ∉ e.during) (hrequests : .clear ∉ requests) (key : String) :
    slot key (history { useCache } scans requests) = [] := by
  have htracks := (history_tracks useCache hscans hrequests (List.append_nil _).symm).1
  rw [history_pending rfl rfl scans hcrash requests] at htracks
  by_contra hne
  exact List.not_mem_nil (htracks.waiting key hne)

theorem history_prefix_append (s : Scheduler) (scans : List Scan) (done rest : List Request) :
    history s scans done <+: history s scans (done ++ rest) := by
  induction done generalizing s scans with
  | nil => exact List.nil_prefix
  | cons r done ih => exact (List.prefix_append_right_inj _).2 (ih _ _)

/-- Documents come off the queue in the order in which their slots were opened. -/
theorem history_opened (hscans : ∀ e ∈ scans, .clear ∉ e.during) (hrequests : .clear ∉ requests)
    {before between after : List Act} {d d' : Document} {scanned scanned' : Bool}
    (h : history { useCache } scans requests =
      (before ++ .pop d scanned :: between) ++ .pop d' scanned' :: after) :
    ∃ i ∈ opened d.path before, ∃ j ∈ opened d'.path (before ++ .pop d scanned :: between), i < j := by
  obtain ⟨htracks', hfits', -⟩ := history_tracks useCache hscans hrequests h
  rw [List.append_assoc] at h
  obtain ⟨htracks, hfits, -⟩ := history_tracks useCache hscans hrequests h
  obtain ⟨i, hi⟩ := exists_opened (htracks.handled hfits).ne_nil
  obtain ⟨j, hj⟩ := exists_opened (htracks'.handled hfits').ne_nil
  refine ⟨i, hi, j, hj, ?_⟩
  -- at the first of the two, all that is open was opened later, and so is what follows
  rw [List.append_cons] at hj
  refine opened_append ?_ (htracks.opened_lt hfits hi) d'.path j hj
  rw [List.length_append]
  exact Nat.lt_add_right 1 (lt_length_of_opened hi)

end History

/-- Nothing that was queued is lost, doubled or overtaken in a run whose scans succeed or fail and
which never clears the queue. No document waits twice. When a request is done, every slot has been
taken off the queue. Slots are taken off it in the order of their opening, each with its newest
document, which is scanned unless it is settled and was never forced. The scans of the run are those
of the history, and so are the submissions that it reports as queued. -/
theorem queued_submissions_served (useCache : Bool) (scans : List Scan) (requests : List Request)
    (hscans : ∀ e ∈ scans, crash? e.ending = none ∧ .clear ∉ e.during)
    (hrequests : .clear ∉ requests) :
    let s : Scheduler := { useCache }
    let acts := history s scans requests
    Legal s acts ∧
      acts.filterMap Act.notice? =
        ((run s scans requests).flatMap fun x => x.1.calls.flatMap Call.notices) ∧
      (∀ before after, acts = before ++ after →
        ((stateAfter s before).pending.map (·.document.path)).Nodup) ∧
      (∀ done rest, requests = done ++ rest →
        history s scans done <+: acts ∧ ∀ key, slot key (history s scans done) = []) ∧
      (∀ before d scanned after, acts = before ++ .pop d scanned :: after →
        Handled useCache (stateAfter s before).digests (slot d.path before) d scanned) ∧
      (∀ before d scanned between d' scanned' after,
        acts = (before ++ .pop d scanned :: between) ++ .pop d' scanned' :: after →
          ∃ i ∈ opened d.path before,
            ∃ j ∈ opened d'.path (before ++ .pop d scanned :: between), i < j) := by
  intro s acts
  have hcrash : ∀ e ∈ scans, crash? e.ending = none := fun e he => (hscans e he).1
  have hclear : ∀ e ∈ scans, .clear ∉ e.during := fun e he => (hscans e he).2
  obtain ⟨hlegal, -, hnotices⟩ := history_spec (s := s) rfl scans requests
  refine ⟨hlegal, hnotices, ?_, ?_, ?_, ?_⟩
  · intro before after h
    exact (history_tracks useCache hclear hrequests h).1.nodup
  · rintro done rest rfl
    refine ⟨history_prefix_append s scans done rest, fun key => ?_⟩
    exact history_slot useCache hcrash hclear (fun h => hrequests (List.mem_append_left rest h)) key
  · intro before d scanned after h
    obtain ⟨htracks, hfits, -⟩ := history_tracks useCache hclear hrequests h
    have hhandled := htracks.handled hfits
    rwa [stateAfter_useCache] at hhandled
  · intro before d scanned between d' scanned' after h
    exact history_opened useCache hclear hrequests h

/-- Two documents wait, one of them submitted again and then forced. -/
theorem queued_submissions_served_resubmitted :
    history {} [⟨[.submit ⟨"b", "1", none⟩ false, .submit ⟨"c", "1", none⟩ false,
        .submit ⟨"b", "2", none⟩ true], .success⟩, ⟨[], .failure⟩] [.submit ⟨"a", "1", none⟩ false] =
      [.begin ⟨"a", "1", none⟩,
        .answer (.submit ⟨"b", "1", none⟩ false) (.outcome .queued),
        .answer (.submit ⟨"c", "1", none⟩ false) (.outcome .queued),
        .answer (.submit ⟨"b", "2", none⟩ true) (.outcome .queued),
        .finish ⟨"a", "1", none⟩ .success,
        .pop ⟨"b", "2", none⟩ true, .finish ⟨"b", "2", none⟩ .failure,
        .pop ⟨"c", "1", none⟩ true, .finish ⟨"c", "1", none⟩ .success] ∧
    slot "b" (history {} [⟨[.submit ⟨"b", "1", none⟩ false, .submit ⟨"c", "1", none⟩ false,
        .submit ⟨"b", "2", none⟩ true], .success⟩, ⟨[], .failure⟩]
        [.submit ⟨"a", "1", none⟩ false]) = [] :=
  ⟨by decide +kernel,
    ((queued_submissions_served true _ _ (by decide) (by decide)).2.2.2.1 _ [] rfl).2 "b"⟩

end DesignLint.Schedule
