import DesignLint.Pattern
import Mathlib.Tactic

/-! What patterns read. A match takes a start of the text and leaves the rest over; which characters it
took is told by the parts of the pattern. The best match of a pattern is made of the best matches of its
parts, as long as these fit together. -/

namespace DesignLint.Pattern

variable {α β : Type}

theorem mem_run_bind {p : Pattern α} {f : α → Pattern β} {s r : List Char} {b : β} :
    (b, r) ∈ (p >>= f).run s ↔ ∃ a t, (a, t) ∈ p.run s ∧ (b, r) ∈ (f a).run t := by
  constructor
  · intro h
    obtain ⟨⟨a, t⟩, hp, hf⟩ := List.mem_flatMap.1 h
    exact ⟨a, t, hp, hf⟩
  · rintro ⟨a, t, hp, hf⟩
    exact List.mem_flatMap.2 ⟨(a, t), hp, hf⟩

theorem mem_run_of_match? {p : Pattern α} {s : List Char} {x : α × List Char} (h : p.match? s = some x) :
    x ∈ p.run s :=
  List.mem_of_mem_head? h

section Read

variable {ok : Char → Bool}

theorem of_mem_text {t : String} {s r : List Char} {u : Unit} (h : (u, r) ∈ (text t).run s) :
    s = t.toList ++ r := by
  have h : (u, r) ∈ if t.toList.isPrefixOf s then [((), s.drop t.toList.length)] else [] := h
  split_ifs at h with hp
  · obtain ⟨v, rfl⟩ := List.isPrefixOf_iff_prefix.1 hp
    rw [List.drop_left] at h
    obtain ⟨-, rfl⟩ := Prod.mk.inj (List.mem_singleton.1 h)
    rfl
  · cases h

/-- What a run took behind what was taken already, with what it left over, is the text. -/
theorem of_mem_runs {taken : List Char} {shorter : List (Taken × List Char)} {s : List Char}
    {x : Taken × List Char} (hx : x ∈ runs ok taken shorter s) (hshorter : x ∉ shorter) :
    ∃ t, x.1.reversed = t.reverse ++ taken ∧ s = t ++ x.2 ∧ ∀ c ∈ t, ok c = true := by
  induction s generalizing taken shorter with
  | nil =>
    rcases List.mem_cons.1 hx with rfl | hx
    · exact ⟨[], rfl, rfl, by simp⟩
    · exact absurd hx hshorter
  | cons c s ih =>
    unfold runs at hx
    split_ifs at hx with hc
    · by_cases hstop : x = (⟨taken⟩, c :: s)
      · subst hstop
        exact ⟨[], rfl, rfl, by simp⟩
      · obtain ⟨t, ht, rfl, hok⟩ := ih hx (by simp [hstop, hshorter])
        refine ⟨c :: t, by simp [ht], rfl, ?_⟩
        simpa [hc] using hok
    · rcases List.mem_cons.1 hx with rfl | hx
      · exact ⟨[], rfl, rfl, by simp⟩
      · exact absurd hx hshorter

theorem of_mem_many {s r : List Char} {x : Taken} (h : (x, r) ∈ (many ok).run s) :
    s = x.chars ++ r ∧ ∀ c ∈ x.chars, ok c = true := by
  obtain ⟨t, ht, hs, hok⟩ := of_mem_runs h List.not_mem_nil
  have hchars : x.chars = t := by
    rw [Taken.chars, ht, List.append_nil, List.reverse_reverse]
  rw [hchars]
  exact ⟨hs, hok⟩

theorem of_mem_many1 {s r : List Char} {x : Taken} (h : (x, r) ∈ (many1 ok).run s) :
    s = x.chars ++ r ∧ ∀ c ∈ x.chars, ok c = true := by
  cases s with
  | nil => cases h
  | cons c s =>
    have h : (x, r) ∈ if ok c then runs ok [c] [] s else [] := h
    split_ifs at h with hc
    · obtain ⟨t, ht, hs, hok⟩ := of_mem_runs h List.not_mem_nil
      have hchars : x.chars = c :: t := by
        rw [Taken.chars, ht, List.reverse_append, List.reverse_reverse]
        rfl
      rw [hchars]
      exact ⟨congrArg (c :: ·) hs, by simpa [hc] using hok⟩
    · cases h

theorem ne_nil_of_mem_many1 {s r : List Char} {x : Taken} (h : (x, r) ∈ (many1 ok).run s) : x.chars ≠ [] := by
  cases s with
  | nil => cases h
  | cons c s =>
    have h : (x, r) ∈ if ok c then runs ok [c] [] s else [] := h
    split_ifs at h with hc
    · obtain ⟨t, ht, -⟩ := of_mem_runs h List.not_mem_nil
      have ht : x.reversed = t.reverse ++ [c] := ht
      simp [Taken.chars, ht]
    · cases h

theorem of_mem_blanks {s r : List Char} {u : Unit} (h : (u, r) ∈ blanks.run s) :
    ∃ gap, s = gap ++ r ∧ ∀ c ∈ gap, Text.isBlank c = true := by
  obtain ⟨taken, t, hmany, hpure⟩ := mem_run_bind.1 h
  obtain ⟨-, rfl⟩ := Prod.mk.inj (List.mem_singleton.1 hpure)
  exact ⟨taken.chars, of_mem_many hmany⟩

theorem of_mem_blanks1 {s r : List Char} {u : Unit} (h : (u, r) ∈ blanks1.run s) :
    ∃ gap, s = gap ++ r ∧ gap ≠ [] ∧ ∀ c ∈ gap, Text.isBlank c = true := by
  obtain ⟨taken, t, hmany, hpure⟩ := mem_run_bind.1 h
  obtain ⟨-, rfl⟩ := Prod.mk.inj (List.mem_singleton.1 hpure)
  obtain ⟨hs, hok⟩ := of_mem_many1 hmany
  exact ⟨taken.chars, hs, ne_nil_of_mem_many1 hmany, hok⟩

theorem of_mem_char {c : Char} {s r : List Char} {u : Unit} (h : (u, r) ∈ (char c).run s) :
    s = c :: r := by
  obtain ⟨d, t, hone, hpure⟩ := mem_run_bind.1 h
  obtain ⟨-, rfl⟩ := Prod.mk.inj (List.mem_singleton.1 hpure)
  cases s with
  | nil => cases hone
  | cons e s =>
    have hone : (d, r) ∈ if e == c then [(e, s)] else [] := hone
    split_ifs at hone with he
    · obtain ⟨-, rfl⟩ := Prod.mk.inj (List.mem_singleton.1 hone)
      rw [beq_iff_eq.1 he]
    · cases hone

theorem of_mem_optional {p : Pattern α} {s r : List Char} {a : Option α} (h : (a, r) ∈ (optional p).run s) :
    (∃ b, a = some b ∧ (b, r) ∈ p.run s) ∨ a = none ∧ r = s := by
  rcases List.mem_append.1 h with h | h
  · obtain ⟨b, t, hp, hpure⟩ := mem_run_bind.1 h
    obtain ⟨rfl, rfl⟩ := Prod.mk.inj (List.mem_singleton.1 hpure)
    exact .inl ⟨b, rfl, hp⟩
  · obtain ⟨rfl, rfl⟩ := Prod.mk.inj (List.mem_singleton.1 h)
    exact .inr ⟨rfl, rfl⟩

end Read

section Best

variable {p : Pattern α} {f : α → Pattern β} {s t : List Char} {a : α} {ok : Char → Bool}

/-- The best match of both parts, if the second part matches behind the best match of the first. -/
theorem match?_bind {x : β × List Char} (hp : p.match? s = some (a, t)) (hf : (f a).match? t = some x) :
    (p >>= f).match? s = some x := by
  obtain ⟨more, hrun⟩ := List.head?_eq_some_iff.1 hp
  obtain ⟨rest, hrest⟩ := List.head?_eq_some_iff.1 hf
  have hbind : (p >>= f).run s = (p.run s).flatMap fun x => (f x.1).run x.2 := rfl
  rw [match?, hbind, hrun, List.flatMap_cons, hrest]
  rfl

theorem match?_bind_none (hp : p.match? s = none) : (p >>= f).match? s = none := by
  have hbind : (p >>= f).run s = (p.run s).flatMap fun x => (f x.1).run x.2 := rfl
  rw [match?, hbind, List.head?_eq_none_iff.1 hp]
  rfl

theorem match?_text (t : String) (s : List Char) : (text t).match? (t.toList ++ s) = some ((), s) := by
  have hrun : (text t).run (t.toList ++ s) = [((), s)] := by
    have hp : t.toList.isPrefixOf (t.toList ++ s) = true :=
      List.isPrefixOf_iff_prefix.2 (List.prefix_append _ _)
    simp only [text, chars, hp, if_true, List.drop_left]
  rw [match?, hrun]
  rfl

theorem match?_text_none {t : String} (h : ¬ t.toList <+: s) : (text t).match? s = none := by
  have hp : t.toList.isPrefixOf s = false := by
    rw [← Bool.not_eq_true, List.isPrefixOf_iff_prefix]
    exact h
  simp only [match?, text, chars, hp, Bool.false_eq_true, if_false, List.head?_nil]

theorem match?_char (c : Char) (s : List Char) : (char c).match? (c :: s) = some ((), s) := by
  refine match?_bind (a := c) (t := s) ?_ rfl
  simp [match?, one]

theorem match?_char_none {c : Char} (h : ∀ d ∈ s.head?, d ≠ c) : (char c).match? s = none := by
  refine match?_bind_none ?_
  cases s with
  | nil => rfl
  | cons d s => simp [match?, one, h d rfl]

theorem head?_runs {taken : List Char} {shorter : List (Taken × List Char)} (ht : ∀ c ∈ t, ok c = true)
    (hs : ∀ c ∈ s.head?, ok c = false) :
    (runs ok taken shorter (t ++ s)).head? = some (⟨t.reverse ++ taken⟩, s) := by
  induction t generalizing taken shorter with
  | nil =>
    cases s with
    | nil => rfl
    | cons c s => simp [runs, hs c rfl]
  | cons c t ih =>
    rw [List.forall_mem_cons] at ht
    rw [List.cons_append, runs, if_pos ht.1, ih ht.2]
    simp

/-- The longest run is the best one. -/
theorem match?_many (ht : ∀ c ∈ t, ok c = true) (hs : ∀ c ∈ s.head?, ok c = false) :
    (many ok).match? (t ++ s) = some (⟨t.reverse⟩, s) := by
  have hrun : (many ok).match? (t ++ s) = (runs ok [] [] (t ++ s)).head? := rfl
  rw [hrun, head?_runs ht hs, List.append_nil]

theorem match?_many1 (hne : t ≠ []) (ht : ∀ c ∈ t, ok c = true) (hs : ∀ c ∈ s.head?, ok c = false) :
    (many1 ok).match? (t ++ s) = some (⟨t.reverse⟩, s) := by
  obtain ⟨c, u, rfl⟩ := List.exists_cons_of_ne_nil hne
  rw [List.forall_mem_cons] at ht
  have hrun : (many1 ok).match? (c :: u ++ s) = (runs ok [c] [] (u ++ s)).head? := by
    simp [match?, many1, ht.1]
  rw [hrun, head?_runs ht.2 hs, List.reverse_cons]

theorem match?_blanks (ht : ∀ c ∈ t, Text.isBlank c = true) (hs : ∀ c ∈ s.head?, Text.isBlank c = false) :
    blanks.match? (t ++ s) = some ((), s) :=
  match?_bind (match?_many ht hs) rfl

theorem match?_blanks1 (hne : t ≠ []) (ht : ∀ c ∈ t, Text.isBlank c = true)
    (hs : ∀ c ∈ s.head?, Text.isBlank c = false) : blanks1.match? (t ++ s) = some ((), s) :=
  match?_bind (match?_many1 hne ht hs) rfl

theorem match?_optional {x : α × List Char} (h : p.match? s = some x) :
    (optional p).match? s = some (some x.1, x.2) := by
  have hbest : (some <$> p : Pattern (Option α)).match? s = some (some x.1, x.2) :=
    match?_bind h rfl
  obtain ⟨more, hrun⟩ := List.head?_eq_some_iff.1 hbest
  have hor : (optional p).run s = (some <$> p : Pattern (Option α)).run s ++ [(none, s)] := rfl
  rw [match?, hor, hrun]
  rfl

theorem match?_optional_none (h : p.match? s = none) : (optional p).match? s = some (none, s) := by
  have hnone : (some <$> p : Pattern (Option α)).match? s = none := match?_bind_none h
  have hor : (optional p).run s = (some <$> p : Pattern (Option α)).run s ++ [(none, s)] := rfl
  rw [match?, hor, List.head?_eq_none_iff.1 hnone]
  rfl

/-- Nothing is repeated that does not match once. -/
theorem match?_repeated_none (h : p.match? s = none) :
    (repeated p).match? s = some ((), s) := by
  have hrun : (repeated p).match? s = (repetitions p s.length s).head? := rfl
  rw [hrun]
  cases hn : s.length with
  | zero => rfl
  | succ n => simp [repetitions, List.head?_eq_none_iff.1 h]

end Best

end DesignLint.Pattern
