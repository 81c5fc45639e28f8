import DesignLint.Proofs.IgnoredBelow
import DesignLint.Proofs.TrimmedTexts

/-! How deep a pattern with a leading `**/` applies. Behind the `**/` a pattern of one name is looked for among all
names of a path. But a pattern with a slash is read from its directory on all the same, so it applies at every depth
only if it leads with a star, or with places for any characters before a star, or matches nothing at all. -/

namespace DesignLint

namespace Ignore

/-- A star behind places for single characters that may be any, the first one any but a slash. -/
def HasFreeLead (ts : List GlobToken) : Prop :=
  ∃ lead rest, ts = lead ++ .anyText :: rest ∧
    ∀ i t, lead[i]? = some t → ∀ c, (c = '/' → i ≠ 0) → t.holds c = true

section Texts

variable {lead ts : List GlobToken} {pattern text u : List Char}

theorem holds_at (h : List.Forall₂ (fun t c => t.holds c = true) lead u) {i : Nat} {t : GlobToken} {c : Char}
    (ht : lead[i]? = some t) (hc : u[i]? = some c) : t.holds c = true := by
  induction h generalizing i with
  | nil => simp at ht
  | cons hholds _ ih =>
    cases i with
    | zero =>
      obtain rfl := Option.some.inj ht
      obtain rfl := Option.some.inj hc
      exact hholds
    | succ i => exact ih ht hc

/-- What is covered starts with a text that is admitted, and ends there or goes on with a slash. -/
theorem Covers.exists_prefix (h : Covers pattern text) :
    ∃ a, a <+: text ∧ Glob.admits pattern a = true ∧ (text.length = a.length ∨ text[a.length]? = some '/') := by
  rcases h with h | ⟨a, b, rfl, h⟩
  · exact ⟨text, List.prefix_refl text, h, .inl rfl⟩
  · exact ⟨a, List.prefix_append a _, h, .inr (by simp)⟩

/-- What is covered has a character for each place before the first star. -/
theorem Covers.holds (h : Covers pattern text) (hlead : .anyText ∉ lead) (htokens : Glob.tokens pattern = lead ++ ts)
    {i : Nat} {t : GlobToken} {c : Char} (ht : lead[i]? = some t) (hc : text[i]? = some c) : t.holds c = true := by
  obtain ⟨a, ⟨more, rfl⟩, hadmits, -⟩ := h.exists_prefix
  rw [Glob.admits, htokens, Glob.accepts_append] at hadmits
  obtain ⟨u, v, rfl, hu, -⟩ := hadmits
  rw [Glob.accepts_iff_forall₂ hlead] at hu
  have hi : i < u.length := hu.length_eq ▸ (List.getElem?_eq_some_iff.1 ht).1
  rw [List.append_assoc, List.getElem?_append_left hi] at hc
  exact holds_at hu ht hc

/-- Without a star, what is covered ends with the last place or goes on with a slash there. -/
theorem Covers.length (h : Covers pattern text) (hstar : .anyText ∉ Glob.tokens pattern) :
    text.length = (Glob.tokens pattern).length ∨ text[(Glob.tokens pattern).length]? = some '/' := by
  obtain ⟨a, -, hadmits, hend⟩ := h.exists_prefix
  rw [Glob.admits, Glob.accepts_iff_forall₂ hstar] at hadmits
  rwa [hadmits.length_eq]

/-- A pattern that covers a text behind every name leads with a star behind places for any characters. -/
theorem hasFreeLead_of_covers
    (h : ∀ name, name ≠ [] → name ≠ ['.'] → '/' ∉ name → Covers pattern (name ++ '/' :: text)) :
    HasFreeLead (Glob.tokens pattern) := by
  by_cases hstar : .anyText ∈ Glob.tokens pattern
  · obtain ⟨lead, rest, htokens, hlead⟩ := List.eq_append_cons_of_mem hstar
    refine ⟨lead, rest, htokens, fun i t ht c hc => ?_⟩
    -- a name that brings the character to the place
    by_cases hslash : c = '/'
    · obtain ⟨k, rfl⟩ := Nat.exists_eq_succ_of_ne_zero (hc hslash)
      have hcovers := h (List.replicate (k + 1) 'a') (by simp) (by simp [List.replicate_succ]) (by simp)
      exact hcovers.holds hlead htokens ht (by simp [hslash])
    · have hcovers := h (List.replicate i 'a' ++ [c, 'a']) (by simp) (by cases i <;> simp [List.replicate_succ])
        (by simp [Ne.symm hslash])
      exact hcovers.holds hlead htokens ht (by simp)
  · -- a name that is longer than everything admitted
    have hcovers := h (List.replicate ((Glob.tokens pattern).length + 1) 'a') (by simp)
      (by simp [List.replicate_succ]) (by simp)
    rcases hcovers.length hstar with hlength | hslash
    · simp only [List.length_append, List.length_replicate, List.length_cons] at hlength
      omega
    · rw [List.getElem?_append_left (by simp), List.getElem?_replicate_of_lt (by simp)] at hslash
      exact absurd hslash (by decide)

theorem forall₂_of_free (hlead : ∀ i t, lead[i]? = some t → ∀ c, (c = '/' → i ≠ 0) → t.holds c = true)
    (hlength : lead.length ≤ text.length) (hhead : text.head? ≠ some '/') :
    List.Forall₂ (fun t c => t.holds c = true) lead (text.take lead.length) := by
  refine List.forall₂_iff_get.2 ⟨by simp [hlength], fun i hi hi' => ?_⟩
  refine hlead i _ (List.getElem?_eq_getElem hi) _ fun hslash hzero => hhead ?_
  subst hzero
  rw [← hslash, List.head?_eq_getElem?]
  simp

/-- A free lead takes in a text before what is admitted, unless it starts with a slash. -/
theorem admits_append_left (h : HasFreeLead (Glob.tokens pattern)) {c : Char} (hc : c ≠ '/') (s : List Char)
    (hadmits : Glob.admits pattern text = true) : Glob.admits pattern (c :: s ++ text) = true := by
  obtain ⟨lead, rest, htokens, hlead⟩ := h
  have hsingle : .anyText ∉ lead := by
    intro hmem
    obtain ⟨i, hi⟩ := List.mem_iff_getElem?.1 hmem
    exact absurd (hlead i _ hi 'a' (by simp)) (by decide)
  rw [Glob.admits, htokens, Glob.accepts_append] at hadmits ⊢
  obtain ⟨a, _, rfl, ha, hrest⟩ := hadmits
  obtain ⟨x, y, rfl, hy⟩ := Glob.accepts_star.1 hrest
  have hlength := ((Glob.accepts_iff_forall₂ hsingle).1 ha).length_eq
  -- the star takes what the places before it leave of the text
  have hplaces := @forall₂_of_free lead (c :: s ++ a ++ x) hlead (by simp; omega) (by simpa using hc)
  refine ⟨(c :: s ++ a ++ x).take lead.length, (c :: s ++ a ++ x).drop lead.length ++ y, ?_,
    (Glob.accepts_iff_forall₂ hsingle).2 hplaces, Glob.accepts_star.2 ⟨_, y, rfl, hy⟩⟩
  rw [← List.append_assoc (List.take _ _), List.take_append_drop]
  simp only [List.append_assoc]

theorem Covers.append_left (h : HasFreeLead (Glob.tokens pattern)) {c : Char} (hc : c ≠ '/') (s : List Char)
    (hcovers : Covers pattern text) : Covers pattern (c :: s ++ text) := by
  rcases hcovers with hadmits | ⟨a, b, rfl, hadmits⟩
  · exact .inl (admits_append_left h hc s hadmits)
  · exact .inr ⟨c :: s ++ a, b, (List.append_assoc ..).symm, admits_append_left h hc s hadmits⟩

end Texts

section Starred

/-- What the pattern matches below its directory, it matches with further directories before it. -/
def AppliesAtEveryDepth (pattern : String) : Prop :=
  ∀ (base : Path) (d r : List String), (∀ name ∈ d ++ r, Path.IsName name) → r ≠ [] →
    matchesPattern (base.below r) pattern base = true → matchesPattern (base.below (d ++ r)) pattern base = true

theorem trim_starred (P : String) :
    Text.trim ("**/" ++ P).toList = "**/".toList ++ Text.trimEnd P.toList := by
  have hstart : Text.trim ([] ++ ("**/".toList ++ P.toList)) = Text.trimEnd ("**/".toList ++ P.toList) :=
    Text.trim_eq (by simp) (by simp; decide)
  rw [String.toList_append]
  exact hstart.trans (Text.trimEnd_append_cons (by decide) ['*', '*'] P.toList)

/-- A pattern with a leading `**/` counts as not anchored. -/
theorem form_starred_anchored (P : String) : (form ("**/" ++ P)).anchored = false := by
  unfold form
  rw [trim_starred]
  dsimp only
  split_ifs with hstars
  · rfl
  · rfl

/-- What is read behind the `**/` of an ordinary pattern. -/
theorem form_starred_body {P : String} {s : List Char} {c : Char} (hP : P.toList = s ++ [c]) (hslash : c ≠ '/')
    (hblank : Text.isBlank c = false) (hback : '\\' ∉ P.toList) : (form ("**/" ++ P)).body = P.toList := by
  have htrim : Text.trimEnd P.toList = P.toList := by
    rw [hP]
    exact Text.trimEnd_append_cons hblank s []
  have hmap : ("**/".toList ++ P.toList).map (fun c => if c == '\\' then '/' else c) = "**/".toList ++ P.toList := by
    refine (List.map_congr_left fun d hd => ?_).trans (List.map_id _)
    have hne : d ≠ '\\' := by
      rintro rfl
      exact (List.mem_append.1 hd).elim (by decide) hback
    simp [hne]
  have hslashes : trimSlashes ("**/".toList ++ P.toList) = "**/".toList ++ P.toList := by
    rw [hP]
    simp [trimSlashes, hslash]
  unfold form
  dsimp only
  rw [trim_starred, htrim, hmap, hslashes]
  rfl

variable (P : String)

/-- A pattern of one name behind the `**/` applies at every depth. -/
theorem applies_of_no_slash (h : '/' ∉ (form ("**/" ++ P)).body) : AppliesAtEveryDepth ("**/" ++ P) := by
  have hnamed : (form ("**/" ++ P)).isWhole = false := by
    rw [Form.isWhole, form_starred_anchored]
    simpa using h
  intro base d r _ hr hmatches
  cases d with
  | nil => exact hmatches
  | cons name d =>
    rw [matchesPattern_below base hr, Form.holds_named hnamed] at hmatches
    obtain ⟨hbody, part, hpart, hadmits⟩ := hmatches
    rw [matchesPattern_below base (List.append_ne_nil_of_right_ne_nil _ hr), Form.holds_named hnamed,
      Path.text_append (List.cons_ne_nil _ _) hr, List.splitOn_append_cons_self]
    exact ⟨hbody, part, List.mem_append_right _ hpart, hadmits⟩

theorem isWhole_of_slash (h : '/' ∈ (form ("**/" ++ P)).body) : (form ("**/" ++ P)).isWhole = true := by
  rw [Form.isWhole, List.contains_iff_mem.2 h, Bool.or_true]

theorem applies_of_hasFreeLead (hslash : '/' ∈ (form ("**/" ++ P)).body)
    (h : HasFreeLead (Glob.tokens (form ("**/" ++ P)).body)) : AppliesAtEveryDepth ("**/" ++ P) := by
  have hwhole := isWhole_of_slash P hslash
  intro base d r hnames hr hmatches
  cases d with
  | nil => exact hmatches
  | cons name d =>
    rw [matchesPattern_below base hr, Form.holds_whole hwhole] at hmatches
    obtain ⟨hbody, hcovers⟩ := hmatches
    obtain ⟨c, s, htext, hc⟩ := Path.exists_text_eq_cons (List.cons_ne_nil name d) fun n hn =>
      hnames n (List.mem_append_left _ hn)
    rw [matchesPattern_below base (List.append_ne_nil_of_right_ne_nil _ hr), Form.holds_whole hwhole,
      Path.text_append (List.cons_ne_nil _ _) hr, htext]
    refine ⟨hbody, ?_⟩
    have happend := hcovers.append_left h hc (s ++ ['/'])
    simpa using happend

theorem hasFreeLead_of_applies (hslash : '/' ∈ (form ("**/" ++ P)).body) (h : AppliesAtEveryDepth ("**/" ++ P))
    {base : Path} {r : List String} (hr : r ≠ []) (hnames : ∀ name ∈ r, Path.IsName name)
    (hmatches : matchesPattern (base.below r) ("**/" ++ P) base = true) :
    HasFreeLead (Glob.tokens (form ("**/" ++ P)).body) := by
  have hwhole := isWhole_of_slash P hslash
  refine @hasFreeLead_of_covers _ (Path.text r) fun name hne hdot hno => ?_
  have hname : Path.IsName (.ofList name) := {
    ne_empty := by simpa using hne
    ne_dot heq := hdot (by simpa using congrArg String.toList heq)
    no_slash := by simpa using hno }
  have hdeeper := h base [.ofList name] r (List.forall_mem_cons.2 ⟨hname, hnames⟩) hr hmatches
  rw [matchesPattern_below base (List.append_ne_nil_of_right_ne_nil _ hr), Form.holds_whole hwhole,
    Path.text_append (List.cons_ne_nil _ _) hr, Path.text_singleton, String.toList_ofList] at hdeeper
  exact hdeeper.2

/-- A pattern with a leading `**/` applies at every depth exactly if what is read behind it has no slash, or leads
with a star behind places for any characters, or matches nothing. What is read is the pattern itself, unless it ends
with a blank or a slash or has backslashes. -/
theorem starred_applies_at_every_depth_iff (P : String) :
    (AppliesAtEveryDepth ("**/" ++ P) ↔
      '/' ∉ (form ("**/" ++ P)).body ∨ HasFreeLead (Glob.tokens (form ("**/" ++ P)).body) ∨
        ∀ (base : Path) (r : List String), r ≠ [] → (∀ name ∈ r, Path.IsName name) →
          matchesPattern (base.below r) ("**/" ++ P) base = false) ∧
    ∀ (s : List Char) (c : Char), P.toList = s ++ [c] → c ≠ '/' → Text.isBlank c = false → '\\' ∉ P.toList →
      (form ("**/" ++ P)).body = P.toList := by
  refine ⟨⟨fun h => ?_, ?_⟩, fun s c => form_starred_body⟩
  · by_cases hslash : '/' ∈ (form ("**/" ++ P)).body
    · by_cases hnone : ∀ (base : Path) (r : List String), r ≠ [] → (∀ name ∈ r, Path.IsName name) →
        matchesPattern (base.below r) ("**/" ++ P) base = false
      · exact .inr (.inr hnone)
      · simp only [not_forall, Bool.not_eq_false] at hnone
        obtain ⟨base, r, hr, hnames, hmatches⟩ := hnone
        exact .inr (.inl (hasFreeLead_of_applies P hslash h hr hnames hmatches))
    · exact .inl hslash
  · rintro (hslash | hlead | hnone)
    · exact applies_of_no_slash P hslash
    · by_cases hslash : '/' ∈ (form ("**/" ++ P)).body
      · exact applies_of_hasFreeLead P hslash hlead
      · exact applies_of_no_slash P hslash
    · intro base d r hnames hr hmatches
      rw [hnone base r hr fun name hname => hnames name (List.mem_append_right d hname)] at hmatches
      exact absurd hmatches Bool.false_ne_true

/-- A place for any character and a star, before a slash. -/
theorem starred_applies_at_every_depth_iff_free :
    let P := "?*.d/b"
    P.toList = "?*.d/".toList ++ ['b'] ∧ (form ("**/" ++ P)).body = P.toList ∧ AppliesAtEveryDepth ("**/" ++ P) := by
  intro P
  have hP : P.toList = "?*.d/".toList ++ ['b'] := by decide
  obtain ⟨hiff, hread⟩ := starred_applies_at_every_depth_iff P
  have hbody := hread _ _ hP (by decide) (by decide) (by decide)
  refine ⟨hP, hbody, hiff.2 (.inr (.inl ?_))⟩
  rw [hbody]
  refine ⟨[.anyChar], [.char '.', .char 'd', .char '/', .char 'b'], by decide, fun i t ht c _ => ?_⟩
  obtain rfl : t = .anyChar := by simpa using List.mem_of_getElem? ht
  rfl

/-- A pattern of two names is read from its directory on, although it leads with `**/`. -/
theorem two_names_not_at_every_depth :
    let base : Path := .ofString "/r"
    matchesPattern (base.below ["a", "b"]) ("**/" ++ "a/b") base = true ∧
      matchesPattern (base.below (["x"] ++ ["a", "b"])) ("**/" ++ "a/b") base = false ∧
      ¬ AppliesAtEveryDepth ("**/" ++ "a/b") := by
  intro base
  have hmatches : matchesPattern (base.below ["a", "b"]) ("**/" ++ "a/b") base = true := by decide +kernel
  have hdeeper : matchesPattern (base.below (["x"] ++ ["a", "b"])) ("**/" ++ "a/b") base = false := by decide +kernel
  refine ⟨hmatches, hdeeper, fun h => ?_⟩
  have hnames : ∀ name ∈ ["x"] ++ ["a", "b"], Path.IsName name := by
    simp only [List.singleton_append, List.forall_mem_cons]
    exact ⟨⟨by decide, by decide, by decide⟩, ⟨by decide, by decide, by decide⟩, ⟨by decide, by decide, by decide⟩, nofun⟩
  rw [h base ["x"] ["a", "b"] hnames (by decide) hmatches] at hdeeper
  exact Bool.false_ne_true hdeeper.symm

end Starred

end Ignore

end DesignLint
