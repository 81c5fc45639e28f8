import DesignLint.Proofs.PatternRuns
import DesignLint.Source.Dialect
import Mathlib.Data.List.TakeWhile

/-! The places where a line mentions a member of the own object. The search for mentions goes on behind what a mention
took, the mark of a call included, and so might miss one that starts inside another. It could start at the name only,
which takes a qualifier that is a member itself; in all other lines each place counts. -/

namespace DesignLint.Source

open Pattern

def behindDot (q : String) (row : Line) (p : Nat) : List Char := row.drop (p + (q.length + 1))

/-- A mention starts at a place in a line: the qualifier stands there, with a dot and a word character behind it and
no word character before it. -/
def MentionAt (q : String) (row : Line) (p : Nat) : Prop :=
  (q ++ ".").toList <+: row.drop p ∧ (∃ c ∈ (behindDot q row p).head?, Text.isWord c = true) ∧
    (p = 0 ∨ ∃ c ∈ row[p - 1]?, Text.isWord c = false)

-- only the one character at hand is to be tried, not all there are
instance (q : String) (row : Line) (p : Nat) : Decidable (MentionAt q row p) :=
  haveI := Option.decidableExistsMem (p := fun c => Text.isWord c = true) (behindDot q row p).head?
  haveI := Option.decidableExistsMem (p := fun c => Text.isWord c = false) row[p - 1]?
  inferInstanceAs (Decidable (_ ∧ _ ∧ _))

def isCalled (s : List Char) : Bool := ['('] <+: s || [' ', '('] <+: s

def referenceAt (q : String) (row : Line) (p : Nat) : Reference where
  name := String.ofList ((behindDot q row p).takeWhile Text.isWord)
  isCall := isCalled ((behindDot q row p).dropWhile Text.isWord)

section Call

variable {s r : List Char} {u : Unit}

theorem of_mem_callMark (h : (u, r) ∈ callMark.run s) : s = '(' :: r ∨ s = ' ' :: '(' :: r := by
  obtain ⟨space, t, hspace, hchar⟩ := mem_run_bind.1 h
  have ht := of_mem_char hchar
  rcases of_mem_optional hspace with ⟨b, -, hblank⟩ | ⟨-, rfl⟩
  · rw [of_mem_char hblank, ht]
    exact .inr rfl
  · exact .inl ht

theorem match?_callMark (r : List Char) :
    callMark.match? ('(' :: r) = some ((), r) ∧ callMark.match? (' ' :: '(' :: r) = some ((), r) := by
  constructor
  · exact match?_bind (match?_optional_none (match?_char_none (by simp))) (match?_char '(' r)
  · exact match?_bind (match?_optional (match?_char ' ' _)) (match?_char '(' r)

/-- The mark of a call is taken if there is one. -/
theorem match?_optional_callMark (s : List Char) :
    ∃ mark r call, s = mark ++ r ∧ (mark = [] ∨ mark = ['('] ∨ mark = [' ', '(']) ∧ call.isSome = isCalled s ∧
      (optional callMark).match? s = some (call, r) := by
  by_cases hnear : ['('] <+: s
  · obtain ⟨r, rfl⟩ := hnear
    exact ⟨['('], r, some (), rfl, .inr (.inl rfl), by simp [isCalled], match?_optional (match?_callMark r).1⟩
  · by_cases hfar : [' ', '('] <+: s
    · obtain ⟨r, rfl⟩ := hfar
      exact ⟨[' ', '('], r, some (), rfl, .inr (.inr rfl), by simp [isCalled], match?_optional (match?_callMark r).2⟩
    · have hnone : callMark.match? s = none := by
        refine Option.eq_none_iff_forall_ne_some.2 fun x hx => ?_
        rcases of_mem_callMark (mem_run_of_match? hx) with rfl | rfl
        · exact hnear (by simp)
        · exact hfar (by simp)
      exact ⟨[], s, none, rfl, .inl rfl, by simp [isCalled, hnear, hfar], match?_optional_none hnone⟩

end Call

section Place

variable {q : String} {row : Line} {p : Nat}

theorem length_dotted (q : String) : (q ++ ".").toList.length = q.length + 1 := by
  rw [String.toList_append, List.length_append, String.length_toList]
  rfl

theorem behindDot_eq {t : List Char} (h : row.drop p = (q ++ ".").toList ++ t) : behindDot q row p = t := by
  rw [behindDot, ← List.drop_drop, h, ← length_dotted q, List.drop_left]

/-- A match mentions something, unless a word goes on there. -/
theorem mentionAt_of_match? {x : Reference × List Char} (h : (reference q).match? (row.drop p) = some x)
    (hbefore : p = 0 ∨ ∃ c ∈ row[p - 1]?, Text.isWord c = false) : MentionAt q row p := by
  obtain ⟨u, t, htext, hname⟩ := mem_run_bind.1 (mem_run_of_match? h)
  obtain ⟨name, r, hword, -⟩ := mem_run_bind.1 hname
  have ht := of_mem_text htext
  obtain ⟨hr, hall⟩ := of_mem_many1 hword
  obtain ⟨c, chars, hchars⟩ := List.exists_cons_of_ne_nil (ne_nil_of_mem_many1 hword)
  refine ⟨⟨t, ht.symm⟩, ⟨c, ?_, hall c (by simp [hchars])⟩, hbefore⟩
  rw [behindDot_eq ht, hr, hchars]
  rfl

/-- A word is read to its end. -/
theorem match?_longest_word {t : List Char} (h : ∃ c ∈ t.head?, Text.isWord c = true) :
    word.match? t = some (⟨(t.takeWhile Text.isWord).reverse⟩, t.dropWhile Text.isWord) := by
  obtain ⟨c, hc, hword⟩ := h
  obtain ⟨u, rfl⟩ := List.head?_eq_some_iff.1 hc
  have hname : (c :: u).takeWhile Text.isWord ≠ [] := by
    rw [List.takeWhile_cons_of_pos hword]
    exact List.cons_ne_nil _ _
  have hend : ∀ d ∈ ((c :: u).dropWhile Text.isWord).head?, Text.isWord d = false := by
    have hhead := List.head?_dropWhile_not Text.isWord (c :: u)
    intro d hd
    rw [Option.mem_def.1 hd] at hhead
    simpa using hhead
  have hread := match?_many1 hname (fun d hd => List.mem_takeWhile_imp hd) hend
  rwa [List.takeWhile_append_dropWhile] at hread

/-- What is mentioned at a place is read there: the qualifier with its dot, a name and no more than the mark of a
call. -/
theorem MentionAt.exists_match? (h : MentionAt q row p) :
    ∃ name mark r, row.drop p = (q ++ ".").toList ++ (name ++ (mark ++ r)) ∧ (∀ c ∈ name, Text.isWord c = true) ∧
      (mark = [] ∨ mark = ['('] ∨ mark = [' ', '(']) ∧
      (reference q).match? (row.drop p) = some (referenceAt q row p, r) := by
  obtain ⟨⟨t, ht⟩, hword, -⟩ := h
  have hbehind := behindDot_eq ht.symm
  rw [hbehind] at hword
  obtain ⟨mark, r, call, hmark, hform, hcalled, hcall⟩ := match?_optional_callMark (t.dropWhile Text.isWord)
  refine ⟨t.takeWhile Text.isWord, mark, r, ?_, fun d hd => List.mem_takeWhile_imp hd, hform, ?_⟩
  · rw [← ht, ← hmark, List.takeWhile_append_dropWhile]
  · rw [← ht, referenceAt, hbehind, ← hcalled]
    refine match?_bind (match?_text _ _) (match?_bind (match?_longest_word hword) (match?_bind hcall ?_))
    simp only [Taken.chars, List.reverse_reverse]
    rfl

end Place

section Inside

variable {q : String} {row : Line} {p : Nat}

/-- No mention starts behind a word character. -/
theorem not_mentionAt_succ {c : Char} (h : row[p]? = some c) (hc : Text.isWord c = true) :
    ¬ MentionAt q row (p + 1) := by
  rintro ⟨-, -, hzero | ⟨d, hd, hword⟩⟩
  · cases hzero
  · rw [Nat.add_sub_cancel, h] at hd
    rw [← Option.some.inj hd, hc] at hword
    cases hword

variable (hq : ∀ c ∈ q.toList, Text.isWord c = true) (hne : q.toList ≠ [])

include hq hne in
/-- No mention starts at a parenthesis. -/
theorem not_mentionAt_paren {r : List Char} (h : row.drop p = '(' :: r) : ¬ MentionAt q row p := by
  rintro ⟨hdotted, -, -⟩
  obtain ⟨c, t, hchars⟩ := List.exists_cons_of_ne_nil hne
  rw [h, String.toList_append, hchars, List.cons_append, List.cons_prefix_cons] at hdotted
  have hparen := hq '(' (by simp [hchars, hdotted.1])
  exact absurd hparen (by decide)

include hq hne in
/-- Inside what a mention takes none starts, unless the qualifier is mentioned as a member. -/
theorem not_mentionAt_inside (hself : ¬ (q ++ "." ++ q ++ ".").toList <:+: row) {name mark r : List Char}
    (hdrop : row.drop p = (q ++ ".").toList ++ (name ++ (mark ++ r))) (hname : ∀ c ∈ name, Text.isWord c = true)
    (hform : mark = [] ∨ mark = ['('] ∨ mark = [' ', '(']) {k : Nat}
    (hk : k < q.length + name.length + mark.length) : ¬ MentionAt q row (p + 1 + k) := by
  have hbehind : row.drop (p + 1 + q.length) = name ++ (mark ++ r) := by
    rw [Nat.add_right_comm, Nat.add_assoc]
    exact behindDot_eq hdrop
  rcases lt_trichotomy k q.length with hqualifier | rfl | hlater
  · -- a word goes on in the qualifier
    have hlt : k < q.toList.length := by rwa [String.length_toList]
    have hc : row[p + k]? = some q.toList[k] := by
      rw [← List.getElem?_drop, hdrop, String.toList_append, List.append_assoc, List.getElem?_append_left hlt,
        List.getElem?_eq_getElem hlt]
    rw [Nat.add_right_comm]
    exact not_mentionAt_succ hc (hq _ (List.getElem_mem hlt))
  · -- the name is the qualifier itself
    rintro ⟨⟨t, ht⟩, -, -⟩
    refine hself (List.IsInfix.trans ⟨[], t, ?_⟩ (List.drop_suffix p row).isInfix)
    rw [hdrop, ← hbehind, ← ht]
    simp [String.toList_append]
  · obtain ⟨j, rfl⟩ := Nat.exists_eq_add_of_lt hlater
    rcases Nat.lt_or_ge j name.length with hword | hmark
    · -- a word goes on in the name
      have hc : row[p + 1 + q.length + j]? = some name[j] := by
        rw [← List.getElem?_drop, hbehind, List.getElem?_append_left hword, List.getElem?_eq_getElem hword]
      rw [show p + 1 + (q.length + j + 1) = p + 1 + q.length + j + 1 by omega]
      exact not_mentionAt_succ hc (hname _ (List.getElem_mem hword))
    · -- only the longer mark of a call is left
      rcases hform with rfl | rfl | rfl
      · simp only [List.length_nil] at hk
        omega
      · simp only [List.length_singleton] at hk
        omega
      · simp only [List.length_cons, List.length_nil] at hk
        obtain rfl : j = name.length := by omega
        refine not_mentionAt_paren hq hne (r := r) ?_
        rw [show p + 1 + (q.length + name.length + 1) = p + 1 + q.length + (name.length + 1) by omega,
          ← List.drop_drop, hbehind, ← List.drop_drop, List.drop_left]
        rfl

end Inside

section Search

variable {q : String} {row : Line}

/-- A mention may start at a place. -/
theorem atWord_iff {p : Nat} (hp : p ≤ row.length) :
    atWord (row.take p).getLast? = true ↔ p = 0 ∨ ∃ c ∈ row[p - 1]?, Text.isWord c = false := by
  cases p with
  | zero => simp [atWord]
  | succ p =>
    have hlast : (row.take (p + 1)).getLast? = row[p]? := by
      rw [List.getLast?_take, if_neg (by omega), Nat.add_sub_cancel, List.getElem?_eq_getElem hp]
      rfl
    rw [hlast, List.getElem?_eq_getElem hp]
    simp [atWord, List.getElem?_eq_getElem (show p < row.length from hp)]

variable (hq : ∀ c ∈ q.toList, Text.isWord c = true) (hne : q.toList ≠ [])
  (hself : ¬ (q ++ "." ++ q ++ ".").toList <:+: row)

include hq hne hself

/-- The search from a place on, where the next `skip` places hold no mention. -/
theorem go_eq {p skip : Nat} {s : List Char} (hs : row.drop p = s) (hskip : ∀ k < skip, ¬ MentionAt q row (p + k)) :
    (findAll.go (reference q) atWord (row.take p).getLast? skip s).map (·.value) =
      ((List.range' p s.length).filter (MentionAt q row)).map (referenceAt q row) := by
  induction s generalizing p skip with
  | nil => rfl
  | cons c s ih =>
    have hp : p < row.length := List.length_lt_of_drop_ne_nil (hs ▸ List.cons_ne_nil c s)
    have hrest : row.drop (p + 1) = s := by
      rw [← List.drop_drop, hs]
      rfl
    have hbefore : some c = (row.take (p + 1)).getLast? := by
      rw [List.drop_eq_getElem_cons hp] at hs
      rw [List.take_add_one, List.getElem?_eq_getElem hp, Option.toList_some, List.getLast?_concat,
        (List.cons.inj hs).1]
    rw [List.length_cons, List.range'_succ]
    cases skip with
    | succ skip =>
      rw [findAll.go, List.filter_cons_of_neg (by simpa using hskip 0 (by omega)), hbefore]
      refine ih hrest fun k hk => ?_
      rw [show p + 1 + k = p + (k + 1) by omega]
      exact hskip (k + 1) (by omega)
    | zero =>
      by_cases hmention : MentionAt q row p
      · obtain ⟨name, mark, r, hdrop, hname, hform, hmatch⟩ := hmention.exists_match?
        rw [findAll.go, if_pos ((atWord_iff hp.le).2 hmention.2.2), ← hs, hmatch,
          List.filter_cons_of_pos (by simpa using hmention), hbefore]
        refine congrArg (referenceAt q row p :: ·) (ih hrest fun k hk => ?_)
        refine not_mentionAt_inside hq hne hself hdrop hname hform ?_
        simp only [hdrop, List.length_append, length_dotted] at hk
        omega
      · have hnone : (if atWord (row.take p).getLast? then (reference q).match? (c :: s) else none) = none := by
          split_ifs with hstart
          · refine Option.eq_none_iff_forall_ne_some.2 fun x hx => hmention ?_
            exact mentionAt_of_match? (hs ▸ hx) ((atWord_iff hp.le).1 hstart)
          · rfl
        rw [findAll.go, hnone, List.filter_cons_of_neg (by simpa using hmention), hbefore]
        exact ih hrest fun k hk => absurd hk (Nat.not_lt_zero k)

theorem references_eq : references q row =
    ((List.range row.length).filter (MentionAt q row)).map (referenceAt q row) := by
  have hnone : ∀ k < 0, ¬ MentionAt q row (0 + k) := fun k hk => absurd hk (Nat.not_lt_zero k)
  rw [List.range_eq_range']
  exact go_eq hq hne hself List.drop_zero hnone

end Search

theorem isPrivateName_iff (name : String) :
    Indented.isPrivateName name = true ↔ ['_'] <+: name.toList ∧ ['_'] <:+ name.toList := by
  rw [Indented.isPrivateName, Bool.and_eq_true, String.startsWith_string_iff, String.endsWith_eq_endsWith_toSlice,
    String.Slice.endsWith_string_iff, String.copy_toSlice]
  rfl

/-- The members of the own object that a line mentions: one at each place where the qualifier stands as a word with a
dot and a name behind it, from left to right. In the indented family names with an underscore at both ends are left
out. -/
theorem references_at_places (f : Family) (q : String) (hq : (f, q) ∈ [(.indented, "self"), (.braced, "this")])
    (row : Line) (hself : ¬ (q ++ "." ++ q ++ ".").toList <:+: row) :
    f.references row =
      (((List.range row.length).filter (MentionAt q row)).map (referenceAt q row)).filter
        fun r => ¬ (f = .indented ∧ ['_'] <+: r.name.toList ∧ ['_'] <:+ r.name.toList) := by
  obtain rfl : f.qualifier = q := by
    rcases List.mem_pair.1 hq with hf | hf
    · cases hf
      rfl
    · cases hf
      rfl
  have hword : ∀ c ∈ f.qualifier.toList, Text.isWord c = true := List.all_eq_true.1 (by cases f <;> decide)
  have hne : f.qualifier.toList ≠ [] := by cases f <;> decide
  rw [← references_eq hword hne hself]
  cases f with
  | indented =>
    refine List.filter_congr fun r _ => ?_
    rw [Bool.eq_iff_iff]
    simp [← isPrivateName_iff]
  | braced => simp [Family.references, Braced.references, Family.qualifier]

/-- A mention right behind the mark of a call, one in a longer word, one with two spaces before the parenthesis, and a
name with an underscore at both ends. -/
theorem references_at_places_dense :
    let row := "self.a(self.b, myself.c) + self.d (self.e  (self._f_, self.é))".toList
    (Family.indented, "self") ∈ [(Family.indented, "self"), (.braced, "this")] ∧
      ¬ ("self" ++ "." ++ "self" ++ ".").toList <:+: row ∧
      Family.references .indented row =
        [⟨"a", true⟩, ⟨"b", false⟩, ⟨"d", true⟩, ⟨"e", false⟩, ⟨"é", false⟩] := by
  intro row
  have hq : (Family.indented, "self") ∈ [(Family.indented, "self"), (.braced, "this")] := List.mem_cons_self
  have hself : ¬ ("self" ++ "." ++ "self" ++ ".").toList <:+: row := by decide +kernel
  exact ⟨hq, hself, (references_at_places .indented "self" hq row hself).trans (by decide +kernel)⟩

end DesignLint.Source
