import DesignLint.Braced.Walk
import DesignLint.Indented.Patterns
import DesignLint.Proofs.PatternRuns
import DesignLint.Proofs.TrimmedTexts

/-! The headers of classes and methods, written out. In both families a header is recognised by what stands
before its name and by the first character behind it, whatever follows. -/

namespace DesignLint

structure Name where
  chars : List Char
  nonempty : chars ≠ []
  isWord : ∀ c ∈ chars, Text.isWord c = true

namespace Name

open Pattern

def taken (n : Name) : Taken := ⟨n.chars.reverse⟩

@[simp] theorem taken_chars (n : Name) : n.taken.chars = n.chars := by
  simp [taken, Taken.chars]

theorem isBlank_head (n : Name) (rest : List Char) : ∀ c ∈ (n.chars ++ rest).head?, Text.isBlank c = false := by
  obtain ⟨c, s, hs⟩ := List.exists_cons_of_ne_nil n.nonempty
  rw [hs]
  rintro d ⟨⟩
  exact Text.isBlank_of_isWord (n.isWord c (by simp [hs]))

theorem match?_word (n : Name) {rest : List Char} (hrest : ∀ c ∈ rest.head?, Text.isWord c = false) :
    word.match? (n.chars ++ rest) = some (n.taken, rest) :=
  match?_many1 n.nonempty n.isWord hrest

theorem of_mem_word {s r : List Char} {x : Taken} (h : (x, r) ∈ Pattern.word.run s) :
    ∃ n : Name, x = n.taken ∧ s = n.chars ++ r := by
  obtain ⟨hs, hok⟩ := of_mem_many1 h
  refine ⟨⟨x.chars, ne_nil_of_mem_many1 h, hok⟩, ?_, hs⟩
  simp [taken, Taken.chars]

end Name

namespace Indented

open Pattern

theorem match?_classHeader (n : Name) {gap rest : List Char} (hgap : gap ≠ [])
    (hblank : ∀ c ∈ gap, Text.isBlank c = true) (hrest : ∀ c ∈ rest.head?, Text.isWord c = false) :
    classHeader.match? ("class".toList ++ (gap ++ (n.chars ++ rest))) = some (n.taken, rest) :=
  match?_bind (match?_text "class" _)
    (match?_bind (match?_blanks1 hgap hblank (n.isBlank_head rest)) (n.match?_word hrest))

/-- What may stand before the name of a method: `def` and blanks, perhaps behind `async` and blanks. -/
inductive MethodLead : List Char → Prop
  | plain {gap : List Char} (hgap : gap ≠ []) (hblank : ∀ c ∈ gap, Text.isBlank c = true) :
      MethodLead ("def".toList ++ gap)
  | async {before gap : List Char} (hbefore : before ≠ []) (hblanks : ∀ c ∈ before, Text.isBlank c = true)
      (hgap : gap ≠ []) (hblank : ∀ c ∈ gap, Text.isBlank c = true) :
      MethodLead ("async".toList ++ (before ++ ("def".toList ++ gap)))

/-- No class starts like a method. -/
theorem MethodLead.classHeader_none {lead : List Char} (h : MethodLead lead) (s : List Char) :
    classHeader.match? (lead ++ s) = none := by
  refine match?_bind_none (match?_text_none ?_)
  cases h with
  | plain | async => simp

theorem MethodLead.isBlank_head {lead : List Char} (h : MethodLead lead) (s : List Char) :
    ∀ c ∈ (lead ++ s).head?, Text.isBlank c = false := by
  cases h with
  | plain | async =>
    rintro c ⟨⟩
    decide

def MethodForm (n : Name) (rest s : List Char) : Prop :=
  ∃ lead gap, s = lead ++ (n.chars ++ (gap ++ '(' :: rest)) ∧ MethodLead lead ∧ ∀ c ∈ gap, Text.isBlank c = true

theorem match?_methodHeader {n : Name} {rest s : List Char} (h : MethodForm n rest s) :
    methodHeader.match? s = some (n.taken, rest) := by
  obtain ⟨lead, gap, rfl, hlead, hgap⟩ := h
  have hhead := n.isBlank_head (gap ++ '(' :: rest)
  have hname : (do let name ← word; blanks; char '('; pure name).match? (n.chars ++ (gap ++ '(' :: rest)) =
      some (n.taken, rest) := by
    refine match?_bind (n.match?_word fun c hc => ?_) (match?_bind (match?_blanks hgap ?_) ?_)
    · cases gap with
      | nil =>
        obtain rfl : '(' = c := by simpa using hc
        decide
      | cons d gap =>
        obtain rfl : d = c := by simpa using hc
        exact Text.isWord_of_isBlank (hgap d List.mem_cons_self)
    · rintro c ⟨⟩
      decide
    · exact match?_bind (match?_char '(' rest) rfl
  cases hlead with
  | plain hne hblank =>
    rw [List.append_assoc]
    refine match?_bind (match?_optional_none (match?_bind_none (match?_text_none (by simp)))) ?_
    exact match?_bind (match?_text "def" _) (match?_bind (match?_blanks1 hne hblank hhead) hname)
  | async hbefore hblanks hne hblank =>
    simp only [List.append_assoc]
    refine match?_bind (match?_optional (match?_bind (match?_text "async" _)
      (match?_blanks1 hbefore hblanks ?_))) ?_
    · rintro c ⟨⟩
      decide
    · exact match?_bind (match?_text "def" _) (match?_bind (match?_blanks1 hne hblank hhead) hname)

theorem methodForm_of_match? {s rest : List Char} {name : Taken} (h : methodHeader.match? s = some (name, rest)) :
    ∃ n : Name, name = n.taken ∧ MethodForm n rest s := by
  obtain ⟨async, s₁, hasync, h₁⟩ := mem_run_bind.1 (mem_run_of_match? h)
  obtain ⟨_, s₂, hdef, h₂⟩ := mem_run_bind.1 h₁
  obtain ⟨_, s₃, hgap, h₃⟩ := mem_run_bind.1 h₂
  obtain ⟨word, s₄, hword, h₄⟩ := mem_run_bind.1 h₃
  obtain ⟨_, s₅, hblanks, h₅⟩ := mem_run_bind.1 h₄
  obtain ⟨_, s₆, hparen, h₆⟩ := mem_run_bind.1 h₅
  obtain ⟨rfl, rfl⟩ := Prod.mk.inj (List.mem_singleton.1 h₆)
  obtain rfl := of_mem_text hdef
  obtain ⟨gap, rfl, hgapNe, hgapBlank⟩ := of_mem_blanks1 hgap
  obtain ⟨n, rfl, rfl⟩ := Name.of_mem_word hword
  obtain ⟨behind, rfl, hbehind⟩ := of_mem_blanks hblanks
  obtain rfl := of_mem_char hparen
  refine ⟨n, rfl, ?_⟩
  rcases of_mem_optional hasync with ⟨_, -, hsome⟩ | ⟨-, rfl⟩
  · obtain ⟨_, t, htext, hbefore⟩ := mem_run_bind.1 hsome
    obtain rfl := of_mem_text htext
    obtain ⟨before, rfl, hne, hblank⟩ := of_mem_blanks1 hbefore
    exact ⟨_, behind, by simp, .async hne hblank hgapNe hgapBlank, hbehind⟩
  · exact ⟨_, behind, by simp, .plain hgapNe hgapBlank, hbehind⟩

end Indented

namespace Braced

open Pattern

theorem match?_optionalWord {w : String} {s : List Char} (h : ¬ w.toList <+: s) :
    (optionalWord w).match? s = some ((), s) :=
  match?_bind (match?_optional_none (match?_bind_none (match?_text_none h))) rfl

theorem match?_classHeader (n : Name) {gap rest : List Char} (hgap : gap ≠ [])
    (hblank : ∀ c ∈ gap, Text.isBlank c = true) (hrest : ∀ c ∈ rest.head?, Text.isWord c = false) :
    classHeader.match? ("class".toList ++ (gap ++ (n.chars ++ rest))) = some (n.taken, rest) := by
  refine match?_bind (match?_optionalWord (by simp)) ?_
  refine match?_bind (match?_optionalWord (by simp)) ?_
  refine match?_bind (match?_optionalWord (by simp)) ?_
  refine match?_bind (match?_text "class" _) ?_
  exact match?_bind (match?_blanks1 hgap hblank (n.isBlank_head rest)) (n.match?_word hrest)

section Member

variable (n : Name) (rest : List Char)

/-- What stands before the first parenthesis is a start of the name, and no blank follows it. -/
theorem behind_start {w r : List Char} (hw : '(' ∉ w) (h : n.chars ++ '(' :: rest = w ++ r) :
    ∃ u, n.chars = w ++ u ∧ r = u ++ '(' :: rest ∧ ∀ c ∈ r.head?, Text.isBlank c = false := by
  rcases List.append_eq_append_iff.1 h with ⟨v, hv, hr⟩ | ⟨u, hu, rfl⟩
  · cases v with
    | nil =>
      obtain rfl : r = '(' :: rest := hr.symm
      refine ⟨[], by simpa using hv.symm, rfl, ?_⟩
      rintro c ⟨⟩
      decide
    | cons c v =>
      obtain ⟨rfl, -⟩ := List.cons.inj hr
      exact absurd (hv ▸ List.mem_append_right _ List.mem_cons_self) hw
  · refine ⟨u, hu, rfl, fun c hc => ?_⟩
    cases u with
    | nil =>
      obtain rfl : '(' = c := by simpa using hc
      decide
    | cons d u =>
      obtain rfl : d = c := by simpa using hc
      exact Text.isBlank_of_isWord (n.isWord d (by simp [hu]))

/-- No modifier stands before a name that the parenthesis follows: a modifier is followed by a blank. -/
theorem run_modifier {ws : List String} (hws : ∀ w ∈ ws, '(' ∉ w.toList) :
    (do firstOf (ws.map text); blanks1).run (n.chars ++ '(' :: rest) = [] := by
  refine List.eq_nil_iff_forall_not_mem.2 fun x hx => ?_
  obtain ⟨_, t, hfirst, hblanks⟩ := mem_run_bind.1 hx
  obtain ⟨p, hp, hmem⟩ := List.mem_flatMap.1 hfirst
  obtain ⟨w, hw, rfl⟩ := List.mem_map.1 hp
  obtain ⟨u, -, -, hhead⟩ := behind_start n rest (hws w hw) (of_mem_text hmem)
  obtain ⟨gap, rfl, hne, hgap⟩ := of_mem_blanks1 hblanks
  obtain ⟨c, gap, rfl⟩ := List.exists_cons_of_ne_nil hne
  have hblank := hgap c List.mem_cons_self
  rw [hhead c rfl] at hblank
  cases hblank

/-- Only a constructor has the header of a constructor. -/
theorem constructorHeader_accepts (h : String.ofList n.chars ≠ constructorName) :
    constructorHeader.accepts (n.chars ++ '(' :: rest) = false := by
  have hrun : constructorHeader.run (n.chars ++ '(' :: rest) = [] := by
    refine List.eq_nil_iff_forall_not_mem.2 fun x hx => ?_
    obtain ⟨_, t, hmodifier, hx⟩ := mem_run_bind.1 hx
    obtain ⟨_, t', htext, hx⟩ := mem_run_bind.1 hx
    obtain ⟨_, t'', hblanks, hparen⟩ := mem_run_bind.1 hx
    rcases of_mem_optional hmodifier with ⟨_, -, hmodifier⟩ | ⟨-, rfl⟩
    · rw [run_modifier n rest (by decide)] at hmodifier
      cases hmodifier
    obtain ⟨u, hu, hrest, hhead⟩ := behind_start n rest (by decide) (of_mem_text htext)
    obtain ⟨gap, rfl, hgap⟩ := of_mem_blanks hblanks
    obtain rfl : gap = [] := by
      cases gap with
      | nil => rfl
      | cons c gap =>
        have hblank := hgap c List.mem_cons_self
        rw [hhead c rfl] at hblank
        cases hblank
    rw [List.nil_append, of_mem_char hparen] at hrest
    cases u with
    | nil =>
      rw [hu, List.append_nil] at h
      exact h String.ofList_toList
    | cons c u =>
      obtain ⟨rfl, -⟩ := List.cons.inj hrest
      have hword := n.isWord '(' (by simp [hu])
      revert hword
      decide
  rw [accepts, match?, hrun]
  rfl

theorem match?_methodHeader : methodHeader.match? (n.chars ++ '(' :: rest) = some (n.taken, rest) := by
  have hparen : ∀ ok : Char → Bool, ok '(' = false → ∀ c ∈ ('(' :: rest).head?, ok c = false := by
    rintro ok hok c ⟨⟩
    exact hok
  have hgap := match?_blanks (t := []) (by simp) (hparen Text.isBlank (by decide))
  refine match?_bind (match?_repeated_none ?_) ?_
  · rw [match?, run_modifier n rest (by decide)]
    rfl
  refine match?_bind (match?_optional_none (match?_char_none ?_)) ?_
  · obtain ⟨c, s, hs⟩ := List.exists_cons_of_ne_nil n.nonempty
    rw [hs]
    rintro d ⟨⟩ rfl
    have hword := n.isWord '*' (by simp [hs])
    revert hword
    decide
  refine match?_bind (match?_blanks (t := []) (by simp) (n.isBlank_head _)) ?_
  refine match?_bind (n.match?_word (hparen Text.isWord (by decide))) (match?_bind hgap ?_)
  refine match?_bind (match?_bind (match?_optional_none rfl) rfl) (match?_bind hgap ?_)
  exact match?_bind (match?_char '(' rest) rfl

end Member

end Braced

end DesignLint
