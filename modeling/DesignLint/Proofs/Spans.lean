import DesignLint.Source.Declaration
import Mathlib.Tactic

/-! Spans of declarations. A class that is still open is laid out up to the line read next: its
methods lie behind its header, one after the other, and it has exactly their variables. Every walk
that keeps this closes classes whose spans are nested and disjoint. -/

namespace DesignLint

/-- The first of the lines from `i` on is line `i`, and the others are the lines behind it. -/
theorem of_drop_eq_cons {α : Type} {l rest : List α} {i : Nat} {a : α} (h : l.drop i = a :: rest) :
    l[i]? = some a ∧ l.drop (i + 1) = rest := by
  refine ⟨?_, ?_⟩
  · rw [← List.head?_drop, h, List.head?_cons]
  · rw [← List.drop_drop, h, List.drop_one, List.tail_cons]

section Ordered

variable {α : Type} {first last : α → Nat} {l : List α}

/-- Spans that follow one another and share a line are the same. -/
theorem eq_of_shared_line (hle : ∀ a ∈ l, first a ≤ last a)
    (h : l.Pairwise fun a b => last a < first b) {a b : α} (ha : a ∈ l) (hb : b ∈ l) {j : Nat}
    (ha1 : first a ≤ j) (ha2 : j ≤ last a) (hb1 : first b ≤ j) (hb2 : j ≤ last b) : a = b := by
  induction l with
  | nil => exact absurd ha List.not_mem_nil
  | cons x l ih =>
    rw [List.pairwise_cons] at h
    rcases List.mem_cons.1 ha with rfl | hal <;> rcases List.mem_cons.1 hb with rfl | hbl
    · rfl
    · have := h.1 b hbl; omega
    · have := h.1 a hal; omega
    · exact ih (fun y hy => hle y (List.mem_cons_of_mem x hy)) h.2 hal hbl

/-- As soon as a span starts on line `j`, exactly one does. -/
theorem starts_at_iff {name : α → String} {n : String} {j : Nat} (hle : ∀ a ∈ l, first a ≤ last a)
    (h : l.Pairwise fun a b => last a < first b) (hname : ∀ a ∈ l, first a = j → name a = n) :
    (l.filter (first · = j)).map name = [n] ↔ ∃ a ∈ l, first a = j := by
  induction l with
  | nil => simp
  | cons x l ih =>
    rw [List.pairwise_cons] at h
    have ih := ih (fun y hy => hle y (List.mem_cons_of_mem x hy)) h.2
      (fun y hy => hname y (List.mem_cons_of_mem x hy))
    by_cases hx : first x = j
    · -- every later span starts behind this one
      have hrest : l.filter (first · = j) = [] := by
        refine List.filter_eq_nil_iff.2 fun b hb => ?_
        have h1 := h.1 b hb
        have h2 := hle x List.mem_cons_self
        simp only [decide_eq_true_eq]
        omega
      rw [List.filter_cons_of_pos (by simpa using hx), hrest]
      simp [hx, hname x List.mem_cons_self hx]
    · rw [List.filter_cons_of_neg (by simpa using hx), ih]
      simp [hx]

end Ordered

theorem mem_addName {names : List String} {name v : String} :
    v ∈ addName names name ↔ v ∈ names ∨ v = name := by
  unfold addName
  split_ifs with h
  · constructor
    · exact Or.inl
    · rintro (hv | rfl)
      · exact hv
      · exact h
  · simp

def Reference.variables (refs : List Reference) : List String :=
  (refs.filter fun r => !r.isCall).map (·.name)

namespace MethodDecl

/-- Line `j` belongs to the method and is not its first line. -/
def Covers (m : MethodDecl) (j : Nat) : Prop := m.startLine < j ∧ j ≤ m.endLine

@[simp] theorem mention_nil (m : MethodDecl) : m.mention [] = m := rfl

theorem mention_cons (m : MethodDecl) (r : Reference) (refs : List Reference) :
    m.mention (r :: refs) =
      (if r.isCall then { m with calledMethods := addName m.calledMethods r.name }
      else { m with usedVariables := addName m.usedVariables r.name }).mention refs := rfl

theorem mention_spans (m : MethodDecl) (refs : List Reference) :
    (m.mention refs).name = m.name ∧ (m.mention refs).startLine = m.startLine ∧
      (m.mention refs).endLine = m.endLine ∧ (m.mention refs).headerEnd = m.headerEnd := by
  induction refs generalizing m with
  | nil => exact ⟨rfl, rfl, rfl, rfl⟩
  | cons r refs ih =>
    rw [mention_cons]
    split_ifs with hr
    · exact ih { m with calledMethods := addName m.calledMethods r.name }
    · exact ih { m with usedVariables := addName m.usedVariables r.name }

@[simp] theorem mention_name (m : MethodDecl) (refs : List Reference) :
    (m.mention refs).name = m.name := (m.mention_spans refs).1

@[simp] theorem mention_startLine (m : MethodDecl) (refs : List Reference) :
    (m.mention refs).startLine = m.startLine := (m.mention_spans refs).2.1

@[simp] theorem mention_endLine (m : MethodDecl) (refs : List Reference) :
    (m.mention refs).endLine = m.endLine := (m.mention_spans refs).2.2.1

@[simp] theorem mention_headerEnd (m : MethodDecl) (refs : List Reference) :
    (m.mention refs).headerEnd = m.headerEnd := (m.mention_spans refs).2.2.2

theorem mem_mention_usedVariables {m : MethodDecl} {refs : List Reference} {v : String} :
    v ∈ (m.mention refs).usedVariables ↔ v ∈ m.usedVariables ∨ v ∈ Reference.variables refs := by
  induction refs generalizing m with
  | nil => simp [Reference.variables]
  | cons r refs ih =>
    rw [mention_cons, ih]
    cases hr : r.isCall with
    | true => simp [Reference.variables, hr]
    | false => simp [Reference.variables, hr, mem_addName, or_assoc]

end MethodDecl

namespace ClassDecl

@[simp] theorem mention_nil (c : ClassDecl) : c.mention [] = c := rfl

theorem mention_cons (c : ClassDecl) (r : Reference) (refs : List Reference) :
    c.mention (r :: refs) =
      (if r.isCall then c
      else { c with instanceVariables := addName c.instanceVariables r.name }).mention refs := rfl

/-- Mentions change the variables of a class and nothing else. -/
theorem mention_eq (c : ClassDecl) (refs : List Reference) :
    c.mention refs = { c with instanceVariables := (c.mention refs).instanceVariables } := by
  induction refs generalizing c with
  | nil => rfl
  | cons r refs ih =>
    rw [mention_cons]
    split_ifs with hr
    · exact ih c
    · exact ih { c with instanceVariables := addName c.instanceVariables r.name }

@[simp] theorem mention_name (c : ClassDecl) (refs : List Reference) :
    (c.mention refs).name = c.name := by rw [mention_eq]

@[simp] theorem mention_startLine (c : ClassDecl) (refs : List Reference) :
    (c.mention refs).startLine = c.startLine := by rw [mention_eq]

@[simp] theorem mention_methods (c : ClassDecl) (refs : List Reference) :
    (c.mention refs).methods = c.methods := by rw [mention_eq]

@[simp] theorem mention_constructor? (c : ClassDecl) (refs : List Reference) :
    (c.mention refs).constructor? = c.constructor? := by rw [mention_eq]

theorem mem_mention_instanceVariables {c : ClassDecl} {refs : List Reference} {v : String} :
    v ∈ (c.mention refs).instanceVariables ↔
      v ∈ c.instanceVariables ∨ v ∈ Reference.variables refs := by
  induction refs generalizing c with
  | nil => simp [Reference.variables]
  | cons r refs ih =>
    rw [mention_cons, ih]
    cases hr : r.isCall with
    | true => simp [Reference.variables, hr]
    | false => simp [Reference.variables, hr, mem_addName, or_assoc]

theorem mem_addMethod (c : ClassDecl) (m : MethodDecl) : m ∈ (c.addMethod m).methods :=
  List.mem_append_right _ (List.mem_singleton_self m)

/-- The class is laid out before line `stop`: its methods follow its header without overlap, and its
variables are those of its methods. -/
structure Laid (c : ClassDecl) (stop : Nat) : Prop where
  start_lt : c.startLine < stop
  methods : ∀ m ∈ c.methods, c.startLine < m.startLine ∧ m.startLine ≤ m.headerEnd ∧
    m.headerEnd ≤ m.endLine ∧ m.endLine < stop
  ordered : c.methods.Pairwise fun a b => a.endLine < b.startLine
  shares : ∀ v, v ∈ c.instanceVariables ↔ ∃ m ∈ c.methods, v ∈ m.usedVariables

namespace Laid

variable {c : ClassDecl} {m : MethodDecl} {stop : Nat}

theorem begin (name : List Char) (i : Nat) : (ClassDecl.begin name i).Laid (i + 1) where
  start_lt := Nat.lt_succ_self i
  methods := by simp [ClassDecl.begin]
  ordered := List.Pairwise.nil
  shares := by simp [ClassDecl.begin]

theorem mono (h : c.Laid stop) {stop' : Nat} (hs : stop ≤ stop') : c.Laid stop' where
  start_lt := lt_of_lt_of_le h.start_lt hs
  methods := by
    intro m hm
    obtain ⟨h1, h2, h3, h4⟩ := h.methods m hm
    exact ⟨h1, h2, h3, lt_of_lt_of_le h4 hs⟩
  ordered := h.ordered
  shares := h.shares

/-- Only the first line, the methods and the variables matter. -/
theorem congr (h : c.Laid stop) {c' : ClassDecl} (hs : c'.startLine = c.startLine)
    (hm : c'.methods = c.methods) (hv : c'.instanceVariables = c.instanceVariables) :
    c'.Laid stop where
  start_lt := hs ▸ h.start_lt
  methods := by rw [hm, hs]; exact h.methods
  ordered := by rw [hm]; exact h.ordered
  shares := by rw [hm, hv]; exact h.shares

theorem last (h : (c.addMethod m).Laid stop) : c.startLine < m.startLine ∧
    m.startLine ≤ m.headerEnd ∧ m.headerEnd ≤ m.endLine ∧ m.endLine < stop :=
  h.methods m (c.mem_addMethod m)

/-- A method that begins on the line read now. -/
theorem addMethod_begin (h : c.Laid stop) (name : List Char) :
    (c.addMethod (.begin name stop)).Laid (stop + 1) where
  start_lt := Nat.lt_succ_of_lt h.start_lt
  methods := by
    intro m hm
    rcases List.mem_append.1 hm with hm | hm
    · obtain ⟨h1, h2, h3, h4⟩ := h.methods m hm
      exact ⟨h1, h2, h3, Nat.lt_succ_of_lt h4⟩
    · rw [List.mem_singleton.1 hm]
      exact ⟨h.start_lt, le_rfl, le_rfl, Nat.lt_succ_self stop⟩
  ordered := by
    refine List.pairwise_append.2 ⟨h.ordered, List.pairwise_singleton _ _, ?_⟩
    intro a ha b hb
    rw [List.mem_singleton.1 hb]
    exact (h.methods a ha).2.2.2
  shares := by
    intro v
    simp [ClassDecl.addMethod, MethodDecl.begin, h.shares v]

/-- The last method goes on, and the class takes what it mentions. -/
theorem extend (h : (c.addMethod m).Laid stop) {m' : MethodDecl} {stop' : Nat} (refs : List Reference)
    (hstop : stop ≤ stop') (hstart : m'.startLine = m.startLine) (hheader : m.headerEnd ≤ m'.headerEnd)
    (hbody : m'.headerEnd ≤ m'.endLine) (hend : m'.endLine < stop')
    (hused : ∀ v, v ∈ m'.usedVariables ↔ v ∈ m.usedVariables ∨ v ∈ Reference.variables refs) :
    ((c.mention refs).addMethod m').Laid stop' where
  start_lt := by
    simpa [ClassDecl.addMethod] using lt_of_lt_of_le h.start_lt hstop
  methods := by
    intro a ha
    simp only [ClassDecl.addMethod, mention_methods, mention_startLine] at ha ⊢
    rcases List.mem_append.1 ha with ha | ha
    · obtain ⟨h1, h2, h3, h4⟩ := h.methods a (List.mem_append_left _ ha)
      exact ⟨h1, h2, h3, lt_of_lt_of_le h4 hstop⟩
    · rw [List.mem_singleton.1 ha, hstart]
      obtain ⟨h1, h2, -, -⟩ := h.last
      exact ⟨h1, h2.trans hheader, hbody, hend⟩
  ordered := by
    have ho := List.pairwise_append.1 h.ordered
    simp only [ClassDecl.addMethod, mention_methods]
    refine List.pairwise_append.2 ⟨ho.1, List.pairwise_singleton _ _, ?_⟩
    intro a ha b hb
    rw [List.mem_singleton.1 hb, hstart]
    exact ho.2.2 a ha m (List.mem_singleton_self m)
  shares := by
    intro v
    have hv := h.shares v
    simp only [ClassDecl.addMethod, List.mem_append, List.mem_singleton] at hv
    simp only [ClassDecl.addMethod, mention_methods, mem_mention_instanceVariables, hv,
      List.mem_append, List.mem_singleton]
    constructor
    · rintro (⟨a, ha | rfl, hva⟩ | hr)
      · exact ⟨a, Or.inl ha, hva⟩
      · exact ⟨m', Or.inr rfl, (hused v).2 (Or.inl hva)⟩
      · exact ⟨m', Or.inr rfl, (hused v).2 (Or.inr hr)⟩
    · rintro ⟨a, ha | rfl, hva⟩
      · exact Or.inl ⟨a, Or.inl ha, hva⟩
      · rcases (hused v).1 hva with hva | hr
        · exact Or.inl ⟨m, Or.inr rfl, hva⟩
        · exact Or.inr hr

end Laid

end ClassDecl

/-- What a walk has done before line `i`: the classes it has closed, in order, and the class it has
open, if any, which lies behind them. -/
structure Layout (i : Nat) (done : List ClassDecl) (draft : Option ClassDecl) : Prop where
  closed : ∀ c ∈ done, c.Laid (c.endLine + 1) ∧ c.endLine < i
  ordered : done.Pairwise fun a b => a.endLine < b.startLine
  laid : ∀ c ∈ draft, c.Laid i
  behind : ∀ c ∈ done, ∀ d ∈ draft, c.endLine < d.startLine

namespace Layout

variable {i : Nat} {done : List ClassDecl} {draft : Option ClassDecl}

theorem start : Layout 0 [] none :=
  ⟨by simp, List.Pairwise.nil, by simp, by simp⟩

/-- The open class goes on. -/
theorem grow {c c' : ClassDecl} (h : Layout i done (some c)) (hs : c'.startLine = c.startLine)
    (hc : c'.Laid (i + 1)) : Layout (i + 1) done (some c') := by
  refine ⟨?_, h.ordered, ?_, ?_⟩
  · intro a ha
    exact ⟨(h.closed a ha).1, Nat.lt_succ_of_lt (h.closed a ha).2⟩
  · rintro d ⟨⟩
    exact hc
  · rintro a ha d ⟨⟩
    rw [hs]
    exact h.behind a ha c rfl

theorem mono (h : Layout i done draft) : Layout (i + 1) done draft := by
  refine ⟨?_, h.ordered, ?_, h.behind⟩
  · intro a ha
    exact ⟨(h.closed a ha).1, Nat.lt_succ_of_lt (h.closed a ha).2⟩
  · intro d hd
    exact (h.laid d hd).mono (Nat.le_succ i)

/-- The open class is closed on the line before `i`. -/
theorem close (h : Layout i done draft) :
    Layout i (done ++ draft.toList.map fun c => c.endAt (i - 1)) none := by
  cases draft with
  | none => simpa using h
  | some c =>
    have hc := h.laid c rfl
    have hs := hc.start_lt
    have he : (c.endAt (i - 1)).endLine + 1 = i := by simp only [ClassDecl.endAt]; omega
    refine ⟨?_, ?_, by simp, by simp⟩
    · intro a ha
      rcases List.mem_append.1 ha with ha | ha
      · exact h.closed a ha
      · obtain rfl : a = c.endAt (i - 1) := List.mem_singleton.1 ha
        rw [he]
        exact ⟨hc.congr rfl rfl rfl, by omega⟩
    · refine List.pairwise_append.2 ⟨h.ordered, List.pairwise_singleton _ _, ?_⟩
      intro a ha b hb
      rw [List.mem_singleton.1 hb]
      exact h.behind a ha c rfl

/-- A class begins on line `i` when none is open. -/
theorem begin (h : Layout i done none) (name : List Char) :
    Layout (i + 1) done (some (.begin name i)) := by
  refine ⟨?_, h.ordered, ?_, ?_⟩
  · intro a ha
    exact ⟨(h.closed a ha).1, Nat.lt_succ_of_lt (h.closed a ha).2⟩
  · rintro d ⟨⟩
    exact .begin name i
  · rintro a ha d ⟨⟩
    exact (h.closed a ha).2

end Layout

/-- The spans of a class in a source of `size` lines: it lies in the source, its methods and its
constructor lie in it behind its header, its methods do not overlap, and its variables are theirs. -/
structure ClassDecl.WellFormed (c : ClassDecl) (size : Nat) : Prop where
  start_le : c.startLine ≤ c.endLine
  end_lt : c.endLine < size
  methods : ∀ m ∈ c.methods, c.startLine < m.startLine ∧ m.startLine ≤ m.headerEnd ∧
    m.headerEnd ≤ m.endLine ∧ m.endLine ≤ c.endLine
  ordered : c.methods.Pairwise fun a b => a.endLine < b.startLine
  constructor : ∀ k ∈ c.constructor?, c.startLine < k.startLine ∧ k.startLine ≤ k.endLine ∧
    k.endLine ≤ c.endLine
  shares : ∀ v, v ∈ c.instanceVariables ↔ ∃ m ∈ c.methods, v ∈ m.usedVariables

theorem ClassDecl.Laid.wellFormed {c : ClassDecl} {size : Nat} (h : c.Laid (c.endLine + 1))
    (hsize : c.endLine < size)
    (hk : ∀ k ∈ c.constructor?, c.startLine < k.startLine ∧ k.startLine ≤ k.endLine ∧
      k.endLine ≤ c.endLine) : c.WellFormed size where
  start_le := Nat.le_of_lt_succ h.start_lt
  end_lt := hsize
  methods := by
    intro m hm
    obtain ⟨h1, h2, h3, h4⟩ := h.methods m hm
    exact ⟨h1, h2, h3, Nat.le_of_lt_succ h4⟩
  ordered := h.ordered
  constructor := hk
  shares := h.shares

end DesignLint
