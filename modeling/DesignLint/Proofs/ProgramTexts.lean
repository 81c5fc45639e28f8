import DesignLint.Proofs.Headers
import DesignLint.Proofs.Spans

/-! Programs that are written in a fixed layout: classes one behind another, and in each of them its
methods one behind another. What a family of languages should find in such a program is laid out in the
same way. -/

namespace DesignLint

structure MethodText where
  name : Name
  body : List Line

structure ClassText (μ : Type) where
  name : Name
  methods : List μ

section InSequence

variable {α β : Type} (lines : α → List Line) (place : Nat → α → β)

/-- What is written one behind another, the first of it on line `i`. -/
def inSequence : Nat → List α → List β
  | _, [] => []
  | i, a :: as => place i a :: inSequence (i + (lines a).length) as

/-- Each part stands behind the lines of the parts before it. -/
theorem of_mem_inSequence {i : Nat} {as : List α} {b : β} (h : b ∈ inSequence lines place i as) :
    ∃ before a after, as = before ++ a :: after ∧ b = place (i + (before.flatMap lines).length) a := by
  induction as generalizing i with
  | nil => cases h
  | cons a as ih =>
    rcases List.mem_cons.1 h with rfl | h
    · exact ⟨[], a, as, rfl, rfl⟩
    · obtain ⟨before, a', after, rfl, rfl⟩ := ih h
      refine ⟨a :: before, a', after, rfl, ?_⟩
      rw [List.flatMap_cons, List.length_append, Nat.add_assoc]

/-- A function of the parts may depend on the lines before them. -/
theorem map_inSequence {γ : Type} {f : β → γ} {place' : Nat → α → γ} {i : Nat} {as : List α}
    (h : ∀ before a after, as = before ++ a :: after →
      f (place (i + (before.flatMap lines).length) a) = place' (i + (before.flatMap lines).length) a) :
    (inSequence lines place i as).map f = inSequence lines place' i as := by
  induction as generalizing i with
  | nil => rfl
  | cons a as ih =>
    have hfirst := h [] a as rfl
    refine List.cons_eq_cons.2 ⟨hfirst, ih fun before b after hsplit => ?_⟩
    have hnext := h (a :: before) b after (by rw [hsplit, List.cons_append])
    rwa [List.flatMap_cons, List.length_append, ← Nat.add_assoc] at hnext

end InSequence

def distinct (names : List String) : List String := names.foldl addName []

def Reference.calls (refs : List Reference) : List String :=
  (refs.filter (·.isCall)).map (·.name)

section Mention

variable (refs more : List Reference)

/-- A method takes the variables and the calls that are mentioned, each name once. -/
theorem MethodDecl.mention_eq (m : MethodDecl) : m.mention refs =
    { m with
      usedVariables := (Reference.variables refs).foldl addName m.usedVariables
      calledMethods := (Reference.calls refs).foldl addName m.calledMethods } := by
  induction refs generalizing m with
  | nil => rfl
  | cons r refs ih =>
    rw [mention_cons, ih]
    cases hr : r.isCall <;> simp [Reference.variables, Reference.calls, hr]

theorem ClassDecl.mention_eq_foldl (c : ClassDecl) : c.mention refs =
    { c with instanceVariables := (Reference.variables refs).foldl addName c.instanceVariables } := by
  induction refs generalizing c with
  | nil => rfl
  | cons r refs ih =>
    rw [mention_cons, ih]
    cases hr : r.isCall <;> simp [Reference.variables, hr]

theorem MethodDecl.mention_append (m : MethodDecl) : m.mention (refs ++ more) = (m.mention refs).mention more :=
  List.foldl_append

theorem ClassDecl.mention_append (c : ClassDecl) : c.mention (refs ++ more) = (c.mention refs).mention more :=
  List.foldl_append

/-- The last line does not matter for what is mentioned. -/
theorem MethodDecl.mention_with_endLine (m : MethodDecl) (i : Nat) :
    { m.mention refs with endLine := i } = { m with endLine := i }.mention refs := by
  rw [mention_eq, mention_eq]

end Mention

end DesignLint
