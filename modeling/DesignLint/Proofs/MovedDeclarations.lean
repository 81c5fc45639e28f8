import DesignLint.Proofs.Spans
import DesignLint.Text.Line
import Mathlib.Data.List.Forall2

/-! Declarations that differ only in their line numbers, and walks that read a line more. Of two sources, of
which one has one line more than the other, a walk gives such declarations if it runs over both in step: the
lines that they share do the same in related states, and the line of its own keeps the states related. -/

namespace DesignLint

/-- The number of line `i` once a line is put in front of line `k`. -/
def insertedAt (k i : Nat) : Nat := if i < k then i else i + 1

theorem insertedAt_of_lt {k i : Nat} (h : i < k) : insertedAt k i = i := if_pos h

theorem insertedAt_of_le {k i : Nat} (h : k ≤ i) : insertedAt k i = i + 1 := if_neg (Nat.not_lt.2 h)

inductive Inserted (new : Line) : List Line → List Line → Prop
  | same (lines : List Line) : Inserted new lines lines
  | put (above below : List Line) : Inserted new (above ++ below) (above ++ new :: below)

section Related

variable {α β γ δ : Type} {R : α → β → Prop} {S : γ → δ → Prop} {a : Option α} {b : Option β}

theorem optionRel_map (h : Option.Rel R a b) {g : α → γ} {g' : β → δ} (hg : ∀ x y, R x y → S (g x) (g' y)) :
    Option.Rel S (a.map g) (b.map g') := by
  cases h with
  | none => exact .none
  | some hxy => exact .some (hg _ _ hxy)

theorem optionRel_map_right {T : α → δ → Prop} (h : Option.Rel R a b) {g : β → δ} (hg : ∀ x y, R x y → T x (g y)) :
    Option.Rel T a (b.map g) := by
  cases h with
  | none => exact .none
  | some hxy => exact .some (hg _ _ hxy)

theorem optionRel_toList (h : Option.Rel R a b) : List.Forall₂ R a.toList b.toList := by
  cases h with
  | none => exact .nil
  | some hxy => exact .cons hxy .nil

end Related

section Moved

variable (f : Nat → Nat)

/-- The same method, where line `i` has become line `f i`. Its last line may be another one. -/
structure MethodDecl.Moved (m m' : MethodDecl) : Prop where
  name : m'.name = m.name
  startLine : m'.startLine = f m.startLine
  usedVariables : m'.usedVariables = m.usedVariables
  calledMethods : m'.calledMethods = m.calledMethods

structure ConstructorDecl.Moved (k k' : ConstructorDecl) : Prop where
  startLine : k'.startLine = f k.startLine
  params : k'.params = k.params

structure ClassDecl.Moved (c c' : ClassDecl) : Prop where
  name : c'.name = c.name
  startLine : c'.startLine = f c.startLine
  methods : List.Forall₂ (MethodDecl.Moved f) c.methods c'.methods
  instanceVariables : c'.instanceVariables = c.instanceVariables
  constructor? : Option.Rel (ConstructorDecl.Moved f) c.constructor? c'.constructor?

def InterfaceDecl.move (d : InterfaceDecl) : InterfaceDecl := { d with startLine := f d.startLine }

@[simp] theorem InterfaceDecl.move_count (d : InterfaceDecl) : (d.move f).count = d.count := rfl

def InterfaceDecl.Moved (d d' : InterfaceDecl) : Prop := d' = d.move f

end Moved

section Move

variable (f e : Nat → Nat) (params : ConstructorDecl → List String)

def MethodDecl.move (m : MethodDecl) : MethodDecl :=
  { m with startLine := f m.startLine, endLine := f m.endLine, headerEnd := f m.headerEnd }

def ConstructorDecl.move (k : ConstructorDecl) : ConstructorDecl :=
  ⟨f k.startLine, f k.endLine, params k⟩

/-- The class once line `i` has become line `f i`, with other parameters of its constructor. Its last line `i`
becomes line `e i`. -/
def ClassDecl.move (c : ClassDecl) : ClassDecl :=
  { c with
    startLine := f c.startLine
    endLine := e c.endLine
    methods := c.methods.map (·.move f)
    constructor? := c.constructor?.map (·.move f params) }

theorem MethodDecl.move_mention (m : MethodDecl) (refs : List Reference) :
    (m.mention refs).move f = (m.move f).mention refs := by
  induction refs generalizing m with
  | nil => rfl
  | cons r refs ih =>
    rw [mention_cons, mention_cons, ih]
    split_ifs with hr
    · rfl
    · rfl

namespace ClassDecl

theorem move_mention (c : ClassDecl) (refs : List Reference) :
    (c.mention refs).move f e params = (c.move f e params).mention refs := by
  induction refs generalizing c with
  | nil => rfl
  | cons r refs ih =>
    rw [mention_cons, mention_cons, ih]
    split_ifs with hr
    · rfl
    · rfl

theorem move_addMethod (c : ClassDecl) (m : MethodDecl) :
    (c.addMethod m).move f e params = (c.move f e params).addMethod (m.move f) := by
  simp [addMethod, move]

theorem endAt_move {f e params} {g : Nat → Nat} {i i' : Nat} (c : ClassDecl)
    (h : g (max c.startLine i) = max (f c.startLine) i') :
    (c.move f e params).endAt i' = (c.endAt i).move f g params := by
  simp only [endAt, move, h]

theorem move_id {params} (c : ClassDecl) (h : ∀ k ∈ c.constructor?, params k = k.params) :
    c.move id id params = c := by
  have hmethods : c.methods.map (·.move id) = c.methods := List.map_id _
  have hconstructor : c.constructor?.map (·.move id params) = c.constructor? := by
    cases hc : c.constructor? with
    | none => rfl
    | some k => simp [ConstructorDecl.move, h k hc]
  simp only [move, hmethods, hconstructor, id]

end ClassDecl

end Move

section Records

variable {f : Nat → Nat}

theorem MethodDecl.moved_begin (name : List Char) (i : Nat) :
    (MethodDecl.begin name i).Moved f (.begin name (f i)) where
  name := rfl
  startLine := rfl
  usedVariables := rfl
  calledMethods := rfl

theorem ClassDecl.moved_begin (name : List Char) (i : Nat) :
    (ClassDecl.begin name i).Moved f (.begin name (f i)) where
  name := rfl
  startLine := rfl
  methods := .nil
  instanceVariables := rfl
  constructor? := .none

/-- Other last lines make no difference. -/
theorem MethodDecl.Moved.withEnds {m m' : MethodDecl} (h : m.Moved f m') (header last header' last' : Nat) :
    MethodDecl.Moved f { m with headerEnd := header, endLine := last }
      { m' with headerEnd := header', endLine := last' } :=
  ⟨h.name, h.startLine, h.usedVariables, h.calledMethods⟩

theorem MethodDecl.Moved.mention {m m' : MethodDecl} (h : m.Moved f m') (refs : List Reference) :
    (m.mention refs).Moved f (m'.mention refs) := by
  induction refs generalizing m m' with
  | nil => exact h
  | cons r refs ih =>
    rw [MethodDecl.mention_cons, MethodDecl.mention_cons]
    refine ih ?_
    split_ifs with hcall
    · exact ⟨h.name, h.startLine, h.usedVariables, congrArg (addName · r.name) h.calledMethods⟩
    · exact ⟨h.name, h.startLine, congrArg (addName · r.name) h.usedVariables, h.calledMethods⟩

theorem MethodDecl.find?_moved {ms ms' : List MethodDecl} (h : List.Forall₂ (MethodDecl.Moved f) ms ms')
    (name : String) : Option.Rel (MethodDecl.Moved f) (ms.find? (·.name == name)) (ms'.find? (·.name == name)) := by
  induction h with
  | nil => exact .none
  | @cons m m' ms ms' hm hms ih =>
    rw [List.find?_cons, List.find?_cons, hm.name]
    cases m.name == name with
    | false => exact ih
    | true => exact .some hm

variable {c c' : ClassDecl} (h : c.Moved f c')

include h

theorem ClassDecl.Moved.mention (refs : List Reference) : (c.mention refs).Moved f (c'.mention refs) := by
  induction refs generalizing c c' with
  | nil => exact h
  | cons r refs ih =>
    rw [ClassDecl.mention_cons, ClassDecl.mention_cons]
    refine ih ?_
    split_ifs with hcall
    · exact h
    · exact ⟨h.name, h.startLine, h.methods, congrArg (addName · r.name) h.instanceVariables, h.constructor?⟩

theorem ClassDecl.Moved.addMethod {m m' : MethodDecl} (hm : m.Moved f m') :
    (c.addMethod m).Moved f (c'.addMethod m') :=
  ⟨h.name, h.startLine, List.rel_append h.methods (.cons hm .nil), h.instanceVariables, h.constructor?⟩

theorem ClassDecl.Moved.withConstructor {k k' : Option ConstructorDecl}
    (hk : Option.Rel (ConstructorDecl.Moved f) k k') :
    ClassDecl.Moved f { c with constructor? := k } { c' with constructor? := k' } :=
  ⟨h.name, h.startLine, h.methods, h.instanceVariables, hk⟩

theorem ClassDecl.Moved.endAt (last last' : Nat) : (c.endAt last).Moved f (c'.endAt last') :=
  ⟨h.name, h.startLine, h.methods, h.instanceVariables, h.constructor?⟩

end Records

section Walks

variable {σ δ : Type}

/-- A walk over lines. From a state it reads line `i`, which other lines follow, and gives what it closes; at
the end it closes what is open. -/
structure LineWalk (σ δ : Type) where
  step : Nat → Line → List Line → σ → List δ × σ
  close : Nat → σ → List δ

namespace LineWalk

def run (w : LineWalk σ δ) (i : Nat) (st : σ) : List Line → List δ
  | [] => w.close i st
  | line :: rest => (w.step i line rest st).1 ++ w.run (i + 1) (w.step i line rest st).2 rest

/-- The walk keeps states related by `R` and gives what is related by `Q`, when line `i` of one source is line
`f i` of the other, and when the other reads the line `new` beyond that. -/
structure Skips (w : LineWalk σ δ) (new : Line) (f : Nat → Nat) (R : σ → σ → Prop) (Q : δ → δ → Prop) : Prop where
  step : ∀ {st st'} (i : Nat) (line : Line) {rest rest'}, Inserted new rest rest' → R st st' →
    List.Forall₂ Q (w.step i line rest st).1 (w.step (f i) line rest' st').1 ∧
      R (w.step i line rest st).2 (w.step (f i) line rest' st').2
  close : ∀ {st st'} (i j : Nat), R st st' → List.Forall₂ Q (w.close i st) (w.close j st')
  skip : ∀ {st st'} (j : Nat) (rest : List Line), R st st' →
    (w.step j new rest st').1 = [] ∧ R st (w.step j new rest st').2

variable {w : LineWalk σ δ} {new : Line} {k : Nat} {R : σ → σ → Prop} {Q : δ → δ → Prop}

/-- Behind the new line every line has the next number. -/
theorem Skips.run_behind (h : w.Skips new (insertedAt k) R Q) (lines : List Line) {i : Nat} (hi : k ≤ i) {st st' : σ}
    (hst : R st st') : List.Forall₂ Q (w.run i st lines) (w.run (i + 1) st' lines) := by
  induction lines generalizing i st st' with
  | nil => exact h.close i (i + 1) hst
  | cons line rest ih =>
    have hstep := h.step i line (.same rest) hst
    rw [insertedAt_of_le hi] at hstep
    exact List.rel_append hstep.1 (ih (Nat.le_succ_of_le hi) hstep.2)

theorem Skips.run_insert (h : w.Skips new (insertedAt k) R Q) (above below : List Line) {i : Nat}
    (hi : i + above.length = k) (st st' : σ) (hst : R st st') :
    List.Forall₂ Q (w.run i st (above ++ below)) (w.run i st' (above ++ new :: below)) := by
  induction above generalizing i st st' with
  | nil =>
    obtain ⟨hnothing, hskip⟩ := h.skip i below hst
    rw [List.nil_append, List.nil_append, run, hnothing, List.nil_append]
    exact h.run_behind below hi.ge hskip
  | cons line above ih =>
    rw [List.length_cons] at hi
    have hstep := h.step i line (.put above below) hst
    rw [insertedAt_of_lt (by omega)] at hstep
    exact List.rel_append hstep.1 (ih (by omega) _ _ hstep.2)

end LineWalk

end Walks

end DesignLint
