import DesignLint.Indented.Interfaces
import DesignLint.Indented.Walk
import DesignLint.Proofs.Spans

/-! The walk over an indentation-delimited source, line by line. `Reads` says once what a line can
do to the state; an invariant of `Reads` holds of the classes that the walk gives. The first such
invariant is the layout of the spans. Interfaces are collected in a walk of their own, and `passLine` is its step. -/

namespace DesignLint.Indented

def State.class? : State → Option OpenClass
  | .outside => none
  | .inClass c => some c
  | .inMethod c m => some (c.addMethod m)

def State.draft (st : State) : Option ClassDecl := st.class?.map (·.decl)

theorem State.close_eq (st : State) (last : Nat) :
    st.close last = st.draft.toList.map fun c => c.endAt last := by
  cases st <;> rfl

def State.Nested : State → Prop
  | .inMethod c m => c.indent < m.indent
  | _ => True

/-- What line `i` can do: the state before it, the classes it closes and the state behind it. -/
inductive Reads (i : Nat) (line : Line) : State → List ClassDecl → State → Prop
  /-- The signature of the open method runs on. -/
  | header {c : OpenClass} {m : OpenMethod} (hopen : 0 < m.openParens) :
      Reads i line (.inMethod c m) [] (.inMethod c (m.extendHeader i line))
  | blank {st : State} (hst : st.inHeader = false) (hline : Text.trim line = []) :
      Reads i line st [] st
  /-- A class begins and closes the one that is open. -/
  | begin {st : State} {name : Pattern.Taken} {rest : List Char} (hst : st.inHeader = false)
      (hbody : st.inBody (Text.indent line) = false)
      (hclass : classHeader.match? (Text.trim line) = some (name, rest)) :
      Reads i line st (st.close (i - 1)) (.inClass (.begin name.chars i line))
  | skip (hclass : classHeader.match? (Text.trim line) = none) :
      Reads i line .outside [] .outside
  /-- The line stands no deeper than the open class. -/
  | leave {st : State} {c : OpenClass} (hst : st.inHeader = false) (hopen : st.class? = some c)
      (hclass : classHeader.match? (Text.trim line) = none) (hindent : Text.indent line ≤ c.indent) :
      Reads i line st (st.close (i - 1)) .outside
  /-- The line stands deeper than the open method. -/
  | body {c : OpenClass} {m : OpenMethod} (hst : m.openParens ≤ 0) (hline : Text.trim line ≠ [])
      (hindent : m.indent < Text.indent line) :
      Reads i line (.inMethod c m) []
        (.inMethod { c with decl := c.decl.mention (references line) } (m.extend i (references line)))
  | method {st : State} {c : OpenClass} {name : Pattern.Taken} {rest : List Char}
      (hst : st.inHeader = false) (hbody : st.inBody (Text.indent line) = false)
      (hopen : st.class? = some c) (hclass : classHeader.match? (Text.trim line) = none)
      (hindent : c.indent < Text.indent line)
      (hmethod : methodHeader.match? (Text.trim line) = some (name, rest)) :
      Reads i line st [] (.inMethod c (.begin name.chars i line))
  /-- Any other line of the class ends the open method. -/
  | other {st : State} {c : OpenClass} (hst : st.inHeader = false) (hline : Text.trim line ≠ [])
      (hbody : st.inBody (Text.indent line) = false) (hopen : st.class? = some c)
      (hclass : classHeader.match? (Text.trim line) = none) (hindent : c.indent < Text.indent line)
      (hmethod : methodHeader.match? (Text.trim line) = none) :
      Reads i line st [] (.inClass c)

theorem reads_member {i : Nat} {line : Line} {st : State} {c : OpenClass}
    (hst : st.inHeader = false) (hline : Text.trim line ≠ [])
    (hbody : st.inBody (Text.indent line) = false) (hopen : st.class? = some c)
    (hclass : classHeader.match? (Text.trim line) = none) (hindent : c.indent < Text.indent line) :
    Reads i line st [] (member c i line) := by
  unfold member
  split
  next name rest hmethod => exact .method hst hbody hopen hclass hindent hmethod
  next hmethod => exact .other hst hline hbody hopen hclass hindent hmethod

/-- Every step is one of the moves. -/
theorem State.step_reads {st : State} (hn : st.Nested) (i : Nat) (line : Line) :
    Reads i line st (st.step i line).1 (st.step i line).2 := by
  unfold State.step
  by_cases hst : st.inHeader
  · cases st with
    | inMethod c m =>
      simp only [hst, if_true]
      exact .header (by simpa [State.inHeader] using hst)
    | _ => simp [State.inHeader] at hst
  have hst : st.inHeader = false := by simpa using hst
  by_cases hline : Text.trim line = []
  · simp only [hst, hline, List.isEmpty_nil, if_true, Bool.false_eq_true, if_false]
    exact .blank hst hline
  simp only [hst, List.isEmpty_iff, hline, Bool.false_eq_true, if_false]
  split
  next name rest hclass =>
    have hbody : st.inBody (Text.indent line) = false := by
      by_contra hb
      simp [hb] at hclass
    exact .begin hst hbody (by simpa [hbody] using hclass)
  next hclass =>
    cases st with
    | outside => exact .skip (by simpa [State.inBody] using hclass)
    | inClass c =>
      have hclass : classHeader.match? (Text.trim line) = none := by
        simpa [State.inBody] using hclass
      dsimp only
      split_ifs with hindent
      · exact .leave hst rfl hclass hindent
      · dsimp only
        exact reads_member hst hline rfl rfl hclass (Nat.lt_of_not_le hindent)
    | inMethod c m =>
      dsimp only
      have hn : c.indent < m.indent := hn
      split_ifs with hindent hbody
      · have hb : State.inBody (Text.indent line) (.inMethod c m) = false := by
          simp only [State.inBody, decide_eq_false_iff_not]
          omega
        exact .leave hst rfl (by simpa [hb] using hclass) hindent
      · exact .body (by simpa [State.inHeader] using hst) hline (by simpa [State.inBody] using hbody)
      · have hb : State.inBody (Text.indent line) (.inMethod c m) = false := by simpa using hbody
        dsimp only
        exact reads_member hst hline hb rfl (by simpa [hb] using hclass) (Nat.lt_of_not_le hindent)

theorem State.step_blank {st : State} (hst : st.inHeader = false) {line : Line} (hline : Text.trim line = [])
    (i : Nat) : st.step i line = ([], st) := by
  simp [State.step, hst, hline]

/-- Behind a line that is not blank the move tells the state. -/
theorem Reads.step_eq {i : Nat} {line : Line} {st st' : State} {closed : List ClassDecl}
    (h : Reads i line st closed st') (hn : st.Nested) (hline : Text.trim line ≠ []) :
    st.step i line = (closed, st') := by
  cases h with
  | header hopen => simp [State.step, State.inHeader, hopen]
  | blank _ hblank => exact absurd hblank hline
  | begin hst hbody hclass => simp [State.step, hst, hline, hbody, hclass]
  | skip hclass => simp [State.step, State.inHeader, State.inBody, hline, hclass]
  | leave hst hopen hclass hindent =>
    cases st with
    | outside => cases hopen
    | inClass c =>
      cases hopen
      simp [State.step, hst, State.inBody, hline, hclass, hindent]
    | inMethod c m =>
      cases hopen
      have hindent : Text.indent line ≤ c.indent := hindent
      have hclass : (if State.inBody (Text.indent line) (.inMethod c m) then none
        else classHeader.match? (Text.trim line)) = none := by rw [hclass, ite_self]
      simp [State.step, hst, hline, hclass, hindent]
  | @body c m hst hline' hindent =>
    have hn : c.indent < m.indent := hn
    have hdeep : ¬ Text.indent line ≤ c.indent := by omega
    have hheader : State.inHeader (.inMethod c m) = false := by simpa [State.inHeader] using hst
    simp [State.step, hheader, hline, State.inBody, hindent, hdeep]
  | method hst hbody hopen hclass hindent hmethod =>
    cases st with
    | outside => cases hopen
    | inClass c =>
      cases hopen
      simp [State.step, hst, hbody, hline, hclass, hindent, member, hmethod]
    | inMethod c m =>
      cases hopen
      have hindent : c.indent < Text.indent line := hindent
      simp [State.step, hst, hbody, hline, hclass, hindent, member, hmethod]
  | other hst hline' hbody hopen hclass hindent hmethod =>
    cases st with
    | outside => cases hopen
    | inClass c =>
      cases hopen
      simp [State.step, hst, hbody, hline, hclass, hindent, member, hmethod]
    | inMethod c m =>
      cases hopen
      have hindent : c.indent < Text.indent line := hindent
      simp [State.step, hst, hbody, hline, hclass, hindent, member, hmethod]

theorem Reads.walk_cons {i : Nat} {line : Line} {st st' : State} {closed : List ClassDecl}
    (h : Reads i line st closed st') (hn : st.Nested) (hline : Text.trim line ≠ []) (lines : List Line) :
    st.walk i (line :: lines) = closed ++ st'.walk (i + 1) lines := by
  rw [State.walk, h.step_eq hn hline]

theorem Reads.nested {i : Nat} {line : Line} {st st' : State} {closed : List ClassDecl}
    (h : Reads i line st closed st') (hn : st.Nested) : st'.Nested := by
  cases h with
  | header => exact hn
  | blank => exact hn
  | body => exact hn
  | method _ _ _ _ hindent => exact hindent
  | begin | skip | leave | other => trivial

/-- What holds at the start and is kept by every line holds at the end. -/
theorem walk_run (lines : List Line) {I : Nat → List ClassDecl → State → Prop}
    (start : I 0 [] .outside)
    (step : ∀ {i line done st closed st'}, lines[i]? = some line → Reads i line st closed st' →
      I i done st → I (i + 1) (done ++ closed) st') :
    ∃ done st, I lines.length done st ∧
      State.outside.walk 0 lines = done ++ st.close (lines.length - 1) := by
  suffices run : ∀ (rest : List Line) (i : Nat) (done : List ClassDecl) (st : State),
      lines.drop i = rest → i + rest.length = lines.length → I i done st → st.Nested →
      ∃ done' st', I lines.length done' st' ∧
        done ++ st.walk i rest = done' ++ st'.close (lines.length - 1) from
    run lines 0 [] .outside rfl (Nat.zero_add _) start trivial
  intro rest
  induction rest with
  | nil =>
    intro i done st _ hi hI _
    obtain rfl : i = lines.length := by simpa using hi
    exact ⟨done, st, hI, rfl⟩
  | cons line rest ih =>
    intro i done st hrest hi hI hn
    obtain ⟨hline, hnext⟩ := of_drop_eq_cons hrest
    have hreads := st.step_reads hn i line
    obtain ⟨done', st', hI', hwalk⟩ := ih (i + 1) _ _ hnext
      (by rw [List.length_cons] at hi; omega) (step hline hreads hI) (hreads.nested hn)
    exact ⟨done', st', hI', by rw [← hwalk, State.walk, List.append_assoc]⟩

theorem State.draft_of_class? {st : State} {c : OpenClass} (h : st.class? = some c) :
    st.draft = some c.decl := by
  rw [State.draft, h, Option.map_some]

/-- A line keeps the layout. -/
theorem Reads.layout {i : Nat} {line : Line} {st st' : State} {done closed : List ClassDecl}
    (h : Reads i line st closed st') (hl : Layout i done st.draft) :
    Layout (i + 1) (done ++ closed) st'.draft := by
  cases h with
  | @header c m hopen =>
    have hc : (c.decl.addMethod m.decl).Laid i := hl.laid _ rfl
    obtain ⟨-, -, hb, he⟩ := hc.last
    rw [List.append_nil]
    refine hl.grow rfl (hc.extend [] (Nat.le_succ i) rfl ?_ le_rfl (Nat.lt_succ_self i) ?_)
    · simp only [OpenMethod.extendHeader]; omega
    · intro v
      simp [OpenMethod.extendHeader, Reference.variables]
  | blank => rw [List.append_nil]; exact hl.mono
  | begin =>
    rw [State.close_eq]
    exact hl.close.begin _
  | skip => rw [List.append_nil]; exact hl.mono
  | leave =>
    rw [State.close_eq]
    exact hl.close.mono
  | @body c m hst hline hindent =>
    have hc : (c.decl.addMethod m.decl).Laid i := hl.laid _ rfl
    obtain ⟨-, -, hb, he⟩ := hc.last
    rw [List.append_nil]
    refine hl.grow (by simp [OpenClass.addMethod, ClassDecl.addMethod])
      (hc.extend (references line) (Nat.le_succ i) ?_ ?_ ?_ ?_ ?_)
    · simp [OpenMethod.extend]
    · simp [OpenMethod.extend]
    · simp only [OpenMethod.extend, MethodDecl.mention_headerEnd, MethodDecl.mention_endLine]; omega
    · simp [OpenMethod.extend]
    · intro v
      exact MethodDecl.mem_mention_usedVariables
  | method hst hbody hopen =>
    rw [State.draft_of_class? hopen] at hl
    rw [List.append_nil]
    exact hl.grow rfl ((hl.laid _ rfl).addMethod_begin _)
  | other hst hline hbody hopen =>
    rw [State.draft_of_class? hopen] at hl
    rw [List.append_nil]
    exact hl.mono

theorem walk_layout (lines : List Line) :
    Layout lines.length (State.outside.walk 0 lines) none := by
  obtain ⟨done, st, hl, hwalk⟩ := walk_run lines
    (I := fun i done st => Layout i done st.draft) Layout.start (fun _ hreads hl => hreads.layout hl)
  rw [hwalk, State.close_eq]
  exact hl.close

theorem mem_classes {lines : List Line} {c : ClassDecl} :
    c ∈ classes lines ↔ ∃ d ∈ State.outside.walk 0 lines, findConstructor lines d = c :=
  List.mem_map

theorem classes_ordered (lines : List Line) :
    (classes lines).Pairwise fun a b => a.endLine < b.startLine :=
  List.pairwise_map.2 (walk_layout lines).ordered

/-- The constructor has the span of the first method with its name. -/
theorem findConstructor_spec {lines : List Line} {c : ClassDecl} {k : ConstructorDecl}
    (hk : k ∈ (findConstructor lines c).constructor?) :
    ∃ before m after, c.methods = before ++ m :: after ∧ m.name = constructorName ∧
      (∀ a ∈ before, a.name ≠ constructorName) ∧ k.startLine = m.startLine ∧ k.endLine = m.endLine := by
  obtain ⟨m, hm, rfl⟩ := Option.map_eq_some_iff.1 hk
  obtain ⟨hname, before, after, hsplit, hbefore⟩ := List.find?_eq_some_iff_append.1 hm
  refine ⟨before, m, after, hsplit, by simpa using hname, ?_, rfl, rfl⟩
  intro a ha
  simpa using hbefore a ha

theorem classes_wellFormed {lines : List Line} {c : ClassDecl} (hc : c ∈ classes lines) :
    c.WellFormed lines.length := by
  obtain ⟨d, hd, rfl⟩ := mem_classes.1 hc
  obtain ⟨hlaid, hend⟩ := (walk_layout lines).closed d hd
  have hlaid' : (findConstructor lines d).Laid (d.endLine + 1) := hlaid.congr rfl rfl rfl
  refine hlaid'.wellFormed hend ?_
  intro k hk
  obtain ⟨before, m, after, hsplit, -, -, hs, he⟩ := findConstructor_spec hk
  obtain ⟨h1, h2, h3, h4⟩ := hlaid.methods m (by simp [hsplit])
  rw [hs, he]
  exact ⟨h1, h2.trans h3, Nat.le_of_lt_succ h4⟩

section Interfaces

/-- What line `i`, which the lines `rest` follow, does to the open interface: the interface that it closes, if
any, and the one that is open behind it. -/
def passLine (i : Nat) (line : Line) (rest : List Line) (current : Option OpenInterface) :
    List InterfaceDecl × Option OpenInterface :=
  if classHeader.accepts (Text.trim line) then (OpenInterface.close current, OpenInterface.begin? i line)
  else
    match current with
    | none => ([], none)
    | some o =>
      if (Text.trim line).isEmpty then ([], some o)
      else if Text.indent line ≤ o.indent then (OpenInterface.close (some o), none)
      else ([], some (o.extend line rest))

theorem interfacesFrom_cons (i : Nat) (current : Option OpenInterface) (line : Line) (rest : List Line) :
    interfacesFrom i current (line :: rest) =
      (passLine i line rest current).1 ++ interfacesFrom (i + 1) (passLine i line rest current).2 rest := by
  cases current with
  | none =>
    rw [interfacesFrom, passLine]
    split_ifs with hclass
    · rfl
    · rfl
  | some o =>
    rw [interfacesFrom, passLine]
    split_ifs with hclass hblank hleave
    · rfl
    · rfl
    · rfl
    · rfl

end Interfaces

end DesignLint.Indented
