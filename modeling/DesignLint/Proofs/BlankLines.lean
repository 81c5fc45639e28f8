import DesignLint.Proofs.BracedWalk
import DesignLint.Proofs.IndentedWalk
import DesignLint.Proofs.LeadingBlanks
import DesignLint.Proofs.MovedDeclarations
import DesignLint.Source.Dialect

/-! A blank line that is put into a source changes nothing but line numbers: the same classes, methods,
constructors and interfaces are found, and those behind it start one line further down. -/

namespace DesignLint

namespace Source

/-- The text of a group does not depend on a blank row among those that follow. -/
theorem text_read_inserted {blank : Line} (hblank : ∀ c ∈ blank, Text.isBlank c = true) (row : List Char)
    {rest rest' : List Line} (h : Inserted blank rest rest') :
    (Group.read row rest').text = (Group.read row rest).text := by
  cases h with
  | same => rfl
  | put above below => exact Group.text_read_congr rfl fun d => kept_insert_blank hblank d above below

theorem parenBalance_of_blanks {line : Line} (h : ∀ c ∈ line, Text.isBlank c = true) : parenBalance line = 0 := by
  have hbalance := parenBalance_behind_plain (fun c hc => isPlain_of_isBlank (h c hc)) []
  rwa [List.append_nil] at hbalance

end Source

open Source

namespace Indented

section Classes

variable (f : Nat → Nat)

structure OpenClass.Moved (c c' : OpenClass) : Prop where
  decl : c.decl.Moved f c'.decl
  indent : c'.indent = c.indent

structure OpenMethod.Moved (m m' : OpenMethod) : Prop where
  decl : m.decl.Moved f m'.decl
  indent : m'.indent = m.indent
  openParens : m'.openParens = m.openParens

/-- The same declarations are open, perhaps on other lines. -/
inductive State.Moved : State → State → Prop
  | outside : Moved .outside .outside
  | inClass {c c' : OpenClass} (hc : c.Moved f c') : Moved (.inClass c) (.inClass c')
  | inMethod {c c' : OpenClass} {m m' : OpenMethod} (hc : c.Moved f c') (hm : m.Moved f m') :
      Moved (.inMethod c m) (.inMethod c' m')

variable {f} {st st' : State}

theorem OpenClass.Moved.addMethod {c c' : OpenClass} {m m' : OpenMethod} (hc : c.Moved f c') (hm : m.Moved f m') :
    (c.addMethod m).Moved f (c'.addMethod m') :=
  ⟨hc.decl.addMethod hm.decl, hc.indent⟩

theorem State.Moved.close (h : st.Moved f st') (last last' : Nat) :
    List.Forall₂ (ClassDecl.Moved f) (st.close last) (st'.close last') := by
  cases h with
  | outside => exact .nil
  | inClass hc => exact .cons (hc.decl.endAt last last') .nil
  | inMethod hc hm => exact .cons ((hc.addMethod hm).decl.endAt last last') .nil

theorem State.Moved.inHeader (h : st.Moved f st') : st'.inHeader = st.inHeader := by
  cases h with
  | outside | inClass => rfl
  | inMethod hc hm => simp only [State.inHeader, hm.openParens]

theorem State.Moved.inBody (h : st.Moved f st') (indent : Nat) : st'.inBody indent = st.inBody indent := by
  cases h with
  | outside | inClass => rfl
  | inMethod hc hm => simp only [State.inBody, hm.indent]

theorem OpenMethod.Moved.extendHeader {m m' : OpenMethod} (h : m.Moved f m') (i j : Nat) {line line' : Line}
    (hline : parenBalance line' = parenBalance line) :
    (m.extendHeader i line).Moved f (m'.extendHeader j line') where
  decl := h.decl.withEnds i i j j
  indent := h.indent
  openParens := by simp only [OpenMethod.extendHeader, h.openParens, hline]

theorem OpenMethod.Moved.extend {m m' : OpenMethod} (h : m.Moved f m') (i j : Nat) (refs : List Reference) :
    (m.extend i refs).Moved f (m'.extend j refs) where
  decl := (h.decl.withEnds m.decl.headerEnd i m'.decl.headerEnd j).mention refs
  indent := h.indent
  openParens := h.openParens

theorem member_moved {c c' : OpenClass} (h : c.Moved f c') (i : Nat) (line : Line) :
    (member c i line).Moved f (member c' (f i) line) := by
  unfold member
  cases methodHeader.match? (Text.trim line) with
  | none => exact .inClass h
  | some found => exact .inMethod h ⟨MethodDecl.moved_begin _ i, rfl, rfl⟩

/-- A line does the same on its new place. -/
theorem State.Moved.step (h : st.Moved f st') (i : Nat) (line : Line) :
    List.Forall₂ (ClassDecl.Moved f) (st.step i line).1 (st'.step (f i) line).1 ∧
      (st.step i line).2.Moved f (st'.step (f i) line).2 := by
  unfold State.step
  simp only [h.inHeader, h.inBody]
  by_cases hheader : st.inHeader
  · rw [if_pos hheader, if_pos hheader]
    cases h with
    | outside => exact ⟨.nil, .outside⟩
    | inClass hc => exact ⟨.nil, .inClass hc⟩
    | inMethod hc hm => exact ⟨.nil, .inMethod hc (hm.extendHeader i (f i) rfl)⟩
  by_cases hblank : (Text.trim line).isEmpty
  · simp only [if_neg hheader, if_pos hblank]
    exact ⟨.nil, h⟩
  simp only [if_neg hheader, if_neg hblank]
  cases (if st.inBody (Text.indent line) then none else classHeader.match? (Text.trim line)) with
  | some found => exact ⟨h.close _ _, .inClass ⟨ClassDecl.moved_begin _ i, rfl⟩⟩
  | none =>
    cases hst : h with
    | outside => exact ⟨.nil, .outside⟩
    | inClass hc =>
      simp only [hc.indent]
      split_ifs with hleave
      · exact ⟨h.close _ _, .outside⟩
      · exact ⟨.nil, member_moved hc i line⟩
    | inMethod hc hm =>
      simp only [hc.indent]
      split_ifs with hleave hbody
      · exact ⟨h.close _ _, .outside⟩
      · exact ⟨.nil, .inMethod ⟨hc.decl.mention _, rfl⟩ (hm.extend i (f i) _)⟩
      · exact ⟨.nil, member_moved (hc.addMethod hm) i line⟩

/-- A blank line at most runs on with a signature, and adds nothing to it. -/
theorem State.Moved.skip (h : st.Moved f st') {blank : Line} (hblank : ∀ c ∈ blank, Text.isBlank c = true) (j : Nat) :
    (st'.step j blank).1 = [] ∧ st.Moved f (st'.step j blank).2 := by
  by_cases hheader : st'.inHeader
  · cases h with
    | outside => cases hheader
    | inClass => cases hheader
    | @inMethod c c' m m' hc hm =>
      have hextend : m.Moved f (m'.extendHeader j blank) := by
        refine ⟨hm.decl.withEnds _ _ j j, hm.indent, ?_⟩
        simp only [OpenMethod.extendHeader, parenBalance_of_blanks hblank, hm.openParens, Int.add_zero]
      have hstep : State.step j blank (.inMethod c' m') = ([], .inMethod c' (m'.extendHeader j blank)) := by
        simp only [State.step, hheader, if_true]
      rw [hstep]
      exact ⟨rfl, .inMethod hc hextend⟩
  · rw [State.step_blank (by simpa using hheader) (Text.trim_of_blanks hblank)]
    exact ⟨rfl, h⟩

def classWalk : LineWalk State ClassDecl where
  step i line _ st := st.step i line
  close i st := st.close (i - 1)

theorem run_classWalk (i : Nat) (st : State) (lines : List Line) : classWalk.run i st lines = st.walk i lines := by
  induction lines generalizing i st with
  | nil => rfl
  | cons line lines ih => exact congrArg _ (ih _ _)

theorem classWalk_skips {blank : Line} (hblank : ∀ c ∈ blank, Text.isBlank c = true) :
    classWalk.Skips blank f (State.Moved f) (ClassDecl.Moved f) where
  step i line _ _ _ h := h.step i line
  close i j h := h.close (i - 1) (j - 1)
  skip j _ h := h.skip hblank j

end Classes

section Constructor

variable {blank : Line} (hblank : ∀ c ∈ blank, Text.isBlank c = true) (above below : List Line)

include hblank

theorem signatureParams_inserted (start : Nat) :
    signatureParams ((above ++ blank :: below).drop (insertedAt above.length start)) =
      signatureParams ((above ++ below).drop start) := by
  by_cases hstart : start < above.length
  · -- the signature begins above the blank line, which can be one of its rows
    obtain ⟨header, rest, hdrop⟩ := List.exists_cons_of_ne_nil (List.drop_eq_nil_iff.not.2 (Nat.not_le.2 hstart))
    rw [insertedAt_of_lt hstart, List.drop_append_of_le_length hstart.le, List.drop_append_of_le_length hstart.le,
      hdrop]
    simp only [List.cons_append, signatureParams, text_read_inserted hblank _ (.put rest below)]
  · have hle := Nat.not_lt.1 hstart
    rw [insertedAt_of_le hle, List.drop_append, List.drop_append, List.drop_eq_nil_of_le hle,
      List.drop_eq_nil_of_le (Nat.le_succ_of_le hle), Nat.succ_sub hle, List.drop_succ_cons]

theorem findConstructor_inserted {c c' : ClassDecl} (h : c.Moved (insertedAt above.length) c') :
    (findConstructor (above ++ below) c).Moved (insertedAt above.length)
      (findConstructor (above ++ blank :: below) c') := by
  refine h.withConstructor (optionRel_map (MethodDecl.find?_moved h.methods constructorName) fun m m' hm => ?_)
  have hparams := signatureParams_inserted hblank above below m.startLine
  rw [← hm.startLine] at hparams
  exact ⟨hm.startLine, hparams⟩

theorem classes_inserted : List.Forall₂ (ClassDecl.Moved (insertedAt above.length)) (classes (above ++ below))
    (classes (above ++ blank :: below)) := by
  have hwalk := (classWalk_skips hblank).run_insert above below (Nat.zero_add _) _ _ .outside
  rw [run_classWalk, run_classWalk] at hwalk
  rw [classes, classes, List.forall₂_map_left_iff, List.forall₂_map_right_iff]
  exact hwalk.imp fun c c' h => findConstructor_inserted hblank above below h

end Constructor

section Interfaces

variable (f : Nat → Nat)

def OpenInterface.move (o : OpenInterface) : OpenInterface :=
  { o with decl := o.decl.move f }

theorem OpenInterface.close_move (o : Option OpenInterface) : List.Forall₂ (InterfaceDecl.Moved f)
    (OpenInterface.close o) (OpenInterface.close (o.map (·.move f))) := by
  cases o with
  | none => exact .nil
  | some o =>
    by_cases hcount : 0 < o.decl.count
    · simp only [OpenInterface.close, Option.map_some, OpenInterface.move, InterfaceDecl.move_count, hcount, if_true]
      exact .cons rfl .nil
    · simp [OpenInterface.close, OpenInterface.move, hcount]

theorem OpenInterface.begin?_move (i : Nat) (line : Line) :
    OpenInterface.begin? (f i) line = (OpenInterface.begin? i line).map (·.move f) := by
  unfold OpenInterface.begin?
  cases classWithBases.match? (Text.trim line) with
  | none => rfl
  | some found =>
    dsimp only
    split_ifs with hbase
    · rfl
    · rfl

variable {blank : Line} (hblank : ∀ c ∈ blank, Text.isBlank c = true)

include hblank

/-- Blank lines between a decorator and its method are passed over. -/
theorem decoratedMethod?_inserted {rest rest' : List Line} (h : Inserted blank rest rest') :
    decoratedMethod? rest' = decoratedMethod? rest := by
  cases h with
  | same => rfl
  | put above below =>
    induction above with
    | nil => simp [decoratedMethod?, Text.trim_of_blanks hblank]
    | cons line above ih => simp only [List.cons_append, decoratedMethod?, ih]

theorem OpenInterface.extend_move (o : OpenInterface) (line : Line) {rest rest' : List Line}
    (h : Inserted blank rest rest') : (o.move f).extend line rest' = (o.extend line rest).move f := by
  unfold OpenInterface.extend
  rw [decoratedMethod?_inserted hblank h]
  split_ifs with hmark
  · cases decoratedMethod? rest with
    | none => rfl
    | some name => rfl
  · rfl

theorem passLine_move (i : Nat) (line : Line) {rest rest' : List Line} (h : Inserted blank rest rest')
    (current : Option OpenInterface) :
    List.Forall₂ (InterfaceDecl.Moved f) (passLine i line rest current).1
        (passLine (f i) line rest' (current.map (·.move f))).1 ∧
      (passLine (f i) line rest' (current.map (·.move f))).2 = (passLine i line rest current).2.map (·.move f) := by
  unfold passLine
  by_cases hclass : classHeader.accepts (Text.trim line)
  · rw [if_pos hclass, if_pos hclass]
    exact ⟨OpenInterface.close_move f current, OpenInterface.begin?_move f i line⟩
  rw [if_neg hclass, if_neg hclass]
  cases current with
  | none => exact ⟨.nil, rfl⟩
  | some o =>
    have hindent : (o.move f).indent = o.indent := rfl
    simp only [Option.map_some, hindent, OpenInterface.extend_move f hblank o line h]
    split_ifs with hempty hleave
    · exact ⟨.nil, rfl⟩
    · exact ⟨OpenInterface.close_move f (some o), rfl⟩
    · exact ⟨.nil, rfl⟩

theorem passLine_blank (j : Nat) (rest : List Line) (current : Option OpenInterface) :
    passLine j blank rest current = ([], current) := by
  have htrim := Text.trim_of_blanks hblank
  have hclass : classHeader.accepts [] = false := rfl
  cases current <;> simp [passLine, htrim, hclass]

def interfaceWalk : LineWalk (Option OpenInterface) InterfaceDecl where
  step := passLine
  close _ := OpenInterface.close

omit hblank in
theorem run_interfaceWalk (i : Nat) (current : Option OpenInterface) (lines : List Line) :
    interfaceWalk.run i current lines = interfacesFrom i current lines := by
  induction lines generalizing i current with
  | nil => rfl
  | cons line lines ih =>
    rw [interfacesFrom_cons, ← ih]
    rfl

theorem interfaceWalk_skips :
    interfaceWalk.Skips blank f (fun o o' => o' = o.map (·.move f)) (InterfaceDecl.Moved f) where
  step i line _ _ hrest h := by
    subst h
    exact passLine_move f hblank i line hrest _
  close i j h := by
    subst h
    exact OpenInterface.close_move f _
  skip j rest h := by
    subst h
    have hpass := passLine_blank hblank j rest
    exact ⟨congrArg Prod.fst (hpass _), congrArg Prod.snd (hpass _)⟩

theorem interfaces_inserted (above below : List Line) :
    List.Forall₂ (InterfaceDecl.Moved (insertedAt above.length)) (interfaces (above ++ below))
      (interfaces (above ++ blank :: below)) := by
  have hwalk := (interfaceWalk_skips _ hblank).run_insert above below (Nat.zero_add _) none none rfl
  rwa [run_interfaceWalk, run_interfaceWalk] at hwalk

end Interfaces

end Indented

namespace Braced

section Classes

variable (f : Nat → Nat)

inductive Member.Moved : Member → Member → Prop
  | none : Moved .none .none
  | constructor : Moved .constructor .constructor
  | method {m m' : MethodDecl} (hm : m.Moved f m') : Moved (.method m) (.method m')

structure OpenClass.Moved (c c' : OpenClass) : Prop where
  decl : c.decl.Moved f c'.decl
  member : c.member.Moved f c'.member

structure State.Moved (st st' : State) : Prop where
  depth : st'.depth = st.depth
  current : Option.Rel (OpenClass.Moved f) st.current st'.current

variable {f}

theorem OpenClass.Moved.closeMember {c c' : OpenClass} (h : c.Moved f c') : c.closeMember.Moved f c'.closeMember := by
  obtain ⟨decl, member⟩ := c
  obtain ⟨decl', member'⟩ := c'
  cases h.member with
  | none | constructor => exact ⟨h.decl, .none⟩
  | method hm => exact ⟨h.decl.addMethod hm, .none⟩

theorem OpenClass.Moved.close {c c' : OpenClass} (h : c.Moved f c') (last last' : Nat) :
    (c.close last).Moved f (c'.close last') :=
  h.closeMember.decl.endAt last last'

theorem forall₂_close {o o' : Option OpenClass} (h : Option.Rel (OpenClass.Moved f) o o') (last last' : Nat) :
    List.Forall₂ (ClassDecl.Moved f) (o.toList.map fun c => c.close last) (o'.toList.map fun c => c.close last') :=
  List.rel_map (fun _ _ hc => hc.close last last') (optionRel_toList h)

/-- The open member takes its line on its new place. -/
theorem OpenClass.Moved.extend {c c' : OpenClass} (h : c.Moved f c') (i j : Nat) (line : Line) :
    (c.extend i line).Moved f (c'.extend j line) := by
  obtain ⟨decl, member⟩ := c
  obtain ⟨decl', member'⟩ := c'
  cases h.member with
  | none => exact h
  | constructor =>
    exact ⟨h.decl.withConstructor (optionRel_map h.decl.constructor? fun k k' hk => ⟨hk.startLine, hk.params⟩),
      .constructor⟩
  | @method m m' hm =>
    exact ⟨h.decl.mention _, .method ((hm.withEnds m.headerEnd i m'.headerEnd j).mention _)⟩

section Blank

variable {blank : Line} (hblank : ∀ c ∈ blank, Text.isBlank c = true)

include hblank

theorem constructorParams_inserted (line : Line) {rest rest' : List Line} (h : Inserted blank rest rest') :
    constructorParams line rest' = constructorParams line rest := by
  simp only [constructorParams, text_read_inserted hblank _ h]

theorem OpenClass.Moved.enter {c c' : OpenClass} (h : c.Moved f c') (i : Nat) (line : Line) {rest rest' : List Line}
    (hrest : Inserted blank rest rest') : (c.enter i line rest).Moved f (c'.enter (f i) line rest') := by
  unfold OpenClass.enter
  rw [constructorParams_inserted hblank line hrest]
  split_ifs with hconstructor
  · exact ⟨h.decl.withConstructor (.some ⟨rfl, rfl⟩), .constructor⟩
  · cases startsMethod? line with
    | none => exact h
    | some name => exact ⟨h.decl, .method (MethodDecl.moved_begin name i)⟩

theorem OpenClass.Moved.enterAt {c c' : OpenClass} (h : c.Moved f c') (depth i : Nat) (line : Line)
    {rest rest' : List Line} (hrest : Inserted blank rest rest') :
    (c.enterAt depth i line rest).Moved f (c'.enterAt depth (f i) line rest') := by
  have henter := h.enter hblank i line hrest
  obtain ⟨decl, member⟩ := c
  obtain ⟨decl', member'⟩ := c'
  cases h.member with
  | none =>
    simp only [OpenClass.enterAt]
    split_ifs with hdepth
    · exact henter
    · exact h
  | constructor | method => exact h

variable {st st' : State}

theorem State.Moved.start (h : st.Moved f st') (i : Nat) (line : Line) {rest rest' : List Line}
    (hrest : Inserted blank rest rest') :
    List.Forall₂ (ClassDecl.Moved f) (st.start i line rest).1 (st'.start (f i) line rest').1 ∧
      Option.Rel (OpenClass.Moved f) (st.start i line rest).2 (st'.start (f i) line rest').2 := by
  unfold State.start
  rw [h.depth]
  cases (if st.depth = 0 then classHeader.match? (Text.trim line) else none) with
  | none => exact ⟨.nil, optionRel_map h.current fun c c' hc => hc.enterAt hblank st.depth i line hrest⟩
  | some found => exact ⟨forall₂_close h.current (i - 1) (f i - 1), .some ⟨ClassDecl.moved_begin _ i, .none⟩⟩

/-- A line does the same on its new place. -/
theorem State.Moved.step (h : st.Moved f st') (i : Nat) (line : Line) {rest rest' : List Line}
    (hrest : Inserted blank rest rest') :
    List.Forall₂ (ClassDecl.Moved f) (st.step i line rest).1 (st'.step (f i) line rest').1 ∧
      (st.step i line rest).2.Moved f (st'.step (f i) line rest').2 := by
  obtain ⟨hclosed, hstarted⟩ := h.start hblank i line hrest
  have hcurrent := optionRel_map hstarted fun c c' hc => hc.extend i (f i) line
  have hended := optionRel_map hcurrent fun c c' hc => hc.closeMember
  simp only [State.step, h.depth]
  split_ifs with hstay hzero
  · exact ⟨hclosed, rfl, hcurrent⟩
  · exact ⟨List.rel_append hclosed (forall₂_close hended i (f i)), rfl, .none⟩
  · exact ⟨hclosed, rfl, hended⟩

theorem startsMethod?_blank : startsMethod? blank = none := by
  rw [startsMethod?, Text.trim_of_blanks hblank]
  rfl

theorem OpenClass.enterAt_blank (c : OpenClass) (depth j : Nat) (rest : List Line) :
    c.enterAt depth j blank rest = c := by
  have hconstructor : constructorHeader.accepts [] = false := rfl
  cases hmember : c.member with
  | none =>
    simp [OpenClass.enterAt, hmember, OpenClass.enter, Text.trim_of_blanks hblank, hconstructor,
      startsMethod?_blank hblank]
  | constructor => simp [OpenClass.enterAt, hmember]
  | method m => simp [OpenClass.enterAt, hmember]

/-- A blank line at most becomes the last line of the open member. -/
theorem OpenClass.Moved.skip {c c' : OpenClass} (h : c.Moved f c') (j : Nat) : c.Moved f (c'.extend j blank) := by
  have hrefs : references blank = [] := references_of_blanks (by decide) hblank
  obtain ⟨decl, member⟩ := c
  obtain ⟨decl', member'⟩ := c'
  cases h.member with
  | none => exact h
  | constructor =>
    exact ⟨h.decl.withConstructor (optionRel_map_right h.decl.constructor? fun k k' hk => ⟨hk.startLine, hk.params⟩),
      .constructor⟩
  | @method m m' hm =>
    simp only [OpenClass.extend, hrefs, ClassDecl.mention_nil, MethodDecl.mention_nil]
    exact ⟨h.decl, .method (hm.withEnds _ _ m'.headerEnd j)⟩

theorem braces_blank : Text.braces blank = (0, 0) := by
  have hcount : ∀ c, Text.isBlank c = false → blank.count c = 0 := by
    intro c hc
    refine List.count_eq_zero.2 fun hmem => ?_
    rw [hblank c hmem] at hc
    cases hc
  rw [Text.braces, hcount _ (by decide), hcount _ (by decide)]

theorem State.Moved.skip (h : st.Moved f st') (j : Nat) (rest : List Line) :
    (st'.step j blank rest).1 = [] ∧ st.Moved f (st'.step j blank rest).2 := by
  have hclass : (if st'.depth = 0 then classHeader.match? [] else none) = none := ite_self _
  have hstep : st'.step j blank rest = ([], ⟨st'.depth, st'.current.map fun c => c.extend j blank⟩) := by
    simp [State.step, State.start, braces_blank hblank, Text.trim_of_blanks hblank, hclass,
      OpenClass.enterAt_blank hblank]
  rw [hstep]
  exact ⟨rfl, h.depth, optionRel_map_right h.current fun c c' hc => hc.skip hblank j⟩

end Blank

def classWalk : LineWalk State ClassDecl where
  step := State.step
  close i st := st.current.toList.map fun c => c.close (i - 1)

theorem run_classWalk (i : Nat) (st : State) (lines : List Line) : classWalk.run i st lines = st.walk i lines := by
  induction lines generalizing i st with
  | nil => rfl
  | cons line lines ih => exact congrArg _ (ih _ _)

theorem classWalk_skips {blank : Line} (hblank : ∀ c ∈ blank, Text.isBlank c = true) :
    classWalk.Skips blank f (State.Moved f) (ClassDecl.Moved f) where
  step i line _ _ hrest h := h.step hblank i line hrest
  close i j h := forall₂_close h.current (i - 1) (j - 1)
  skip j rest h := h.skip hblank j rest

theorem classes_inserted {blank : Line} (hblank : ∀ c ∈ blank, Text.isBlank c = true) (above below : List Line) :
    List.Forall₂ (ClassDecl.Moved (insertedAt above.length)) (classes (above ++ below))
      (classes (above ++ blank :: below)) := by
  have hwalk := (classWalk_skips hblank).run_insert above below (Nat.zero_add _) {} {} ⟨rfl, .none⟩
  rwa [run_classWalk, run_classWalk] at hwalk

end Classes

section Interfaces

variable (f : Nat → Nat)

def InterfaceState.move (st : InterfaceState) : InterfaceState :=
  { st with current := st.current.map (·.move f) }

theorem keepInterface_move (current : Option InterfaceDecl) : List.Forall₂ (InterfaceDecl.Moved f)
    (keepInterface current) (keepInterface (current.map (·.move f))) := by
  cases current with
  | none => exact .nil
  | some d =>
    by_cases hcount : 0 < d.count
    · simp only [keepInterface, Option.map_some, Option.toList_some, InterfaceDecl.move_count, hcount, decide_true,
        List.filter_cons_of_pos, List.filter_nil]
      exact .cons rfl .nil
    · simp [keepInterface, hcount]

theorem takeLine_move (depth i : Nat) (line : Line) (current : Option InterfaceDecl) :
    takeLine depth (f i) line (current.map (·.move f)) = (takeLine depth i line current).map (·.move f) := by
  unfold takeLine
  split_ifs with hzero hone
  · cases startsInterface? line with
    | none => rfl
    | some name => rfl
  · rw [Option.map_map, Option.map_map]
    cases declaresMethod? line with
    | none => rfl
    | some name => rfl
  · rfl

theorem InterfaceState.step_move (st : InterfaceState) (i : Nat) (line : Line) :
    List.Forall₂ (InterfaceDecl.Moved f) (st.step i line).1 ((st.move f).step (f i) line).1 ∧
      ((st.move f).step (f i) line).2 = (st.step i line).2.move f := by
  simp only [InterfaceState.step, InterfaceState.move, takeLine_move]
  split_ifs with hclose
  · exact ⟨keepInterface_move f _, rfl⟩
  · exact ⟨.nil, rfl⟩

variable {blank : Line} (hblank : ∀ c ∈ blank, Text.isBlank c = true)

include hblank

theorem takeLine_blank (depth j : Nat) (current : Option InterfaceDecl) : takeLine depth j blank current = current := by
  have hinterface : startsInterface? blank = none := by
    rw [startsInterface?, Text.trim_of_blanks hblank]
    rfl
  have hmethod : declaresMethod? blank = none := by
    rw [declaresMethod?, Text.trim_of_blanks hblank]
    rfl
  simp [takeLine, hinterface, hmethod]

theorem InterfaceState.step_blank (st : InterfaceState) (j : Nat) : st.step j blank = ([], st) := by
  simp [InterfaceState.step, braces_blank hblank, takeLine_blank hblank]

def interfaceWalk : LineWalk InterfaceState InterfaceDecl where
  step i line _ st := st.step i line
  close _ st := keepInterface st.current

omit hblank in
theorem run_interfaceWalk (i : Nat) (st : InterfaceState) (lines : List Line) :
    interfaceWalk.run i st lines = st.walk i lines := by
  induction lines generalizing i st with
  | nil => rfl
  | cons line lines ih => exact congrArg _ (ih _ _)

theorem interfaceWalk_skips :
    interfaceWalk.Skips blank f (fun st st' => st' = st.move f) (InterfaceDecl.Moved f) where
  step i line _ _ _ h := by
    subst h
    exact InterfaceState.step_move f _ i line
  close i j h := by
    subst h
    exact keepInterface_move f _
  skip j rest h := by
    subst h
    have hstep := InterfaceState.step_blank hblank (j := j)
    exact ⟨congrArg Prod.fst (hstep _), congrArg Prod.snd (hstep _)⟩

theorem interfaces_inserted (above below : List Line) :
    List.Forall₂ (InterfaceDecl.Moved (insertedAt above.length)) (interfaces (above ++ below))
      (interfaces (above ++ blank :: below)) := by
  have hwalk := (interfaceWalk_skips _ hblank).run_insert above below (Nat.zero_add _) {} {} rfl
  rwa [run_interfaceWalk, run_interfaceWalk] at hwalk

end Interfaces

end Braced

/-- A blank line, put anywhere into a source in any language, leaves all classes and interfaces as they are but
for line numbers, and the numbers of their first lines grow with the source. -/
theorem Language.blank_line_moves_declarations (l : Language) (above below : List Line) (blank : Line)
    (hblank : ∀ c ∈ blank, Text.isBlank c = true) :
    List.Forall₂ (ClassDecl.Moved (insertedAt above.length)) (l.family.classes (above ++ below))
        (l.family.classes (above ++ blank :: below)) ∧
      List.Forall₂ (InterfaceDecl.Moved (insertedAt above.length)) (l.family.interfaces (above ++ below))
        (l.family.interfaces (above ++ blank :: below)) := by
  cases l.family with
  | indented => exact ⟨Indented.classes_inserted hblank above below, Indented.interfaces_inserted hblank above below⟩
  | braced => exact ⟨Braced.classes_inserted hblank above below, Braced.interfaces_inserted hblank above below⟩

/-- The blank line stands inside the parameter list of a constructor. -/
theorem Language.blank_line_moves_declarations_signature :
    let above : List Line := ["class Shape(ABC):".toList, "    def __init__(self,".toList]
    let below : List Line := ["            unit):".toList, "        self.unit = unit".toList,
      "    @abstractmethod".toList, "    def area(self): ...".toList]
    let blank : Line := " \t".toList
    (∀ c ∈ blank, Text.isBlank c = true) ∧
      (Language.python.family.classes (above ++ blank :: below)).map (fun c => (c.methods, c.constructor?)) =
        [([⟨"__init__", 1, 4, 3, ["unit"], []⟩, ⟨"area", 6, 6, 6, [], []⟩], some ⟨1, 4, ["unit"]⟩)] ∧
      List.Forall₂ (ClassDecl.Moved (insertedAt 2)) (Language.python.family.classes (above ++ below))
        (Language.python.family.classes (above ++ blank :: below)) ∧
      List.Forall₂ (InterfaceDecl.Moved (insertedAt 2)) (Language.python.family.interfaces (above ++ below))
        (Language.python.family.interfaces (above ++ blank :: below)) := by
  intro above below blank
  have hblank : ∀ c ∈ blank, Text.isBlank c = true := List.all_eq_true.1 (by decide)
  exact ⟨hblank, by decide +kernel, Language.blank_line_moves_declarations .python above below blank hblank⟩

end DesignLint
