import DesignLint.Proofs.MovedDeclarations
import DesignLint.Proofs.SourceSpans

/-! Top-level blocks are read independently of one another. If some lines end where nothing is open,
then the classes of these lines and more are their own classes, followed by those of the further lines
with other line numbers. -/

namespace DesignLint

def MethodDecl.shift (n : Nat) (m : MethodDecl) : MethodDecl := m.move (· + n)

/-- The class `n` lines further down. -/
def ClassDecl.shift (n : Nat) (c : ClassDecl) : ClassDecl := c.move (· + n) (· + n) (·.params)

/-- Also for `i = 0`, since a class ends no earlier than it starts. -/
theorem ClassDecl.endAt_pred_shift (n : Nat) (c : ClassDecl) (i : Nat) :
    (c.shift n).endAt (i + n - 1) = (c.endAt (i - 1)).shift n :=
  c.endAt_move (by omega)

namespace Source

def Group.isClosed : Group → Bool
  | .unclosed _ => false
  | _ => true

theorem groupPieces_append {rows : List Line} (more : List Line) {depth k : Nat}
    (h : (groupPieces depth rows).2 = some k) :
    groupPieces depth (rows ++ more) = groupPieces depth rows := by
  induction rows generalizing depth k with
  | nil => cases h
  | cons row rows ih =>
    rw [List.cons_append, groupPieces, groupPieces]
    rw [groupPieces] at h
    cases hread : readInside depth none false row with
    | mk piece d =>
      cases d with
      | none => rfl
      | some d =>
        rw [hread] at h
        obtain ⟨j, hj, -⟩ := Option.map_eq_some_iff.1 h
        simp only [ih hj]

/-- A group that closes is not read any further. -/
theorem Group.read_append {row : List Char} {rows : List Line} (more : List Line)
    (h : (Group.read row rows).isClosed = true) :
    Group.read row (rows ++ more) = Group.read row rows := by
  unfold Group.read at h ⊢
  cases hrow : row.dropWhile (· != '(') with
  | nil => rfl
  | cons c s =>
    rw [hrow] at h
    dsimp only at h ⊢
    cases hpieces : groupPieces 1 (s :: rows) with
    | mk pieces k =>
      cases k with
      | none =>
        rw [hpieces] at h
        cases h
      | some k =>
        rw [← List.cons_append, groupPieces_append more (by rw [hpieces]), hpieces]

/-- Does the parameter list behind `name`, on the first of these lines, close within them? -/
def signatureCloses (name : String) : List Line → Bool
  | [] => false
  | row :: rows => (Group.read (row.drop ((Text.find? name.toList row).getD 0)) rows).isClosed

/-- There is a line where a signature closes. -/
theorem lt_length_of_signatureCloses {name : String} {lines : List Line} {i : Nat}
    (h : signatureCloses name (lines.drop i) = true) : i < lines.length := by
  by_contra hle
  rw [List.drop_eq_nil_of_le (by omega)] at h
  cases h

end Source

namespace Indented

def OpenClass.shift (n : Nat) (c : OpenClass) : OpenClass := { c with decl := c.decl.shift n }

def OpenMethod.shift (n : Nat) (m : OpenMethod) : OpenMethod := { m with decl := m.decl.shift n }

def State.shift (n : Nat) : State → State
  | .outside => .outside
  | .inClass c => .inClass (c.shift n)
  | .inMethod c m => .inMethod (c.shift n) (m.shift n)

/-- Reads lines from line `i` on: the classes that close in them and the state behind them. -/
def State.read (i : Nat) (st : State) : List Line → List ClassDecl × State
  | [] => ([], st)
  | line :: lines =>
    let (closed, st) := st.step i line
    let (more, st) := st.read (i + 1) lines
    (closed ++ more, st)

theorem State.walk_cons (st : State) (i : Nat) (line : Line) (lines : List Line) :
    st.walk i (line :: lines) = (st.step i line).1 ++ (st.step i line).2.walk (i + 1) lines := rfl

theorem State.walk_append (st : State) (i : Nat) (above below : List Line) :
    st.walk i (above ++ below) =
      (st.read i above).1 ++ (st.read i above).2.walk (i + above.length) below := by
  induction above generalizing st i with
  | nil => rfl
  | cons line above ih =>
    rw [List.cons_append, State.walk_cons, State.read, ih]
    simp only [List.append_assoc, List.length_cons, Nat.add_assoc, Nat.add_comm 1]

section Shift

variable (n i : Nat) (line : Line) (st : State)

theorem OpenMethod.extend_shift (m : OpenMethod) (refs : List Reference) :
    (m.shift n).extend (i + n) refs = (m.extend i refs).shift n := by
  simp only [OpenMethod.extend, OpenMethod.shift, MethodDecl.shift, MethodDecl.move_mention]
  rfl

theorem OpenClass.addMethod_shift (c : OpenClass) (m : OpenMethod) :
    (c.shift n).addMethod (m.shift n) = (c.addMethod m).shift n := by
  simp only [OpenClass.addMethod, OpenClass.shift, OpenMethod.shift, ClassDecl.shift, MethodDecl.shift,
    ClassDecl.move_addMethod]

theorem member_shift (c : OpenClass) :
    member (c.shift n) (i + n) line = (member c i line).shift n := by
  unfold member
  split
  · rfl
  · rfl

@[simp] theorem State.inHeader_shift : (st.shift n).inHeader = st.inHeader := by
  cases st <;> rfl

@[simp] theorem State.inBody_shift (indent : Nat) : (st.shift n).inBody indent = st.inBody indent := by
  cases st <;> rfl

theorem State.close_shift :
    (st.shift n).close (i + n - 1) = (st.close (i - 1)).map (·.shift n) := by
  cases st with
  | outside => rfl
  | inClass c =>
    simp [State.shift, State.close, OpenClass.shift, ClassDecl.endAt_pred_shift]
  | inMethod c m =>
    simp only [State.shift, State.close, OpenClass.addMethod_shift]
    simp [OpenClass.shift, ClassDecl.endAt_pred_shift]

theorem State.step_shift : (st.shift n).step (i + n) line =
    ((st.step i line).1.map (·.shift n), (st.step i line).2.shift n) := by
  have hclose := st.close_shift n i
  unfold State.step
  simp only [State.inHeader_shift, State.inBody_shift]
  by_cases hheader : st.inHeader
  · rw [if_pos hheader, if_pos hheader]
    cases st <;> rfl
  by_cases hblank : (Text.trim line).isEmpty
  · rw [if_neg hheader, if_neg hheader, if_pos hblank, if_pos hblank]
    rfl
  rw [if_neg hheader, if_neg hheader, if_neg hblank, if_neg hblank]
  cases hclass : (if st.inBody (Text.indent line) then none
      else classHeader.match? (Text.trim line)) with
  | some found =>
    simp only [hclose]
    rfl
  | none =>
    cases st with
    | outside => rfl
    | inClass c =>
      have hindent : (c.shift n).indent = c.indent := rfl
      simp only [State.shift] at hclose
      simp only [State.shift, hclose, hindent, member_shift]
      split_ifs with hleave
      · rfl
      · rfl
    | inMethod c m =>
      have hindent : (c.shift n).indent = c.indent := rfl
      have hmention : (c.shift n).decl.mention (references line) =
          (c.decl.mention (references line)).shift n := (c.decl.move_mention (· + n) (· + n) _ _).symm
      simp only [State.shift] at hclose
      simp only [State.shift, hclose, hindent, hmention, OpenMethod.extend_shift,
        OpenClass.addMethod_shift, member_shift]
      split_ifs with hleave hbody
      · rfl
      · rfl
      · rfl

theorem State.walk_shift (lines : List Line) :
    (st.shift n).walk (i + n) lines = (st.walk i lines).map (·.shift n) := by
  induction lines generalizing st i with
  | nil => exact st.close_shift n i
  | cons line lines ih =>
    rw [State.walk_cons, State.walk_cons, State.step_shift, List.map_append, ← ih, Nat.add_right_comm]

end Shift

/-- A line at the left margin closes what is open, unless a signature runs on. -/
theorem State.walk_margin {st : State} (hst : st.inHeader = false) (i : Nat) {lines : List Line}
    (h : ∀ line ∈ lines.head?, Text.trim line ≠ [] ∧ Text.indent line = 0) :
    st.walk i lines = st.close (i - 1) ++ State.outside.walk i lines := by
  cases lines with
  | nil => simp [State.walk, State.close]
  | cons line lines =>
    obtain ⟨hline, hindent⟩ := h line rfl
    have hbody : st.inBody 0 = false := by cases st <;> simp [State.inBody]
    have houtside : State.outside.inHeader = false ∧ State.outside.inBody 0 = false := ⟨rfl, rfl⟩
    have hstep : st.step i line =
        (st.close (i - 1) ++ (State.outside.step i line).1, (State.outside.step i line).2) := by
      unfold State.step
      simp only [hst, houtside, hindent, hbody, List.isEmpty_iff, hline, Bool.false_eq_true, if_false]
      cases classHeader.match? (Text.trim line) with
      | some found => simp [State.close]
      | none => cases st <;> simp [State.close]
    rw [State.walk_cons, State.walk_cons, hstep, List.append_assoc]

theorem walk_append_margin {above below : List Line}
    (hopen : (State.outside.read 0 above).2.inHeader = false)
    (hmargin : ∀ line ∈ below.head?, Text.trim line ≠ [] ∧ Text.indent line = 0) :
    State.outside.walk 0 (above ++ below) =
      State.outside.walk 0 above ++ (State.outside.walk 0 below).map (·.shift above.length) := by
  have habove := State.outside.walk_append 0 above []
  rw [List.append_nil, State.walk] at habove
  have hshift := State.outside.walk_shift above.length 0 below
  rw [State.walk_append, State.walk_margin hopen _ hmargin, habove, ← hshift, List.append_assoc,
    Nat.zero_add]
  rfl

theorem signatureParams_append {lines : List Line} (more : List Line)
    (h : Source.signatureCloses constructorName lines = true) :
    signatureParams (lines ++ more) = signatureParams lines := by
  cases lines with
  | nil => cases h
  | cons header rest =>
    simp only [List.cons_append, signatureParams, Source.Group.read_append more h]

theorem findConstructor_append {lines : List Line} (more : List Line) {c : ClassDecl}
    (h : ∀ k ∈ (findConstructor lines c).constructor?,
      Source.signatureCloses constructorName (lines.drop k.startLine) = true) :
    findConstructor (lines ++ more) c = findConstructor lines c := by
  unfold findConstructor at h ⊢
  cases hm : c.methods.find? (·.name == constructorName) with
  | none => rfl
  | some m =>
    have hcloses : Source.signatureCloses constructorName (lines.drop m.startLine) = true :=
      h ⟨m.startLine, m.endLine, signatureParams (lines.drop m.startLine)⟩ (by rw [hm]; rfl)
    have hle := (Source.lt_length_of_signatureCloses hcloses).le
    simp only [Option.map_some, List.drop_append_of_le_length hle, signatureParams_append more hcloses]

theorem drop_shifted (above below : List Line) (i : Nat) :
    (above ++ below).drop (i + above.length) = below.drop i := by
  rw [Nat.add_comm, ← List.drop_drop, List.drop_left]

theorem findConstructor_shift (above below : List Line) (c : ClassDecl) :
    findConstructor (above ++ below) (c.shift above.length) =
      (findConstructor below c).shift above.length := by
  have hfind : (c.methods.map (·.shift above.length)).find? (·.name == constructorName) =
      (c.methods.find? (·.name == constructorName)).map (·.shift above.length) := by
    rw [List.find?_map]
    rfl
  unfold findConstructor
  simp only [MethodDecl.shift] at hfind
  simp only [ClassDecl.shift, ClassDecl.move, hfind, Option.map_map, ClassDecl.mk.injEq, true_and]
  cases c.methods.find? (·.name == constructorName) with
  | none => rfl
  | some m => simp [MethodDecl.move, ConstructorDecl.move, drop_shifted]

theorem classes_append {above below : List Line}
    (hopen : (State.outside.read 0 above).2.inHeader = false)
    (hmargin : ∀ line ∈ below.head?, Text.trim line ≠ [] ∧ Text.indent line = 0)
    (hcloses : ∀ c ∈ classes above, ∀ k ∈ c.constructor?,
      Source.signatureCloses constructorName (above.drop k.startLine) = true) :
    classes (above ++ below) = classes above ++ (classes below).map (·.shift above.length) := by
  have habove : (State.outside.walk 0 above).map (findConstructor (above ++ below)) =
      (State.outside.walk 0 above).map (findConstructor above) :=
    List.map_congr_left fun c hc =>
      findConstructor_append below (hcloses _ (mem_classes.2 ⟨c, hc, rfl⟩))
  simp only [classes, walk_append_margin hopen hmargin, List.map_append, habove, List.map_map,
    Function.comp_def, findConstructor_shift]

end Indented

namespace Braced

/-- If line `i` becomes line `f i`, then a class that closes on this line, or in front of it, ends on line `e j`
in place of line `j`. -/
structure MovesEnd (f e : Nat → Nat) (i : Nat) : Prop where
  on : ∀ start, e (max start i) = max (f start) (f i)
  before : ∀ start, e (max start (i - 1)) = max (f start) (f i - 1)

variable (f : Nat → Nat) (params : ConstructorDecl → List String)

def Member.move : Member → Member
  | .none => .none
  | .constructor => .constructor
  | .method m => .method (m.move f)

def OpenClass.move (c : OpenClass) : OpenClass := ⟨c.decl.move f f params, c.member.move f⟩

def State.move (st : State) : State := { st with current := st.current.map (·.move f params) }

section Move

variable {f params} {e : Nat → Nat}

theorem OpenClass.closeMember_move (c : OpenClass) :
    (c.move f params).closeMember = c.closeMember.move f params := by
  obtain ⟨decl, member⟩ := c
  cases member with
  | none => rfl
  | constructor => rfl
  | method m =>
    simp [OpenClass.move, OpenClass.closeMember, Member.move, ClassDecl.move_addMethod]

theorem map_close_move {i i' : Nat} (h : ∀ start, e (max start i) = max (f start) i')
    (current : Option OpenClass) :
    ((current.map (·.move f params)).toList.map fun c => c.close i') =
      (current.toList.map fun c => c.close i).map (·.move f e params) := by
  cases current with
  | none => rfl
  | some c =>
    have hclose : (c.move f params).close i' = (c.close i).move f e params := by
      rw [OpenClass.close, OpenClass.closeMember_move]
      exact ClassDecl.endAt_move _ (h _)
    simp [hclose]

variable {i : Nat} {line : Line} {rest rest' : List Line}

theorem OpenClass.enterAt_move
    (hstart : params ⟨i, i, constructorParams line rest⟩ = constructorParams line rest') (depth : Nat)
    (c : OpenClass) :
    (c.move f params).enterAt depth (f i) line rest' = (c.enterAt depth i line rest).move f params := by
  obtain ⟨decl, member⟩ := c
  cases member with
  | constructor => rfl
  | method m => rfl
  | none =>
    simp only [OpenClass.move, Member.move, OpenClass.enterAt]
    split_ifs with hdepth
    · unfold OpenClass.enter
      split_ifs with hconstructor
      · simp [ClassDecl.move, ConstructorDecl.move, hstart]
      · cases startsMethod? line with
        | none => rfl
        | some name => rfl
    · rfl

theorem State.start_move (hends : MovesEnd f e i)
    (hstart : params ⟨i, i, constructorParams line rest⟩ = constructorParams line rest') (st : State) :
    (st.move f params).start (f i) line rest' =
      ((st.start i line rest).1.map (·.move f e params), (st.start i line rest).2.map (·.move f params)) := by
  have hdepth : (st.move f params).depth = st.depth := rfl
  have hcurrent : (st.move f params).current = st.current.map (·.move f params) := rfl
  unfold State.start
  rw [hdepth, hcurrent]
  cases (if st.depth = 0 then classHeader.match? (Text.trim line) else none) with
  | some found =>
    simp only [map_close_move hends.before]
    rfl
  | none =>
    cases st.current with
    | none => rfl
    | some c => simp [OpenClass.enterAt_move hstart]

theorem OpenClass.extend_move (hend : ∀ k last, params { k with endLine := last } = params k) (c : OpenClass) :
    (c.move f params).extend (f i) line = (c.extend i line).move f params := by
  obtain ⟨decl, member⟩ := c
  cases member with
  | none => rfl
  | constructor =>
    have hmap : ∀ k : ConstructorDecl, { k.move f params with endLine := f i } =
        ConstructorDecl.move f params { k with endLine := i } := by
      intro k
      simp [ConstructorDecl.move, hend]
    simp [OpenClass.move, Member.move, OpenClass.extend, ClassDecl.move, Function.comp_def, hmap]
  | method m =>
    simp only [OpenClass.move, Member.move, OpenClass.extend, ClassDecl.move_mention, MethodDecl.move_mention]
    rfl

/-- A line is read in the same way with another number, up to the parameters of a constructor it starts. -/
theorem State.step_move (hends : MovesEnd f e i) (hend : ∀ k last, params { k with endLine := last } = params k)
    (hstart : params ⟨i, i, constructorParams line rest⟩ = constructorParams line rest') (st : State) :
    (st.move f params).step (f i) line rest' =
      ((st.step i line rest).1.map (·.move f e params), (st.step i line rest).2.move f params) := by
  have hdepth : (st.move f params).depth = st.depth := rfl
  have hextend : ∀ current : Option OpenClass,
      (current.map (·.move f params)).map (fun c => c.extend (f i) line) =
        (current.map fun c => c.extend i line).map (·.move f params) := by
    intro current
    cases current with
    | none => rfl
    | some c => simp [OpenClass.extend_move hend]
  have hclose : ∀ current : Option OpenClass,
      (current.map (·.move f params)).map (fun c => c.closeMember) =
        (current.map fun c => c.closeMember).map (·.move f params) := by
    intro current
    cases current with
    | none => rfl
    | some c => simp [OpenClass.closeMember_move]
  simp only [State.step, State.start_move hends hstart, hdepth, hextend, hclose, map_close_move hends.on]
  split_ifs with hstay hzero
  · rfl
  · rw [List.map_append]
    rfl
  · rfl

end Move

def State.read (i : Nat) (st : State) (more : List Line) : List Line → List ClassDecl × State
  | [] => ([], st)
  | line :: rest =>
    let (closed, st) := st.step i line (rest ++ more)
    let (later, st) := st.read (i + 1) more rest
    (closed ++ later, st)

theorem State.walk_append (st : State) (i : Nat) (above below : List Line) :
    st.walk i (above ++ below) = (st.read i below above).1 ++
      (st.read i below above).2.walk (i + above.length) below := by
  induction above generalizing st i with
  | nil => rfl
  | cons line above ih =>
    simp only [List.cons_append, State.walk, State.read, ih, List.append_assoc, List.length_cons,
      Nat.add_assoc, Nat.add_comm 1]

section Move

variable {f params} {e : Nat → Nat} (hend : ∀ k last, params { k with endLine := last } = params k)

include hend

theorem State.read_move (more more' : List Line) {i : Nat} {lines : List Line} (hlines : ∀ j, f (i + j) = f i + j)
    (hends : ∀ j, i ≤ j → MovesEnd f e j)
    (hstart : ∀ j line rest, lines.drop j = line :: rest →
      params ⟨i + j, i + j, constructorParams line (rest ++ more)⟩ =
        constructorParams line (rest ++ more')) (st : State) :
    (st.move f params).read (f i) more' lines =
      ((st.read i more lines).1.map (·.move f e params), (st.read i more lines).2.move f params) := by
  induction lines generalizing st i with
  | nil => rfl
  | cons line lines ih =>
    have hnext : ∀ j, f (i + 1 + j) = f (i + 1) + j := by
      intro j
      rw [Nat.add_assoc, hlines, hlines, Nat.add_assoc]
    have hlater : ∀ j row rest, lines.drop j = row :: rest →
        params ⟨i + 1 + j, i + 1 + j, constructorParams row (rest ++ more)⟩ =
          constructorParams row (rest ++ more') := by
      intro j row rest hrow
      rw [Nat.add_assoc, Nat.add_comm 1]
      exact hstart (j + 1) row rest hrow
    have hline := State.step_move (hends i le_rfl) hend (hstart 0 line lines rfl) st
    have hrest := ih hnext (fun j hj => hends j (Nat.le_of_succ_le hj)) hlater
    simp only [State.read, hline, List.map_append, ← hlines 1, hrest]

/-- If from line `i` on every line is moved by the same amount, then so are the classes, up to the parameters of
their constructors. -/
theorem State.walk_move {i : Nat} {lines : List Line} (hlines : ∀ j, f (i + j) = f i + j)
    (hends : ∀ j, i ≤ j → MovesEnd f e j)
    (hstart : ∀ j line rest, lines.drop j = line :: rest →
      params ⟨i + j, i + j, constructorParams line rest⟩ = constructorParams line rest) (st : State) :
    (st.move f params).walk (f i) lines = (st.walk i lines).map (·.move f e params) := by
  have hread := State.read_move hend [] [] hlines hends (by simpa using hstart) st
  have hlast := (hends (i + lines.length) (Nat.le_add_right _ _)).before
  have hwalk := State.walk_append st i lines []
  have hwalk' := State.walk_append (st.move f params) (f i) lines []
  rw [List.append_nil] at hwalk hwalk'
  rw [hwalk, hwalk', hread, List.map_append, ← hlines]
  exact congrArg _ (map_close_move hlast _)

end Move

def paramsAt (lines : List Line) (i : Nat) : List String :=
  match lines.drop i with
  | [] => []
  | line :: rest => constructorParams line rest

theorem paramsAt_append {lines : List Line} (more : List Line) {i : Nat}
    (h : Source.signatureCloses constructorName (lines.drop i) = true) :
    paramsAt (lines ++ more) i = paramsAt lines i := by
  unfold paramsAt
  rw [List.drop_append_of_le_length (Source.lt_length_of_signatureCloses h).le]
  cases hlines : lines.drop i with
  | nil =>
    rw [hlines] at h
    cases h
  | cons line rest =>
    rw [hlines] at h
    simp only [List.cons_append, constructorParams, Source.Group.read_append more h]

theorem movesEnd_id (i : Nat) : MovesEnd id id i := ⟨fun _ => rfl, fun _ => rfl⟩

theorem movesEnd_add (n i : Nat) : MovesEnd (· + n) (· + n) i where
  on start := by omega
  before start := by omega

/-- The lines that follow change nothing but the parameters of constructors. -/
theorem read_more (above below : List Line) :
    State.read 0 {} below above =
      ((State.read 0 {} [] above).1.map (·.move id id fun k => paramsAt (above ++ below) k.startLine),
        (State.read 0 {} [] above).2.move id fun k => paramsAt (above ++ below) k.startLine) := by
  refine State.read_move (fun _ _ => rfl) [] below (fun _ => rfl) (fun j _ => movesEnd_id j)
    (fun j line rest hline => ?_) {}
  have hlt : j < above.length := by
    by_contra hle
    rw [List.drop_eq_nil_of_le (by omega)] at hline
    cases hline
  simp only [paramsAt, Nat.zero_add, List.drop_append_of_le_length hlt.le, hline, List.cons_append]

theorem State.walk_shift (n i : Nat) (st : State) (lines : List Line) :
    (st.move (· + n) (·.params)).walk (i + n) lines = (st.walk i lines).map (·.shift n) :=
  State.walk_move (fun _ _ => rfl) (fun j => Nat.add_right_comm i j n) (fun j _ => movesEnd_add n j)
    (fun _ _ _ _ => rfl) st

/-- A constructor has the parameters that stand behind its start. -/
theorem params_of_mem {lines : List Line} {c : ClassDecl} (hc : c ∈ classes lines) {k : ConstructorDecl}
    (hk : k ∈ c.constructor?) : paramsAt lines k.startLine = k.params := by
  -- reading all parameters anew changes none of the classes
  have hsame : (classes lines).map (·.move id id fun k => paramsAt lines k.startLine) = classes lines := by
    refine (State.walk_move (fun _ _ => rfl) (fun _ => rfl) (fun j _ => movesEnd_id j)
      (fun j line rest hline => ?_) {}).symm
    simp only [paramsAt, Nat.zero_add, hline]
  have hc := List.map_inj_left.1 (hsame.trans (List.map_id _).symm) c hc
  have hconstructor := congrArg ClassDecl.constructor? hc
  simp only [ClassDecl.move, id, Option.mem_def.1 hk, Option.map_some, Option.some.injEq] at hconstructor
  exact congrArg ConstructorDecl.params hconstructor

def endsOutside (lines : List Line) : Bool :=
  (State.read 0 {} [] lines).2.depth == 0 && (State.read 0 {} [] lines).2.current.isNone

section EndsOutside

variable {above : List Line} (hends : endsOutside above = true)

include hends

theorem read_of_endsOutside : State.read 0 {} [] above = (classes above, {}) := by
  have hstate : (State.read 0 {} [] above).2 = {} := by
    rw [endsOutside, Bool.and_eq_true, beq_iff_eq, Option.isNone_iff_eq_none] at hends
    exact congrArg₂ State.mk hends.1 hends.2
  have hwalk := State.walk_append {} 0 above []
  rw [List.append_nil, hstate, State.walk, Option.toList_none, List.map_nil, List.append_nil] at hwalk
  exact Prod.ext hwalk.symm hstate

theorem classes_append {below : List Line}
    (hcloses : ∀ c ∈ classes above, ∀ k ∈ c.constructor?,
      Source.signatureCloses constructorName (above.drop k.startLine) = true) :
    classes (above ++ below) = classes above ++ (classes below).map (·.shift above.length) := by
  have hkept : (classes above).map (·.move id id fun k => paramsAt (above ++ below) k.startLine) =
      classes above := by
    refine (List.map_congr_left fun c hc => ?_).trans (List.map_id _)
    refine c.move_id fun k hk => ?_
    rw [paramsAt_append below (hcloses c hc k hk)]
    exact params_of_mem hc hk
  have hbelow := State.walk_shift above.length 0 {} below
  rw [classes, State.walk_append, read_more above below, read_of_endsOutside hends, hkept]
  exact congrArg _ hbelow

end EndsOutside

end Braced

namespace Family

/-- Do the lines `above` end where nothing is open for the lines `below` to go on with? A class of
indented lines ends where the next line at the left margin starts. -/
def Boundary : Family → List Line → List Line → Prop
  | .indented, above, below => (Indented.State.outside.read 0 above).2.inHeader = false ∧
      ∀ line ∈ below.head?, Text.trim line ≠ [] ∧ Text.indent line = 0
  | .braced, above, _ => Braced.endsOutside above = true

/-- The classes above a boundary and those below it are read as if the others were not there. -/
theorem classes_of_blocks (f : Family) (above below : List Line) (hboundary : f.Boundary above below)
    (hcloses : ∀ c ∈ f.classes above, ∀ k ∈ c.constructor?,
      Source.signatureCloses f.constructorName (above.drop k.startLine) = true) :
    f.classes (above ++ below) =
      f.classes above ++ (f.classes below).map (·.shift above.length) := by
  cases f with
  | indented => exact Indented.classes_append hboundary.1 hboundary.2 hcloses
  | braced => exact Braced.classes_append hboundary hcloses

/-- In both families, a class whose constructor has its parameters on two lines and a class below it. -/
theorem classes_of_blocks_pair :
    let above : Family → List Line
      | .indented => ["class A:", "    def __init__(self,", "                 x):", ""].map (·.toList)
      | .braced => ["class A \x7b", "  constructor(x,", "    y) \x7b\x7d", "\x7d"].map (·.toList)
    let below : Family → List Line
      | .indented => ["class B:", "    def f(self): pass"].map (·.toList)
      | .braced => ["class B \x7b", "  f() \x7b\x7d", "\x7d"].map (·.toList)
    ∀ f, Boundary f (above f) (below f) ∧
      (∀ c ∈ f.classes (above f), ∀ k ∈ c.constructor?,
        Source.signatureCloses f.constructorName ((above f).drop k.startLine) = true) ∧
      (f.classes (above f)).map (·.name) = ["A"] ∧ (f.classes (below f)).map (·.name) = ["B"] ∧
      f.classes (above f ++ below f) = f.classes (above f) ++
        (f.classes (below f)).map (·.shift (above f).length) := by
  intro above below f
  have hboundary : Boundary f (above f) (below f) := by
    cases f with
    | indented => exact ⟨by decide +kernel, by decide +kernel⟩
    | braced => exact (by decide +kernel : Braced.endsOutside (above .braced) = true)
  have hcloses : ∀ c ∈ f.classes (above f), ∀ k ∈ c.constructor?,
      Source.signatureCloses f.constructorName ((above f).drop k.startLine) = true := by
    cases f <;> decide +kernel
  refine ⟨hboundary, hcloses, ?_, ?_, classes_of_blocks f _ _ hboundary hcloses⟩
  · cases f <;> decide +kernel
  · cases f <;> decide +kernel

end Family

end DesignLint
