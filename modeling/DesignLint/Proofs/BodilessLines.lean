import DesignLint.Proofs.BracedExtents
import DesignLint.Proofs.Evidence
import DesignLint.Proofs.TopLevelBlocks

/-! Lines between the members of a class that have no brace and end with a semicolon: signatures of overloads
and abstract methods, and fields. Such a line opens nothing, so with it and without it the walk finds the same
classes, on other lines. The signature of a constructor is the exception. It opens the constructor, which then
takes all lines up to the next closing brace. -/

namespace DesignLint

section InsertLine

/-- The class once a line is put in front of line `k`. Like any other line, the line behind the class moves on, so
a class that goes on to the end of the lines takes a new line there. -/
def ClassDecl.insertLine (k : Nat) (c : ClassDecl) : ClassDecl :=
  c.move (insertedAt k) (fun last => insertedAt k (last + 1) - 1) (·.params)

structure ClassDecl.LiesAbove (c : ClassDecl) (k : Nat) : Prop where
  startLine : c.startLine < k
  methods : ∀ m ∈ c.methods, m.startLine < k ∧ m.endLine < k ∧ m.headerEnd < k
  constructor? : ∀ q ∈ c.constructor?, q.startLine < k ∧ q.endLine < k

theorem ClassDecl.Laid.liesAbove {c : ClassDecl} {k : Nat} (h : c.Laid k)
    (hk : ∀ q ∈ c.constructor?, q.startLine ≤ q.endLine ∧ q.endLine < k) : c.LiesAbove k where
  startLine := h.start_lt
  methods m hm := by
    obtain ⟨-, hheader, hbody, hend⟩ := h.methods m hm
    omega
  constructor? q hq := by
    obtain ⟨hle, hlt⟩ := hk q hq
    omega

/-- A line put in below changes nothing but what is read anew. -/
theorem ClassDecl.LiesAbove.move_move {c : ClassDecl} {k : Nat} (h : c.LiesAbove k) {e : Nat → Nat}
    (hend : e c.endLine = c.endLine) (p p' : Nat → List String) :
    (c.move id id fun q => p q.startLine).move (insertedAt k) e (fun q => p' (insertedAt k q.startLine)) =
      c.move id id fun q => p' q.startLine := by
  have hmethods : (c.methods.map (·.move id)).map (·.move (insertedAt k)) = c.methods.map (·.move id) := by
    rw [List.map_map]
    refine List.map_congr_left fun m hm => ?_
    obtain ⟨hstart, hlast, hheader⟩ := h.methods m hm
    simp only [Function.comp_apply, MethodDecl.move, id, insertedAt_of_lt, *]
  have hconstructor : (c.constructor?.map (·.move id fun q => p q.startLine)).map
      (·.move (insertedAt k) fun q => p' (insertedAt k q.startLine)) =
        c.constructor?.map (·.move id fun q => p' q.startLine) := by
    cases hq : c.constructor? with
    | none => rfl
    | some q =>
      obtain ⟨hstart, hlast⟩ := h.constructor? q hq
      simp only [Option.map_some, ConstructorDecl.move, id, insertedAt_of_lt, *]
  simp only [ClassDecl.move, id, insertedAt_of_lt h.startLine, hend, ClassDecl.mk.injEq,
    true_and]
  exact ⟨hmethods, hconstructor⟩

end InsertLine

namespace Braced

/-- The class with the parameters of its constructor as they stand in these lines. -/
def rereadParams (lines : List Line) (c : ClassDecl) : ClassDecl :=
  { c with constructor? := c.constructor?.map fun k => { k with params := paramsAt lines k.startLine } }

/-- Do the lines end inside a class and outside its members, at the depth where members start? -/
def endsBetweenMembers (lines : List Line) : Bool :=
  match State.read 0 {} [] lines with
  | (_, ⟨1, some ⟨_, .none⟩⟩) => true
  | _ => false

theorem exists_of_endsBetweenMembers {lines : List Line} (h : endsBetweenMembers lines = true) :
    ∃ decl, (State.read 0 {} [] lines).2 = ⟨1, some ⟨decl, .none⟩⟩ := by
  unfold endsBetweenMembers at h
  split at h
  next decl hread => exact ⟨decl, by rw [hread]⟩
  next => cases h

/-- What is kept by every line is kept by reading some. -/
theorem State.read_run {I : Nat → List ClassDecl → State → Prop}
    (step : ∀ {i line rest done st closed st'}, Reads i line rest st closed st' → I i done st →
      I (i + 1) (done ++ closed) st')
    (more lines : List Line) {i : Nat} {done : List ClassDecl} {st : State} (start : I i done st) :
    I (i + lines.length) (done ++ (st.read i more lines).1) (st.read i more lines).2 := by
  induction lines generalizing i done st with
  | nil => simpa [State.read] using start
  | cons line rest ih =>
    have hrest := ih (step (st.step_reads i line (rest ++ more)) start)
    rw [List.append_assoc] at hrest
    rw [List.length_cons, Nat.add_comm rest.length, ← Nat.add_assoc]
    exact hrest

section Above

variable {i : Nat} {line : Line} {rest : List Line} {st st' : State} {closed : List ClassDecl}

theorem Takes.endLine {depth : Nat} {c c' : OpenClass} (h : Takes depth i line rest c c') :
    c'.decl.endLine = c.decl.endLine := by
  cases h with
  | beginMethod | method => rw [ClassDecl.mention_eq]
  | idle | beginConstructor | constructor => rfl

/-- While a class is open its last line is the one it was given on its first line. -/
theorem Reads.endLine_lt (h : Reads i line rest st closed st') (hst : ∀ c ∈ st.current, c.decl.endLine < i) :
    ∀ c ∈ st'.current, c.decl.endLine < i + 1 := by
  have hstarts : ∀ {closed current}, Starts i line rest st closed current →
      ∀ c ∈ current, c.decl.endLine < i + 1 := by
    intro closed current hstart c hc
    cases hstart with
    | begin =>
      cases hc
      exact Nat.lt_succ_self i
    | skip => cases hc
    | take hopen _ htake =>
      cases hc
      rw [htake.endLine]
      exact Nat.lt_succ_of_lt (hst _ hopen)
  cases h with
  | stay hstart => exact hstarts hstart
  | endMember hstart =>
    intro c hc
    obtain ⟨⟨decl, member⟩, ho, rfl⟩ := Option.map_eq_some_iff.1 hc
    have hlt := hstarts hstart _ ho
    cases member <;> exact hlt
  | endClass => simp

structure LinesAbove (k : Nat) (done : List ClassDecl) (current : Option OpenClass) : Prop where
  spans : Spans k done current
  endLine_lt : ∀ c ∈ current, c.decl.endLine < k

theorem read_linesAbove (lines : List Line) : LinesAbove lines.length (State.read 0 {} [] lines).1
    (State.read 0 {} [] lines).2.current := by
  have hstart : LinesAbove 0 [] (State.current {}) := ⟨⟨Layout.start, by simp, by simp⟩, by simp⟩
  have hrun := State.read_run (I := fun i done st => LinesAbove i done st.current)
    (fun hreads h => ⟨h.spans.reads hreads, hreads.endLine_lt h.endLine_lt⟩) [] lines hstart
  rwa [Nat.zero_add, List.nil_append] at hrun

variable {k : Nat} {done : List ClassDecl} {decl : ClassDecl} (h : LinesAbove k done (some ⟨decl, .none⟩))

include h

theorem LinesAbove.open_above : decl.LiesAbove k := by
  refine (h.spans.layout.laid decl rfl).liesAbove fun q hq => ?_
  obtain ⟨-, hle, hlt⟩ := (h.spans.placed _ rfl).bounds q hq
  exact ⟨hle, hlt⟩

/-- There is a line between a closed class and line `k`: the header of the open class. -/
theorem LinesAbove.closed_above {c : ClassDecl} (hc : c ∈ done) : c.endLine + 1 < k ∧ c.LiesAbove k := by
  have hbehind := h.spans.layout.behind c hc decl rfl
  have hopen := h.open_above.startLine
  have hlt : c.endLine + 1 < k := by omega
  refine ⟨hlt, ((h.spans.layout.closed c hc).1.mono hlt.le).liesAbove fun q hq => ?_⟩
  obtain ⟨-, hle, hend⟩ := (h.spans.closed c hc).bounds q hq
  omega

end Above

section Transparent

variable {above below : List Line} {new : Line}

theorem isBodiless_trim (hbraces : Text.braces new = (0, 0)) (hsemicolon : (Text.trim new).getLast? = some ';') :
    isBodiless (Text.trim new) = true := by
  have hopens : '\x7b' ∉ new := List.count_eq_zero.1 (congrArg Prod.fst hbraces)
  have htrim : '\x7b' ∉ Text.trim new := fun hmem => hopens ((Text.trim_infix new).subset hmem)
  simp [isBodiless, htrim, hsemicolon]

theorem startsMethod?_of_isBodiless (h : isBodiless (Text.trim new) = true) : startsMethod? new = none := by
  unfold startsMethod?
  split
  · simp [h]
  · rfl

/-- The depth behind a line without braces. -/
theorem depthAfter_of_braces (hbraces : Text.braces new = (0, 0)) (d : Nat) : depthAfter d new = d := by
  simp [depthAfter, hbraces]

/-- Between the members, the line is read over. -/
theorem reads_bodiless (hbraces : Text.braces new = (0, 0)) (hsemicolon : (Text.trim new).getLast? = some ';')
    (hheader : constructorHeader.accepts (Text.trim new) = false) (i : Nat) (rest : List Line) (decl : ClassDecl) :
    Reads i new rest ⟨1, some ⟨decl, .none⟩⟩ [] ⟨1, some ⟨decl, .none⟩⟩ := by
  have hmethod := startsMethod?_of_isBodiless (isBodiless_trim hbraces hsemicolon)
  have hread : Reads i new rest ⟨1, some ⟨decl, .none⟩⟩ [] ⟨depthAfter 1 new, some ⟨decl, .none⟩⟩ :=
    .stay (.take rfl (by simp) (.idle fun _ => ⟨hmethod, hheader⟩)) (Or.inl (by rw [hbraces]))
  rwa [depthAfter_of_braces hbraces] at hread

/-- Behind the new line every line stands one further down. -/
theorem drop_insertedAt (above below : List Line) (new : Line) {i : Nat} (hi : above.length ≤ i) :
    (above ++ new :: below).drop (insertedAt above.length i) = (above ++ below).drop i := by
  obtain ⟨j, rfl⟩ := Nat.exists_eq_add_of_le hi
  rw [insertedAt_of_le hi, Nat.add_assoc, List.drop_length_add_append, List.drop_length_add_append,
    List.drop_succ_cons]

theorem movesEnd_insertedAt {k i : Nat} (hi : k ≤ i) :
    MovesEnd (insertedAt k) (fun last => insertedAt k (last + 1) - 1) i := by
  constructor
  · intro start
    simp only [insertedAt]
    split_ifs <;> omega
  · intro start
    simp only [insertedAt]
    split_ifs <;> omega

/-- The lines above end between the members of `decl`. -/
theorem classes_between (hread : (State.read 0 {} [] above).2 = ⟨1, some ⟨decl, .none⟩⟩) (below : List Line) :
    let p := paramsAt (above ++ below)
    classes (above ++ below) =
      (State.read 0 {} [] above).1.map (·.move id id fun k => p k.startLine) ++
        State.walk above.length ⟨1, some ⟨decl.move id id fun k => p k.startLine, .none⟩⟩ below := by
  intro p
  rw [classes, State.walk_append, read_more, hread, Nat.zero_add]
  rfl

theorem rereadParams_insertLine (lines : List Line) (k : Nat) (c : ClassDecl) :
    rereadParams lines (c.insertLine k) = c.move (insertedAt k) (fun last => insertedAt k (last + 1) - 1)
      fun q => paramsAt lines (insertedAt k q.startLine) := by
  simp only [rereadParams, ClassDecl.insertLine, ClassDecl.move, Option.map_map]
  rfl

/-- The lines above are read as before, but for the parameters. -/
theorem closed_insert (hread : (State.read 0 {} [] above).2 = ⟨1, some ⟨decl, .none⟩⟩) (lines : List Line)
    (p : Nat → List String) :
    ((((State.read 0 {} [] above).1.map (·.move id id fun k => p k.startLine)).map
      (·.insertLine above.length)).map (rereadParams lines)) =
        (State.read 0 {} [] above).1.map (·.move id id fun k => paramsAt lines k.startLine) := by
  have habove := read_linesAbove above
  rw [hread] at habove
  rw [List.map_map, List.map_map]
  refine List.map_congr_left fun c hc => ?_
  obtain ⟨hlt, hlies⟩ := habove.closed_above hc
  simp only [Function.comp_apply, rereadParams_insertLine]
  exact hlies.move_move (by rw [insertedAt_of_lt hlt, Nat.add_sub_cancel]) p (paramsAt lines)

/-- The lines below are read as before, one line further down. -/
theorem walk_insert (hread : (State.read 0 {} [] above).2 = ⟨1, some ⟨decl, .none⟩⟩) (below : List Line) (new : Line)
    (p : Nat → List String) :
    let lines := above ++ new :: below
    ((State.walk above.length ⟨1, some ⟨decl.move id id fun k => p k.startLine, .none⟩⟩ below).map
      (·.insertLine above.length)).map (rereadParams lines) =
        State.walk (above.length + 1) ⟨1, some ⟨decl.move id id fun k => paramsAt lines k.startLine, .none⟩⟩ below := by
  intro lines
  have habove := read_linesAbove above
  rw [hread] at habove
  have hdecl := habove.open_above.move_move (insertedAt_of_lt (habove.endLine_lt _ rfl)) p (paramsAt lines)
  have hstart : ∀ j line rest, below.drop j = line :: rest →
      paramsAt lines (insertedAt above.length (above.length + j)) = constructorParams line rest := by
    intro j line rest hline
    have hdrop := drop_insertedAt above below new (Nat.le_add_right above.length j)
    rw [List.drop_length_add_append, hline] at hdrop
    simp only [lines, paramsAt, hdrop]
  have hmove : State.walk (insertedAt above.length above.length)
      (State.move (insertedAt above.length) (fun k => paramsAt lines (insertedAt above.length k.startLine))
        ⟨1, some ⟨decl.move id id fun k => p k.startLine, .none⟩⟩) below = _ :=
    State.walk_move (fun _ _ => rfl)
      (fun j => by rw [insertedAt_of_le (Nat.le_add_right _ _), insertedAt_of_le le_rfl, Nat.add_right_comm])
      (fun j hj => movesEnd_insertedAt hj) hstart _
  simp only [State.move, Option.map_some, OpenClass.move, Member.move, hdecl, insertedAt_of_le le_rfl] at hmove
  rw [hmove, List.map_map]
  exact List.map_congr_left fun c _ => rereadParams_insertLine lines above.length c

theorem classes_insert (hlevel : endsBetweenMembers above = true) (hbraces : Text.braces new = (0, 0))
    (hsemicolon : (Text.trim new).getLast? = some ';') (hheader : constructorHeader.accepts (Text.trim new) = false)
    (below : List Line) : classes (above ++ new :: below) =
      ((classes (above ++ below)).map (·.insertLine above.length)).map (rereadParams (above ++ new :: below)) := by
  obtain ⟨decl, hread⟩ := exists_of_endsBetweenMembers hlevel
  rw [classes_between hread, classes_between hread, List.map_append, List.map_append, closed_insert hread,
    walk_insert hread, (reads_bodiless hbraces hsemicolon hheader _ below _).walk_cons, List.nil_append]

/-- A constructor keeps its parameters, if they are not still to be closed where the new line is put in. -/
theorem rereadParams_eq {c : ClassDecl} (hc : c ∈ classes (above ++ below)) (new : Line)
    (hcloses : ∀ k ∈ c.constructor?, k.startLine < above.length →
      Source.signatureCloses constructorName (above.drop k.startLine) = true) :
    rereadParams (above ++ new :: below) (c.insertLine above.length) = c.insertLine above.length := by
  have hkept : ∀ k ∈ c.constructor?,
      paramsAt (above ++ new :: below) (insertedAt above.length k.startLine) = k.params := by
    intro k hk
    rw [← params_of_mem hc hk]
    rcases Nat.lt_or_ge k.startLine above.length with hlt | hle
    · rw [insertedAt_of_lt hlt, paramsAt_append _ (hcloses k hk hlt), paramsAt_append _ (hcloses k hk hlt)]
    · rw [paramsAt, paramsAt, drop_insertedAt above below new hle]
  rw [rereadParams_insertLine, ClassDecl.insertLine]
  simp only [ClassDecl.move, ClassDecl.mk.injEq, true_and]
  cases hk : c.constructor? with
  | none => rfl
  | some k => simp only [Option.map_some, ConstructorDecl.move, hkept k hk]

end Transparent

section Swallowed

variable {i : Nat} {line : Line} {rest : List Line} {st st' : State} {closed : List ClassDecl}

/-- A line adds no method but one that starts on it. -/
theorem Takes.methods {depth : Nat} {c c' : OpenClass} (h : Takes depth i line rest c c') {m : MethodDecl}
    (hm : m ∈ c'.draft.methods) : m.startLine = i ∨ ∃ m' ∈ c.draft.methods, m'.startLine = m.startLine := by
  cases h with
  | idle | beginConstructor | constructor => exact Or.inr ⟨m, hm, rfl⟩
  | @beginMethod decl name =>
    simp only [OpenClass.draft, OpenClass.closeMember, ClassDecl.addMethod, ClassDecl.mention_methods] at hm
    rcases List.mem_append.1 hm with hm | hm
    · exact Or.inr ⟨m, hm, rfl⟩
    · rw [List.mem_singleton.1 hm]
      simp [MethodDecl.begin]
  | @method decl a =>
    simp only [OpenClass.draft, OpenClass.closeMember, ClassDecl.addMethod, ClassDecl.mention_methods] at hm
    rcases List.mem_append.1 hm with hm | hm
    · exact Or.inr ⟨m, List.mem_append_left _ hm, rfl⟩
    · refine Or.inr ⟨a, List.mem_append_right _ (List.mem_singleton_self a), ?_⟩
      rw [List.mem_singleton.1 hm]
      simp

def State.HasMethodAt (st : State) (j : Nat) : Prop := ∃ d ∈ st.draft, ∃ m ∈ d.methods, m.startLine = j

theorem hasMethodAt_of_close {c : ClassDecl} {last : Nat}
    (hc : c ∈ st.current.toList.map fun o => o.close last) {m : MethodDecl} (hm : m ∈ c.methods) :
    st.HasMethodAt m.startLine := by
  obtain ⟨o, ho, rfl⟩ := List.mem_map.1 hc
  exact ⟨o.draft, Option.mem_map_of_mem _ (Option.mem_toList.1 ho), m, hm, rfl⟩

theorem Starts.methods {current : Option OpenClass} (h : Starts i line rest st closed current) {c : ClassDecl}
    (hc : c ∈ closed ∨ c ∈ current.map (·.draft)) {m : MethodDecl} (hm : m ∈ c.methods) :
    m.startLine = i ∨ st.HasMethodAt m.startLine := by
  cases h with
  | begin =>
    rcases hc with hc | hc
    · exact Or.inr (hasMethodAt_of_close hc hm)
    · rw [← Option.some.inj hc] at hm
      exact absurd hm List.not_mem_nil
  | skip => simp at hc
  | @take o o' hopen _ htake =>
    rcases hc with hc | hc
    · exact absurd hc List.not_mem_nil
    · rw [← Option.some.inj hc] at hm
      rcases htake.methods hm with hi | hold
      · exact Or.inl hi
      · exact Or.inr ⟨o.draft, by rw [State.draft, hopen]; rfl, hold⟩

theorem Reads.methods (h : Reads i line rest st closed st') {c : ClassDecl} (hc : c ∈ closed ∨ c ∈ st'.draft)
    {m : MethodDecl} (hm : m ∈ c.methods) : m.startLine = i ∨ st.HasMethodAt m.startLine := by
  cases h with
  | stay hstart => exact hstart.methods hc hm
  | endMember hstart =>
    refine hstart.methods (hc.imp_right fun hd => ?_) hm
    simpa [State.draft, Option.map_map, Function.comp_def] using hd
  | endClass hstart =>
    rcases hc with hc | hc
    · rcases List.mem_append.1 hc with hc | hc
      · exact hstart.methods (Or.inl hc) hm
      · obtain ⟨o, ho, rfl⟩ := List.mem_map.1 hc
        exact hstart.methods (Or.inr (Option.mem_map_of_mem _ (Option.mem_toList.1 ho))) hm
    · cases hc

/-- The lines from `i` on add no method but those that start there. -/
theorem State.walk_methods {lines : List Line} {c : ClassDecl} (hc : c ∈ st.walk i lines) {m : MethodDecl}
    (hm : m ∈ c.methods) : i ≤ m.startLine ∨ st.HasMethodAt m.startLine := by
  induction lines generalizing i st with
  | nil => exact Or.inr (hasMethodAt_of_close hc hm)
  | cons line rest ih =>
    have hreads := st.step_reads i line rest
    rw [hreads.walk_cons] at hc
    rcases List.mem_append.1 hc with hc | hc
    · exact (hreads.methods (Or.inl hc) hm).imp_left Eq.ge
    · rcases ih hc with hlt | ⟨d, hd, a, ha, hstart⟩
      · exact Or.inl (Nat.le_of_succ_le hlt)
      · rw [← hstart]
        exact (hreads.methods (Or.inr hd) ha).imp_left Eq.ge

/-- A line inside a constructor adds no method. It goes on, or a closing brace returns to the depth of members. -/
theorem Reads.in_constructor {d : Nat} {decl : ClassDecl}
    (h : Reads i line rest ⟨d, some ⟨decl, .constructor⟩⟩ closed st') (hd : 1 ≤ d) :
    (∀ c, c ∈ closed ∨ c ∈ st'.draft → c.methods = decl.methods) ∧
      ((∃ decl', st' = ⟨depthAfter d line, some ⟨decl', .constructor⟩⟩ ∧ 1 ≤ depthAfter d line) ∨
        0 < (Text.braces line).2 ∧ depthAfter d line ≤ 1) := by
  have hstarts : ∀ {closed current}, Starts i line rest ⟨d, some ⟨decl, .constructor⟩⟩ closed current →
      closed = [] ∧ ∃ decl', current = some ⟨decl', .constructor⟩ ∧ decl'.methods = decl.methods := by
    intro closed current hstart
    cases hstart with
    | begin hdepth => exact absurd hdepth (Nat.ne_of_gt hd)
    | skip hopen => cases hopen
    | take hopen _ htake =>
      cases hopen
      cases htake
      exact ⟨rfl, _, rfl, rfl⟩
  cases h with
  | stay hstart hstay =>
    obtain ⟨rfl, decl', rfl, hmethods⟩ := hstarts hstart
    refine ⟨?_, Or.inl ⟨decl', rfl, ?_⟩⟩
    · rintro c (hc | hc)
      · exact absurd hc List.not_mem_nil
      · rw [← Option.some.inj hc]
        exact hmethods
    · simp only [depthAfter] at hstay ⊢
      omega
  | endMember hstart hcloses hone =>
    obtain ⟨rfl, decl', rfl, hmethods⟩ := hstarts hstart
    refine ⟨?_, Or.inr ⟨hcloses, hone.le⟩⟩
    rintro c (hc | hc)
    · exact absurd hc List.not_mem_nil
    · rw [← Option.some.inj hc]
      exact hmethods
  | endClass hstart hcloses hzero =>
    obtain ⟨rfl, decl', rfl, hmethods⟩ := hstarts hstart
    refine ⟨?_, Or.inr ⟨hcloses, hzero.le.trans zero_le_one⟩⟩
    rintro c (hc | hc)
    · rw [List.mem_singleton.1 hc]
      exact hmethods
    · cases hc

/-- Inside a constructor no method starts, up to a closing brace that returns to the depth of members. -/
theorem walk_in_constructor {lines : List Line} {d : Nat} {decl : ClassDecl} (source : List Line)
    (hlines : source.drop i = lines) (hdepth : d = depthAt source i) (hd : 1 ≤ d) {c : ClassDecl}
    (hc : c ∈ State.walk i ⟨d, some ⟨decl, .constructor⟩⟩ lines) {m : MethodDecl} (hm : m ∈ c.methods) :
    (∃ a ∈ decl.methods, a.startLine = m.startLine) ∨
      ∃ j, i ≤ j ∧ j < m.startLine ∧ returnsTo source 1 j = true := by
  induction lines generalizing i d decl with
  | nil =>
    obtain rfl := List.mem_singleton.1 hc
    exact Or.inl ⟨m, hm, rfl⟩
  | cons line rest ih =>
    obtain ⟨hline, hrest⟩ := of_drop_eq_cons hlines
    have hreads := State.step_reads ⟨d, some ⟨decl, .constructor⟩⟩ i line rest
    rw [hreads.walk_cons] at hc
    obtain ⟨hsame, hnext⟩ := hreads.in_constructor hd
    rcases List.mem_append.1 hc with hc | hc
    · exact Or.inl ⟨m, hsame c (Or.inl hc) ▸ hm, rfl⟩
    rcases hnext with ⟨decl', hst, hd'⟩ | ⟨hcloses, hle⟩
    · rw [hst] at hc hsame
      rcases ih hrest (by rw [depthAt_succ hline, hdepth]) hd' hc with ⟨a, ha, hstart⟩ | ⟨j, hj, hreturn⟩
      · exact Or.inl ⟨a, hsame decl' (Or.inr rfl) ▸ ha, hstart⟩
      · exact Or.inr ⟨j, Nat.le_of_succ_le hj, hreturn⟩
    · rcases State.walk_methods hc hm with hlt | ⟨e, he, a, ha, hstart⟩
      · refine Or.inr ⟨i, le_rfl, hlt, ?_⟩
        rw [returnsTo_eq hline, ← hdepth, Bool.and_eq_true, decide_eq_true_eq, decide_eq_true_eq]
        exact ⟨hcloses, hle⟩
      · exact Or.inl ⟨a, hsame e (Or.inr he) ▸ ha, hstart⟩

theorem State.read_depth (st : State) (i : Nat) (more lines : List Line) :
    (st.read i more lines).2.depth = lines.foldl depthAfter st.depth := by
  induction lines generalizing st i with
  | nil => rfl
  | cons line rest ih => rw [State.read, ih, (st.step_reads i line _).depth, List.foldl_cons]

variable {above : List Line} {new : Line}

/-- Between the members, the signature of a constructor opens it. -/
theorem reads_signature (hbraces : Text.braces new = (0, 0))
    (hheader : constructorHeader.accepts (Text.trim new) = true) (i : Nat) (rest : List Line) (decl : ClassDecl) :
    Reads i new rest ⟨1, some ⟨decl, .none⟩⟩ []
      ⟨1, some ⟨{ decl with constructor? := some ⟨i, i, constructorParams new rest⟩ }, .constructor⟩⟩ := by
  have hread : Reads i new rest ⟨1, some ⟨decl, .none⟩⟩ [] ⟨depthAfter 1 new,
      some ⟨{ decl with constructor? := some ⟨i, i, constructorParams new rest⟩ }, .constructor⟩⟩ :=
    .stay (.take rfl (by simp) (.beginConstructor rfl hheader)) (Or.inl (by rw [hbraces]))
  rwa [depthAfter_of_braces hbraces] at hread

theorem methods_behind_signature (hlevel : endsBetweenMembers above = true) (hbraces : Text.braces new = (0, 0))
    (hheader : constructorHeader.accepts (Text.trim new) = true) {below : List Line} {c : ClassDecl}
    (hc : c ∈ classes (above ++ new :: below)) {m : MethodDecl} (hm : m ∈ c.methods)
    (hbehind : above.length ≤ m.startLine) :
    ∃ j, above.length < j ∧ j < m.startLine ∧ returnsTo (above ++ new :: below) 1 j = true := by
  obtain ⟨decl, hread⟩ := exists_of_endsBetweenMembers hlevel
  have habove := read_linesAbove above
  rw [hread] at habove
  rw [classes_between hread, (reads_signature hbraces hheader _ below _).walk_cons, List.nil_append] at hc
  rcases List.mem_append.1 hc with hc | hc
  · -- the classes that are closed above have no method behind
    obtain ⟨d, hd, rfl⟩ := List.mem_map.1 hc
    obtain ⟨a, ha, rfl⟩ := List.mem_map.1 hm
    exact absurd ((habove.closed_above hd).2.methods a ha).1 (Nat.not_lt.2 hbehind)
  have hdepth : 1 = depthAt (above ++ new :: below) (above.length + 1) := by
    have hline : (above ++ new :: below)[above.length]? = some new := by simp
    have hdepth := State.read_depth {} 0 [] above
    rw [hread] at hdepth
    rw [depthAt_succ hline, depthAfter_of_braces hbraces, depthAt, List.take_left, ← hdepth]
  rcases walk_in_constructor (above ++ new :: below) (by simp) hdepth le_rfl hc hm with ⟨a, ha, hstart⟩ | hreturn
  · obtain ⟨b, hb, rfl⟩ := List.mem_map.1 ha
    have hlt := (habove.open_above.methods b hb).1
    rw [← hstart] at hbehind
    exact absurd hlt (Nat.not_lt.2 hbehind)
  · exact hreturn

end Swallowed

/-- Between the members of a class, a line that has no brace and ends with a semicolon moves what lies below it
and changes nothing else. If it is put into parameters that do not close above, then it is read as part of them.
The signature of a constructor opens the constructor instead, and a method behind it starts only behind a closing
brace that returns to the depth of members. -/
theorem bodiless_line_moves (above below : List Line) (new : Line) (hlevel : endsBetweenMembers above = true)
    (hbraces : Text.braces new = (0, 0)) (hsemicolon : (Text.trim new).getLast? = some ';') :
    (constructorHeader.accepts (Text.trim new) = false →
      classes (above ++ new :: below) =
        ((classes (above ++ below)).map (·.insertLine above.length)).map (rereadParams (above ++ new :: below)) ∧
      ((∀ c ∈ classes (above ++ below), ∀ k ∈ c.constructor?, k.startLine < above.length →
          Source.signatureCloses constructorName (above.drop k.startLine) = true) →
        classes (above ++ new :: below) = (classes (above ++ below)).map (·.insertLine above.length))) ∧
    (constructorHeader.accepts (Text.trim new) = true →
      ∀ c ∈ classes (above ++ new :: below), ∀ m ∈ c.methods, above.length ≤ m.startLine →
        ∃ j, above.length < j ∧ j < m.startLine ∧ returnsTo (above ++ new :: below) 1 j = true) := by
  refine ⟨fun hheader => ?_, fun hheader c hc m hm hbehind =>
    methods_behind_signature hlevel hbraces hheader hc hm hbehind⟩
  have hinsert := classes_insert hlevel hbraces hsemicolon hheader below
  refine ⟨hinsert, fun hcloses => ?_⟩
  rw [hinsert, List.map_map]
  exact List.map_congr_left fun c hc => rereadParams_eq hc new (hcloses c hc)

/-- The signature of an overload between a constructor and a method, and that of a constructor above both. -/
theorem bodiless_line_moves_overload :
    let header : Line := "class A \x7b".toList
    let built : List Line := ["  constructor(a: any) \x7b", "    this.a = a;", "  \x7d"].map (·.toList)
    let sized : List Line := ["  size() \x7b", "    return this.n;", "  \x7d", "\x7d"].map (·.toList)
    let overload : Line := "  size(): number;".toList
    let signature : Line := "  constructor(a: string);".toList
    endsBetweenMembers (header :: built) = true ∧
      (classes (header :: built ++ sized)).map (fun c => (c.endLine, c.methods.map (·.startLine))) = [(7, [4])] ∧
      classes (header :: built ++ overload :: sized) = (classes (header :: built ++ sized)).map (·.insertLine 4) ∧
      endsBetweenMembers [header] = true ∧
      ∀ c ∈ classes ([header] ++ signature :: (built ++ sized)), ∀ m ∈ c.methods, 1 ≤ m.startLine →
        ∃ j, 1 < j ∧ j < m.startLine ∧ returnsTo ([header] ++ signature :: (built ++ sized)) 1 j = true := by
  intro header built sized overload signature
  have hlevel : endsBetweenMembers (header :: built) = true := by decide +kernel
  have hlevel' : endsBetweenMembers [header] = true := by decide +kernel
  refine ⟨hlevel, by decide +kernel, ?_, hlevel', ?_⟩
  · exact ((bodiless_line_moves _ sized overload hlevel (by decide +kernel) (by decide +kernel)).1
      (by decide +kernel)).2 (by decide +kernel)
  · exact (bodiless_line_moves _ (built ++ sized) signature hlevel' (by decide +kernel) (by decide +kernel)).2
      (by decide +kernel)

/-- Above the constructor that it is an overload of, a signature is recorded in place of it: with its line and
its parameters. -/
theorem constructor_overload_recorded :
    let above : List Line := ["class A \x7b".toList]
    let new : Line := "  constructor(a: string);".toList
    let below : List Line := ["  constructor(a: any) \x7b", "    this.a = a;", "  \x7d", "\x7d"].map (·.toList)
    endsBetweenMembers above = true ∧ Text.braces new = (0, 0) ∧ (Text.trim new).getLast? = some ';' ∧
      (classes (above ++ new :: below)).map (·.constructor?) = [some ⟨1, 4, ["a: string"]⟩] ∧
      ((classes (above ++ below)).map (·.insertLine above.length)).map (·.constructor?) =
        [some ⟨2, 4, ["a: any"]⟩] := by
  decide +kernel

end Braced

end DesignLint
