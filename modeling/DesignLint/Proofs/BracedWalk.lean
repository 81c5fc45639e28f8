import DesignLint.Braced.Walk
import DesignLint.Proofs.Spans

/-! The walk over a brace-delimited source, line by line. A line first starts a class or is taken by
the open one, then its braces may end the open member and the open class. `Takes`, `Starts` and
`Reads` say once what can happen; the layout of the spans is kept by each of them. -/

namespace DesignLint.Braced

@[simp] theorem OpenClass.closeMember_closeMember (c : OpenClass) :
    c.closeMember.closeMember = c.closeMember := by
  obtain ⟨decl, member⟩ := c
  cases member <;> rfl

@[simp] theorem OpenClass.closeMember_member (c : OpenClass) : c.closeMember.member = .none := by
  obtain ⟨decl, member⟩ := c
  cases member <;> rfl

def OpenClass.draft (c : OpenClass) : ClassDecl := c.closeMember.decl

def State.draft (st : State) : Option ClassDecl := st.current.map (·.draft)

theorem OpenClass.close_eq (c : OpenClass) (last : Nat) : c.close last = c.draft.endAt last := rfl

@[simp] theorem OpenClass.draft_closeMember (c : OpenClass) : c.closeMember.draft = c.draft := by
  simp [OpenClass.draft]

/-- What line `i`, at this depth, does to an open class that goes on. -/
inductive Takes (depth i : Nat) (line : Line) (rest : List Line) : OpenClass → OpenClass → Prop
  | idle {decl : ClassDecl} (hline : depth = 1 → startsMethod? line = none ∧
      constructorHeader.accepts (Text.trim line) = false) :
      Takes depth i line rest ⟨decl, .none⟩ ⟨decl, .none⟩
  | beginConstructor {decl : ClassDecl} (hdepth : depth = 1)
      (hline : constructorHeader.accepts (Text.trim line) = true) :
      Takes depth i line rest ⟨decl, .none⟩
        ⟨{ decl with constructor? := some ⟨i, i, constructorParams line rest⟩ }, .constructor⟩
  | beginMethod {decl : ClassDecl} {name : List Char} (hdepth : depth = 1)
      (hconstructor : constructorHeader.accepts (Text.trim line) = false)
      (hline : startsMethod? line = some name) :
      Takes depth i line rest ⟨decl, .none⟩
        ⟨decl.mention (references line),
          .method ((MethodDecl.begin name i).mention (references line))⟩
  | constructor {decl : ClassDecl} :
      Takes depth i line rest ⟨decl, .constructor⟩
        ⟨{ decl with constructor? := decl.constructor?.map fun k => { k with endLine := i } },
          .constructor⟩
  | method {decl : ClassDecl} {m : MethodDecl} :
      Takes depth i line rest ⟨decl, .method m⟩
        ⟨decl.mention (references line),
          .method ({ m with endLine := i }.mention (references line))⟩

theorem OpenClass.takes (c : OpenClass) (depth i : Nat) (line : Line) (rest : List Line) :
    Takes depth i line rest c ((c.enterAt depth i line rest).extend i line) := by
  obtain ⟨decl, member⟩ := c
  cases member with
  | constructor => exact .constructor
  | method m => exact .method
  | none =>
    simp only [OpenClass.enterAt]
    split_ifs with hdepth
    · unfold OpenClass.enter
      split_ifs with hc
      · exact .beginConstructor hdepth hc
      · have hc : constructorHeader.accepts (Text.trim line) = false := by simpa using hc
        split
        next name hname => exact .beginMethod hdepth hc hname
        next hname => exact .idle fun _ => ⟨hname, hc⟩
    · exact .idle fun h => absurd h hdepth

/-- What line `i` starts or goes on with: the classes it closes and the open class before its braces
are counted. -/
inductive Starts (i : Nat) (line : Line) (rest : List Line) (st : State) :
    List ClassDecl → Option OpenClass → Prop
  | begin {name : Pattern.Taken} {left : List Char} (hdepth : st.depth = 0)
      (hclass : classHeader.match? (Text.trim line) = some (name, left)) :
      Starts i line rest st (st.current.toList.map fun c => c.close (i - 1))
        (some ⟨.begin name.chars i, .none⟩)
  | skip (hopen : st.current = none)
      (hclass : st.depth = 0 → classHeader.match? (Text.trim line) = none) :
      Starts i line rest st [] none
  | take {c c' : OpenClass} (hopen : st.current = some c)
      (hclass : st.depth = 0 → classHeader.match? (Text.trim line) = none)
      (htake : Takes st.depth i line rest c c') :
      Starts i line rest st [] (some c')

theorem State.starts (st : State) (i : Nat) (line : Line) (rest : List Line) :
    Starts i line rest st (st.start i line rest).1
      ((st.start i line rest).2.map fun c => c.extend i line) := by
  unfold State.start
  split
  next name left hclass =>
    have hdepth : st.depth = 0 := by
      by_contra hd
      simp [hd] at hclass
    exact .begin hdepth (by simpa [hdepth] using hclass)
  next hclass =>
    have hclass : st.depth = 0 → classHeader.match? (Text.trim line) = none := by
      intro hd
      simpa [hd] using hclass
    cases hopen : st.current with
    | none => exact .skip hopen hclass
    | some c => exact .take hopen hclass (c.takes st.depth i line rest)

def depthAfter (d : Nat) (line : Line) : Nat :=
  d + (Text.braces line).1 - (Text.braces line).2

inductive Reads (i : Nat) (line : Line) (rest : List Line) (st : State) :
    List ClassDecl → State → Prop
  | stay {closed : List ClassDecl} {current : Option OpenClass}
      (hstart : Starts i line rest st closed current)
      (hdepth : (Text.braces line).2 = 0 ∨ 1 < depthAfter st.depth line) :
      Reads i line rest st closed ⟨depthAfter st.depth line, current⟩
  /-- A closing brace returns to the depth of members. -/
  | endMember {closed : List ClassDecl} {current : Option OpenClass}
      (hstart : Starts i line rest st closed current) (hcloses : 0 < (Text.braces line).2)
      (hdepth : depthAfter st.depth line = 1) :
      Reads i line rest st closed ⟨1, current.map fun c => c.closeMember⟩
  /-- A closing brace returns to the depth of classes. -/
  | endClass {closed : List ClassDecl} {current : Option OpenClass}
      (hstart : Starts i line rest st closed current) (hcloses : 0 < (Text.braces line).2)
      (hdepth : depthAfter st.depth line = 0) :
      Reads i line rest st (closed ++ current.toList.map fun c => c.close i) ⟨0, none⟩

/-- Every step is one of the moves. -/
theorem State.step_reads (st : State) (i : Nat) (line : Line) (rest : List Line) :
    Reads i line rest st (st.step i line rest).1 (st.step i line rest).2 := by
  have hstart := st.starts i line rest
  have hd : depthAfter st.depth line = st.depth + (Text.braces line).1 - (Text.braces line).2 := rfl
  simp only [State.step, ← hd]
  split_ifs with hstay hzero
  · exact .stay hstart hstay
  · have hcurrent : (((st.start i line rest).2.map fun c => c.extend i line).map
        fun c => c.closeMember).toList.map (fun c => c.close i) =
        ((st.start i line rest).2.map fun c => c.extend i line).toList.map fun c => c.close i := by
      cases (st.start i line rest).2 with
      | none => rfl
      | some c => simp [OpenClass.close]
    rw [hcurrent]
    exact .endClass hstart (by omega) hzero
  · have hone : depthAfter st.depth line = 1 := by omega
    rw [hone]
    exact .endMember hstart (by omega) hone

theorem Takes.eq {depth i : Nat} {line : Line} {rest : List Line} {c c' : OpenClass}
    (h : Takes depth i line rest c c') : (c.enterAt depth i line rest).extend i line = c' := by
  cases h with
  | idle hline =>
    by_cases hdepth : depth = 1
    · obtain ⟨hmethod, hconstructor⟩ := hline hdepth
      simp [OpenClass.enterAt, hdepth, OpenClass.enter, hconstructor, hmethod, OpenClass.extend]
    · simp [OpenClass.enterAt, hdepth, OpenClass.extend]
  | beginConstructor hdepth hline => simp [OpenClass.enterAt, hdepth, OpenClass.enter, hline, OpenClass.extend]
  | beginMethod hdepth hconstructor hline =>
    simp [OpenClass.enterAt, hdepth, OpenClass.enter, hconstructor, hline, OpenClass.extend, MethodDecl.begin]
  | constructor | method => rfl

theorem Starts.eq {i : Nat} {line : Line} {rest : List Line} {st : State} {closed : List ClassDecl}
    {current : Option OpenClass} (h : Starts i line rest st closed current) :
    (st.start i line rest).1 = closed ∧ ((st.start i line rest).2.map fun c => c.extend i line) = current := by
  cases h with
  | begin hdepth hclass => simp [State.start, hdepth, hclass, OpenClass.extend]
  | skip hopen hclass =>
    have hclass : (if st.depth = 0 then classHeader.match? (Text.trim line) else none) = none := by simpa using hclass
    simp [State.start, hclass, hopen]
  | take hopen hclass htake =>
    have hclass : (if st.depth = 0 then classHeader.match? (Text.trim line) else none) = none := by simpa using hclass
    simp [State.start, hclass, hopen, htake.eq]

/-- The move tells the state behind the line. -/
theorem Reads.step_eq {i : Nat} {line : Line} {rest : List Line} {st st' : State} {closed : List ClassDecl}
    (h : Reads i line rest st closed st') : st.step i line rest = (closed, st') := by
  have hd : depthAfter st.depth line = st.depth + (Text.braces line).1 - (Text.braces line).2 := rfl
  simp only [State.step, ← hd]
  cases h with
  | stay hstart hdepth =>
    obtain ⟨rfl, rfl⟩ := hstart.eq
    rw [if_pos hdepth]
  | endMember hstart hcloses hdepth =>
    obtain ⟨rfl, rfl⟩ := hstart.eq
    rw [if_neg (by omega), if_neg (by omega), hdepth]
  | endClass hstart hcloses hdepth =>
    obtain ⟨rfl, rfl⟩ := hstart.eq
    rw [if_neg (by omega), if_pos hdepth]
    cases (st.start i line rest).2 with
    | none => rfl
    | some c => simp [OpenClass.close]

theorem Reads.walk_cons {i : Nat} {line : Line} {rest : List Line} {st st' : State} {closed : List ClassDecl}
    (h : Reads i line rest st closed st') : st.walk i (line :: rest) = closed ++ st'.walk (i + 1) rest := by
  rw [State.walk, h.step_eq]

/-- What holds at the start and is kept by every line holds at the end. -/
theorem walk_run (lines : List Line) {I : Nat → List ClassDecl → State → Prop} (start : I 0 [] {})
    (step : ∀ {i line done st closed st'}, lines[i]? = some line →
      Reads i line (lines.drop (i + 1)) st closed st' → I i done st → I (i + 1) (done ++ closed) st') :
    ∃ done st, I lines.length done st ∧
      classes lines = done ++ st.draft.toList.map fun c => c.endAt (lines.length - 1) := by
  suffices run : ∀ (rest : List Line) (i : Nat) (done : List ClassDecl) (st : State),
      lines.drop i = rest → i + rest.length = lines.length → I i done st →
      ∃ done' st', I lines.length done' st' ∧
        done ++ st.walk i rest = done' ++ st'.draft.toList.map fun c => c.endAt (lines.length - 1) from
    run lines 0 [] {} rfl (Nat.zero_add _) start
  intro rest
  induction rest with
  | nil =>
    intro i done st _ hi hI
    obtain rfl : i = lines.length := by simpa using hi
    refine ⟨done, st, hI, ?_⟩
    cases hc : st.current with
    | none => simp [State.walk, State.draft, hc]
    | some c => simp [State.walk, State.draft, hc, OpenClass.close_eq]
  | cons line rest ih =>
    intro i done st hrest hi hI
    obtain ⟨hline, hnext⟩ := of_drop_eq_cons hrest
    have hreads := st.step_reads i line rest
    obtain ⟨done', st', hI', hwalk⟩ := ih (i + 1) _ _ hnext
      (by rw [List.length_cons] at hi; omega) (step hline (hnext ▸ hreads) hI)
    rw [hnext] at hwalk
    exact ⟨done', st', hI', by rw [← hwalk, State.walk, List.append_assoc]⟩

section Layout

variable {depth i : Nat} {line : Line} {rest : List Line} {c c' : OpenClass}

theorem Takes.startLine (h : Takes depth i line rest c c') :
    c'.draft.startLine = c.draft.startLine := by
  cases h with
  | beginMethod | method =>
    simp [OpenClass.draft, OpenClass.closeMember, ClassDecl.addMethod]
  | idle | beginConstructor | constructor => rfl

theorem Takes.name (h : Takes depth i line rest c c') : c'.draft.name = c.draft.name := by
  cases h with
  | beginMethod | method =>
    simp [OpenClass.draft, OpenClass.closeMember, ClassDecl.addMethod]
  | idle | beginConstructor | constructor => rfl

/-- The line is laid out into the open class. -/
theorem Takes.laid (h : Takes depth i line rest c c') (hl : c.draft.Laid i) :
    c'.draft.Laid (i + 1) := by
  cases h with
  | idle => exact hl.mono (Nat.le_succ i)
  | beginConstructor => exact (hl.mono (Nat.le_succ i)).congr rfl rfl rfl
  | constructor => exact (hl.mono (Nat.le_succ i)).congr rfl rfl rfl
  | @beginMethod decl name =>
    refine (ClassDecl.Laid.addMethod_begin hl name).extend (references line) le_rfl ?_ ?_ ?_ ?_ ?_
    · simp
    · simp
    · simp [MethodDecl.begin]
    · simp [MethodDecl.begin]
    · intro v
      exact MethodDecl.mem_mention_usedVariables
  | @method decl m =>
    have hl : (decl.addMethod m).Laid i := hl
    obtain ⟨-, -, hb, he⟩ := hl.last
    refine hl.extend (references line) (Nat.le_succ i) ?_ ?_ ?_ ?_ ?_
    · simp
    · simp
    · simp only [MethodDecl.mention_headerEnd, MethodDecl.mention_endLine]; omega
    · simp
    · intro v
      exact MethodDecl.mem_mention_usedVariables

/-- The constructor lies behind the header of the class and apart from its methods; while it is open
it lies behind them all, and an open method lies behind it. -/
structure OpenClass.Placed (c : OpenClass) (stop : Nat) : Prop where
  bounds : ∀ k ∈ c.decl.constructor?, c.decl.startLine < k.startLine ∧ k.startLine ≤ k.endLine ∧
    k.endLine < stop
  apart : ∀ k ∈ c.decl.constructor?, ∀ m ∈ c.decl.methods,
    k.endLine < m.startLine ∨ m.endLine < k.startLine
  openConstructor : c.member = .constructor → ∀ k ∈ c.decl.constructor?, ∀ m ∈ c.decl.methods,
    m.endLine < k.startLine
  openMethod : ∀ m, c.member = .method m → ∀ k ∈ c.decl.constructor?, k.endLine < m.startLine

theorem Takes.placed (h : Takes depth i line rest c c') (hl : c.draft.Laid i) (hp : c.Placed i) :
    c'.Placed (i + 1) := by
  cases h with
  | idle =>
    refine ⟨fun k hk => ?_, hp.apart, by simp, by simp⟩
    obtain ⟨h1, h2, h3⟩ := hp.bounds k hk
    exact ⟨h1, h2, Nat.lt_succ_of_lt h3⟩
  | beginConstructor =>
    -- the methods of the class end before this line
    refine ⟨?_, ?_, ?_, by simp⟩
    · rintro k ⟨⟩
      exact ⟨hl.start_lt, le_rfl, Nat.lt_succ_self i⟩
    · rintro k ⟨⟩ m hm
      exact Or.inr (hl.methods m hm).2.2.2
    · rintro - k ⟨⟩ m hm
      exact (hl.methods m hm).2.2.2
  | constructor =>
    refine ⟨?_, ?_, ?_, by simp⟩
    · intro k hk
      obtain ⟨k, hk', rfl⟩ := Option.map_eq_some_iff.1 hk
      obtain ⟨h1, h2, h3⟩ := hp.bounds k hk'
      exact ⟨h1, by dsimp only; omega, Nat.lt_succ_self i⟩
    · intro k hk m hm
      obtain ⟨k, hk', rfl⟩ := Option.map_eq_some_iff.1 hk
      exact Or.inr (hp.openConstructor rfl k hk' m hm)
    · intro _ k hk m hm
      obtain ⟨k, hk', rfl⟩ := Option.map_eq_some_iff.1 hk
      exact hp.openConstructor rfl k hk' m hm
  | beginMethod =>
    refine ⟨?_, ?_, by simp, ?_⟩
    · intro k hk
      rw [ClassDecl.mention_constructor?] at hk
      obtain ⟨h1, h2, h3⟩ := hp.bounds k hk
      exact ⟨by simpa using h1, h2, Nat.lt_succ_of_lt h3⟩
    · simpa using hp.apart
    · rintro m ⟨⟩ k hk
      rw [ClassDecl.mention_constructor?] at hk
      simpa [MethodDecl.begin] using (hp.bounds k hk).2.2
  | @method decl m =>
    refine ⟨?_, ?_, by simp, ?_⟩
    · intro k hk
      rw [ClassDecl.mention_constructor?] at hk
      obtain ⟨h1, h2, h3⟩ := hp.bounds k hk
      exact ⟨by simpa using h1, h2, Nat.lt_succ_of_lt h3⟩
    · simpa using hp.apart
    · rintro a ⟨⟩ k hk
      rw [ClassDecl.mention_constructor?] at hk
      simpa using hp.openMethod m rfl k hk

theorem OpenClass.Placed.closeMember {stop : Nat} (hp : c.Placed stop) : c.closeMember.Placed stop := by
  obtain ⟨decl, member⟩ := c
  cases member with
  | none => exact ⟨hp.bounds, hp.apart, by simp, by simp⟩
  | constructor => exact ⟨hp.bounds, hp.apart, by simp, by simp⟩
  | method m =>
    refine ⟨hp.bounds, ?_, by simp, by simp⟩
    intro k hk a ha
    rcases List.mem_append.1 ha with ha | ha
    · exact hp.apart k hk a ha
    · rw [List.mem_singleton.1 ha]
      exact Or.inl (hp.openMethod m rfl k hk)

theorem OpenClass.Placed.begin (name : List Char) : (OpenClass.mk (.begin name i) .none).Placed (i + 1) :=
  ⟨by simp [ClassDecl.begin], by simp [ClassDecl.begin], by simp, by simp⟩

end Layout

structure ConstructorPlaced (c : ClassDecl) : Prop where
  bounds : ∀ k ∈ c.constructor?, c.startLine < k.startLine ∧ k.startLine ≤ k.endLine ∧
    k.endLine ≤ c.endLine
  apart : ∀ k ∈ c.constructor?, ∀ m ∈ c.methods, k.endLine < m.startLine ∨ m.endLine < k.startLine

theorem OpenClass.Placed.close {c : OpenClass} {stop : Nat} (hp : c.Placed stop)
    (hl : c.draft.Laid stop) : ConstructorPlaced (c.draft.endAt (stop - 1)) := by
  have hp := hp.closeMember
  have hs := hl.start_lt
  refine ⟨?_, hp.apart⟩
  intro k hk
  obtain ⟨h1, h2, h3⟩ := hp.bounds k hk
  refine ⟨h1, h2, ?_⟩
  simp only [ClassDecl.endAt]
  omega

structure Spans (i : Nat) (done : List ClassDecl) (current : Option OpenClass) : Prop where
  layout : Layout i done (current.map (·.draft))
  closed : ∀ c ∈ done, ConstructorPlaced c
  placed : ∀ c ∈ current, c.Placed i

namespace Spans

variable {i : Nat} {line : Line} {rest : List Line} {done closed : List ClassDecl}
  {current : Option OpenClass} {st st' : State}

theorem close (h : Spans i done current) :
    Spans i (done ++ current.toList.map fun c => c.close (i - 1)) none := by
  cases current with
  | none => simpa using h
  | some c =>
    refine ⟨h.layout.close, ?_, by simp⟩
    intro a ha
    rcases List.mem_append.1 ha with ha | ha
    · exact h.closed a ha
    · rw [List.mem_singleton.1 ha]
      exact (h.placed c rfl).close (h.layout.laid _ rfl)

theorem starts (h : Spans i done st.current) (hs : Starts i line rest st closed current) :
    Spans (i + 1) (done ++ closed) current := by
  cases hs with
  | begin =>
    refine ⟨h.close.layout.begin _, h.close.closed, ?_⟩
    rintro c ⟨⟩
    exact .begin _
  | skip hopen =>
    rw [hopen] at h
    rw [List.append_nil]
    exact ⟨h.layout.mono, h.closed, by simp⟩
  | take hopen hclass htake =>
    rw [hopen] at h
    have hl := h.layout.laid _ rfl
    rw [List.append_nil]
    refine ⟨h.layout.grow htake.startLine (htake.laid hl), h.closed, ?_⟩
    rintro c ⟨⟩
    exact htake.placed hl (h.placed _ rfl)

theorem endMember (h : Spans i done current) : Spans i done (current.map fun c => c.closeMember) := by
  cases current with
  | none => exact h
  | some c =>
    refine ⟨by simpa using h.layout, h.closed, ?_⟩
    rintro d ⟨⟩
    exact (h.placed c rfl).closeMember

theorem reads (h : Spans i done st.current) (hr : Reads i line rest st closed st') :
    Spans (i + 1) (done ++ closed) st'.current := by
  cases hr with
  | stay hstart => exact h.starts hstart
  | endMember hstart => exact (h.starts hstart).endMember
  | endClass hstart =>
    rw [← List.append_assoc]
    exact (h.starts hstart).close

end Spans

theorem classes_spans (lines : List Line) : Spans lines.length (classes lines) none := by
  obtain ⟨done, st, hs, hwalk⟩ := walk_run lines (I := fun i done st => Spans i done st.current)
    ⟨Layout.start, by simp, by simp⟩ (fun _ hreads hs => hs.reads hreads)
  have hclose := hs.close
  rw [hwalk]
  cases hc : st.current with
  | none => simpa [State.draft, hc] using hclose
  | some c => simpa [State.draft, hc, OpenClass.close_eq] using hclose

theorem classes_ordered (lines : List Line) :
    (classes lines).Pairwise fun a b => a.endLine < b.startLine :=
  (classes_spans lines).layout.ordered

theorem classes_wellFormed {lines : List Line} {c : ClassDecl} (hc : c ∈ classes lines) :
    c.WellFormed lines.length := by
  obtain ⟨hlaid, hend⟩ := (classes_spans lines).layout.closed c hc
  exact hlaid.wellFormed hend ((classes_spans lines).closed c hc).bounds

end DesignLint.Braced
