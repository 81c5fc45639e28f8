import DesignLint.Proofs.BracedWalk

/-! Where the classes and methods of a brace-delimited source start and end, said by the depth of
its lines alone: classes are the headers at depth zero, and a class or a method ends on the first
line with a closing brace that returns to its depth. The walk gives exactly these. -/

namespace DesignLint.Braced

/-- The depth in front of line `i`, which never goes below zero. -/
def depthAt (lines : List Line) (i : Nat) : Nat :=
  (lines.take i).foldl depthAfter 0

def classAt? (lines : List Line) (i : Nat) : Option String :=
  if depthAt lines i = 0 then
    lines[i]?.bind fun line =>
      (classHeader.match? (Text.trim line)).map fun found => String.ofList found.1.chars
  else none

def returnsTo (lines : List Line) (d j : Nat) : Bool :=
  (lines[j]?.any fun line => 0 < (Text.braces line).2) && depthAt lines (j + 1) ≤ d

def firstFrom (lines : List Line) (test : Nat → Bool) (i : Nat) : Option Nat :=
  (List.range lines.length).find? fun j => i ≤ j && test j

def classEnd (lines : List Line) (i : Nat) : Nat :=
  match firstFrom lines (fun k => (classAt? lines k).isSome) (i + 1),
      firstFrom lines (returnsTo lines 0) i with
  | some k, some j => if k ≤ j then k - 1 else j
  | some k, none => k - 1
  | none, some j => j
  | none, none => lines.length - 1

def methodEnd (lines : List Line) (i : Nat) : Nat :=
  (firstFrom lines (returnsTo lines 1) i).getD (lines.length - 1)

section First

variable {lines : List Line} {test : Nat → Bool} {i j : Nat}

theorem firstFrom_eq_some (hij : i ≤ j) (hj : j < lines.length) (htest : test j = true)
    (hbefore : ∀ k, i ≤ k → k < j → test k = false) : firstFrom lines test i = some j := by
  refine List.find?_range_eq_some.2 ⟨by simp [hij, htest], List.mem_range.2 hj, ?_⟩
  intro k hk
  by_cases hik : i ≤ k
  · simp [hbefore k hik hk]
  · simp [hik]

theorem firstFrom_eq_none (h : ∀ k, i ≤ k → k < lines.length → test k = false) :
    firstFrom lines test i = none := by
  refine List.find?_range_eq_none.2 fun k hk => ?_
  by_cases hik : i ≤ k
  · simp [h k hik hk]
  · simp [hik]

theorem le_of_firstFrom (h : firstFrom lines test i = some j) {stop : Nat}
    (hbefore : ∀ k, i ≤ k → k < stop → test k = false) : stop ≤ j := by
  have hj := (List.find?_range_eq_some.1 h).1
  rw [Bool.and_eq_true, decide_eq_true_eq] at hj
  by_contra hlt
  rw [hbefore j hj.1 (by omega)] at hj
  exact absurd hj.2 (by simp)

end First

section End

variable {lines : List Line} {i j : Nat}

theorem classEnd_of_class {k : Nat} (hik : i < k) (hk : k < lines.length)
    (hclass : (classAt? lines k).isSome = true)
    (hclasses : ∀ a, i < a → a < k → (classAt? lines a).isSome = false)
    (hreturns : ∀ a, i ≤ a → a < k → returnsTo lines 0 a = false) : classEnd lines i = k - 1 := by
  have hnext := firstFrom_eq_some hik hk hclass hclasses
  unfold classEnd
  rw [hnext]
  cases hj : firstFrom lines (returnsTo lines 0) i with
  | none => rfl
  | some j => exact if_pos (le_of_firstFrom hj hreturns)

theorem classEnd_of_return (hij : i ≤ j) (hj : j < lines.length) (hreturn : returnsTo lines 0 j = true)
    (hclasses : ∀ a, i < a → a < j + 1 → (classAt? lines a).isSome = false)
    (hreturns : ∀ a, i ≤ a → a < j → returnsTo lines 0 a = false) : classEnd lines i = j := by
  have hfirst := firstFrom_eq_some hij hj hreturn hreturns
  unfold classEnd
  rw [hfirst]
  cases hk : firstFrom lines (fun k => (classAt? lines k).isSome) (i + 1) with
  | none => rfl
  | some k =>
    have hjk := le_of_firstFrom hk hclasses
    exact if_neg (by omega)

theorem classEnd_of_none (hclasses : ∀ a, i < a → a < lines.length → (classAt? lines a).isSome = false)
    (hreturns : ∀ a, i ≤ a → a < lines.length → returnsTo lines 0 a = false) :
    classEnd lines i = lines.length - 1 := by
  unfold classEnd
  rw [firstFrom_eq_none hreturns, firstFrom_eq_none hclasses]

end End

theorem depthAt_succ {lines : List Line} {i : Nat} {line : Line} (hline : lines[i]? = some line) :
    depthAt lines (i + 1) = depthAfter (depthAt lines i) line := by
  rw [depthAt, List.take_add_one, hline, List.foldl_append]
  rfl

def MethodExtent (lines : List Line) (m : MethodDecl) : Prop :=
  depthAt lines m.startLine = 1 ∧ m.endLine = methodEnd lines m.startLine

/-- What is known of an open class when the lines before `i` are taken and the braces of those before
`r` are counted. -/
structure Pending (lines : List Line) (r i : Nat) (c : OpenClass) : Prop where
  start_lt : c.decl.startLine < i
  returns : ∀ j, c.decl.startLine ≤ j → j < r → returnsTo lines 0 j = false
  classes : ∀ k, c.decl.startLine < k → k < i → (classAt? lines k).isSome = false
  methods : ∀ m ∈ c.decl.methods, MethodExtent lines m
  openMethod : ∀ m, c.member = .method m → depthAt lines m.startLine = 1 ∧ m.startLine < i ∧
    m.endLine + 1 = i ∧ ∀ j, m.startLine ≤ j → j < r → returnsTo lines 1 j = false

section Pending

variable {lines : List Line} {i : Nat} {line : Line} {rest : List Line} {c c' : OpenClass}

theorem Pending.begin (name : List Char) : Pending lines i (i + 1) ⟨.begin name i, .none⟩ := by
  refine ⟨Nat.lt_succ_self i, ?_, ?_, by simp [ClassDecl.begin], by simp⟩
  · intro j h1 h2
    simp only [ClassDecl.begin] at h1
    omega
  · intro k h1 h2
    simp only [ClassDecl.begin] at h1
    omega

theorem Pending.takes (h : Pending lines i i c) (hclass : (classAt? lines i).isSome = false)
    (htake : Takes (depthAt lines i) i line rest c c') : Pending lines i (i + 1) c' := by
  have hclasses : ∀ k, c.decl.startLine < k → k < i + 1 → (classAt? lines k).isSome = false := by
    intro k h1 h2
    rcases Nat.lt_succ_iff_lt_or_eq.1 h2 with h2 | rfl
    · exact h.classes k h1 h2
    · exact hclass
  have hstart := Nat.lt_succ_of_lt h.start_lt
  cases htake with
  | idle => exact ⟨hstart, h.returns, hclasses, h.methods, by simp⟩
  | beginConstructor => exact ⟨hstart, h.returns, hclasses, h.methods, by simp⟩
  | constructor => exact ⟨hstart, h.returns, hclasses, h.methods, by simp⟩
  | beginMethod hdepth =>
    refine ⟨by simpa using hstart, by simpa using h.returns, by simpa using hclasses,
      by simpa using h.methods, ?_⟩
    rintro m ⟨⟩
    refine ⟨by simpa [MethodDecl.begin] using hdepth, by simp [MethodDecl.begin],
      by simp [MethodDecl.begin], ?_⟩
    intro j h1 h2
    simp only [MethodDecl.mention_startLine, MethodDecl.begin] at h1
    omega
  | @method decl m =>
    refine ⟨by simpa using hstart, by simpa using h.returns, by simpa using hclasses,
      by simpa using h.methods, ?_⟩
    rintro a ⟨⟩
    obtain ⟨h1, h2, -, h4⟩ := h.openMethod m rfl
    exact ⟨by simpa using h1, by simpa using Nat.lt_succ_of_lt h2, by simp, by simpa using h4⟩

/-- The braces of the line end nothing. -/
theorem Pending.stay (h : Pending lines i (i + 1) c)
    (hmember : ∀ m, c.member = .method m → returnsTo lines 1 i = false)
    (hclass : returnsTo lines 0 i = false) : Pending lines (i + 1) (i + 1) c := by
  refine ⟨h.start_lt, ?_, h.classes, h.methods, ?_⟩
  · intro j h1 h2
    rcases Nat.lt_succ_iff_lt_or_eq.1 h2 with h2 | rfl
    · exact h.returns j h1 h2
    · exact hclass
  · intro m hm
    obtain ⟨h1, h2, h3, h4⟩ := h.openMethod m hm
    refine ⟨h1, h2, h3, ?_⟩
    intro j h5 h6
    rcases Nat.lt_succ_iff_lt_or_eq.1 h6 with h6 | rfl
    · exact h4 j h5 h6
    · exact hmember m hm

theorem Pending.draft_methods {r : Nat} (h : Pending lines r i c)
    (hend : ∀ m, c.member = .method m → methodEnd lines m.startLine + 1 = i) :
    ∀ m ∈ c.draft.methods, MethodExtent lines m := by
  obtain ⟨decl, member⟩ := c
  cases member with
  | none => exact h.methods
  | constructor => exact h.methods
  | method m =>
    intro a ha
    rcases List.mem_append.1 ha with ha | ha
    · exact h.methods a ha
    · rw [List.mem_singleton.1 ha]
      obtain ⟨h1, -, h3, -⟩ := h.openMethod m rfl
      have h5 := hend m rfl
      exact ⟨h1, by omega⟩

/-- The braces of the line end the open member. -/
theorem Pending.endMember (h : Pending lines i (i + 1) c) (hi : i < lines.length)
    (hmember : returnsTo lines 1 i = true) : ∀ m ∈ c.draft.methods, MethodExtent lines m := by
  refine h.draft_methods fun m hm => ?_
  obtain ⟨-, h2, -, h4⟩ := h.openMethod m hm
  rw [methodEnd, firstFrom_eq_some (Nat.le_of_lt_succ h2) hi hmember h4, Option.getD_some]

/-- At the end of the source the open member ends on the last line. -/
theorem Pending.finish (h : Pending lines lines.length lines.length c) :
    ∀ m ∈ c.draft.methods, MethodExtent lines m := by
  refine h.draft_methods fun m hm => ?_
  obtain ⟨-, h2, -, h4⟩ := h.openMethod m hm
  rw [methodEnd, firstFrom_eq_none h4, Option.getD_none]
  omega

theorem Pending.closeMember {r : Nat} (h : Pending lines r i c)
    (hm : ∀ m ∈ c.draft.methods, MethodExtent lines m) : Pending lines r i c.closeMember := by
  obtain ⟨decl, member⟩ := c
  cases member with
  | none | constructor | method => exact ⟨h.start_lt, h.returns, h.classes, hm, by simp⟩

end Pending

@[simp] theorem OpenClass.draft_startLine (c : OpenClass) : c.draft.startLine = c.decl.startLine := by
  obtain ⟨decl, member⟩ := c
  cases member <;> rfl

def ClassExtent (lines : List Line) (c : ClassDecl) : Prop :=
  c.endLine = classEnd lines c.startLine ∧ ∀ m ∈ c.methods, MethodExtent lines m

def headsBefore (lines : List Line) (i : Nat) : List (Nat × String) :=
  (List.range i).filterMap fun j => (classAt? lines j).map (j, ·)

theorem headsBefore_succ (lines : List Line) (i : Nat) :
    headsBefore lines (i + 1) = headsBefore lines i ++ ((classAt? lines i).map (i, ·)).toList := by
  rw [headsBefore, List.range_succ, List.filterMap_append, headsBefore]
  cases h : classAt? lines i <;> simp [h]

/-- What the walk has found when the lines before `i` are taken and the braces of those before `r` are
counted, with depth `d` at that point. -/
structure Extents (lines : List Line) (r i d : Nat) (done : List ClassDecl)
    (current : Option OpenClass) : Prop where
  -- a member starts at depth one, and whatever leads back to depth zero ends it
  flat : d = 0 → ∀ c ∈ current, c.member = .none
  heads : (done ++ (current.map (·.draft)).toList).map (fun c => (c.startLine, c.name)) =
    headsBefore lines i
  closed : ∀ c ∈ done, ClassExtent lines c
  pending : ∀ c ∈ current, Pending lines r i c

theorem classAt?_of_none {lines : List Line} {i : Nat} {line : Line} (hline : lines[i]? = some line)
    (h : depthAt lines i = 0 → classHeader.match? (Text.trim line) = none) : classAt? lines i = none := by
  unfold classAt?
  split_ifs with hd
  · rw [hline, Option.bind_some, h hd, Option.map_none]
  · rfl

theorem classAt?_of_match {lines : List Line} {i : Nat} {line : Line} {name : Pattern.Taken}
    {left : List Char} (hline : lines[i]? = some line) (hd : depthAt lines i = 0)
    (h : classHeader.match? (Text.trim line) = some (name, left)) :
    classAt? lines i = some (String.ofList name.chars) := by
  rw [classAt?, if_pos hd, hline, Option.bind_some, h, Option.map_some]

theorem Takes.member_none {i : Nat} {line : Line} {rest : List Line} {c c' : OpenClass}
    (h : Takes 0 i line rest c c') (hc : c.member = .none) : c'.member = .none := by
  cases h with
  | idle => rfl
  | beginConstructor hdepth | beginMethod hdepth => exact absurd hdepth (by decide)
  | constructor | method => exact absurd hc (by simp)

theorem map_close_heads (current : Option OpenClass) (last : Nat) :
    (current.toList.map fun c => c.close last).map (fun c => (c.startLine, c.name)) =
      (current.map (·.draft)).toList.map fun c => (c.startLine, c.name) := by
  cases current <;> rfl

section Run

variable {lines : List Line} {i d : Nat} {line : Line} {rest : List Line} {st st' : State}
  {done closed : List ClassDecl} {current : Option OpenClass}

theorem Extents.starts (h : Extents lines i i st.depth done st.current)
    (hdepth : st.depth = depthAt lines i) (hline : lines[i]? = some line)
    (hs : Starts i line rest st closed current) :
    Extents lines i (i + 1) st.depth (done ++ closed) current := by
  cases hs with
  | @begin name left hzero hclass =>
    have hi : i < lines.length := (List.getElem?_eq_some_iff.1 hline).1
    have hat := classAt?_of_match hline (hdepth ▸ hzero) hclass
    refine ⟨?_, ?_, ?_, ?_⟩
    · rintro - c ⟨⟩
      rfl
    · rw [List.map_append, List.map_append, map_close_heads, ← List.map_append, h.heads,
        headsBefore_succ, hat]
      rfl
    · intro a ha
      rcases List.mem_append.1 ha with ha | ha
      · exact h.closed a ha
      · obtain ⟨c, hc, rfl⟩ := List.mem_map.1 ha
        have hc : c ∈ st.current := by simpa using hc
        have hp := h.pending c hc
        have hstart := hp.start_lt
        constructor
        · have hend := classEnd_of_class hstart hi (by simp [hat]) hp.classes hp.returns
          simp only [OpenClass.close_eq, ClassDecl.endAt, OpenClass.draft_startLine, hend]
          omega
        · refine hp.draft_methods fun m hm => ?_
          rw [h.flat hzero c hc] at hm
          exact absurd hm (by simp)
    · rintro c ⟨⟩
      exact .begin _
  | skip hopen hclass =>
    have hat := classAt?_of_none hline (hdepth ▸ hclass)
    refine ⟨by simp, ?_, by simpa using h.closed, by simp⟩
    rw [headsBefore_succ, hat, List.append_nil, ← h.heads, hopen]
    simp
  | @take c c' hopen hclass htake =>
    have hat := classAt?_of_none hline (hdepth ▸ hclass)
    refine ⟨?_, ?_, by simpa using h.closed, ?_⟩
    · rintro hzero d ⟨⟩
      rw [hzero] at htake
      exact htake.member_none (h.flat hzero c hopen)
    · rw [headsBefore_succ, hat, List.append_nil, ← h.heads, hopen]
      simp only [Option.map_some, Option.toList_some, Option.map_none, Option.toList_none,
        List.append_nil, List.map_append, List.map_cons, List.map_nil, htake.startLine, htake.name]
    · rintro d ⟨⟩
      rw [hdepth] at htake
      exact (h.pending c hopen).takes (by simp [hat]) htake

theorem Reads.depth (h : Reads i line rest st closed st') : st'.depth = depthAfter st.depth line := by
  cases h with
  | stay => rfl
  | endMember _ _ hdepth | endClass _ _ hdepth => exact hdepth.symm

theorem returnsTo_eq (hline : lines[i]? = some line) (d : Nat) :
    returnsTo lines d i = (decide (0 < (Text.braces line).2) &&
      decide (depthAfter (depthAt lines i) line ≤ d)) := by
  simp [returnsTo, hline, depthAt_succ hline]

theorem Extents.reads (h : Extents lines i i st.depth done st.current)
    (hdepth : st.depth = depthAt lines i) (hline : lines[i]? = some line)
    (hr : Reads i line rest st closed st') :
    Extents lines (i + 1) (i + 1) st'.depth (done ++ closed) st'.current := by
  have hi : i < lines.length := (List.getElem?_eq_some_iff.1 hline).1
  have h0 := returnsTo_eq hline 0
  have h1 := returnsTo_eq hline 1
  rw [← hdepth] at h0 h1
  cases hr with
  | @stay closed current hstart hstay =>
    have hs := h.starts hdepth hline hstart
    have h0 : returnsTo lines 0 i = false := by
      rw [h0, Bool.and_eq_false_iff, decide_eq_false_iff_not, decide_eq_false_iff_not]
      omega
    have h1 : returnsTo lines 1 i = false := by
      rw [h1, Bool.and_eq_false_iff, decide_eq_false_iff_not, decide_eq_false_iff_not]
      omega
    refine ⟨?_, hs.heads, hs.closed, fun c hc => (hs.pending c hc).stay (fun _ _ => h1) h0⟩
    intro hzero
    refine hs.flat ?_
    simp only [depthAfter] at hzero hstay
    omega
  | @endMember closed current hstart hcloses hone =>
    have hs := h.starts hdepth hline hstart
    have h0 : returnsTo lines 0 i = false := by simp [h0, hone]
    have h1 : returnsTo lines 1 i = true := by simp [h1, hone, hcloses]
    refine ⟨by simp, ?_, hs.closed, ?_⟩
    · rw [← hs.heads, Option.map_map]
      simp [Function.comp_def]
    · intro c hc
      obtain ⟨o, ho, rfl⟩ := Option.map_eq_some_iff.1 hc
      have hp := hs.pending o ho
      exact (hp.closeMember (hp.endMember hi h1)).stay (by simp) h0
  | @endClass closed current hstart hcloses hzero =>
    have hs := h.starts hdepth hline hstart
    have h0 : returnsTo lines 0 i = true := by simp [h0, hzero, hcloses]
    have h1 : returnsTo lines 1 i = true := by simp [h1, hzero, hcloses]
    refine ⟨by simp, ?_, ?_, by simp⟩
    · rw [← hs.heads, ← List.append_assoc, List.map_append, List.map_append, List.map_append,
        List.map_append, map_close_heads]
      simp
    · intro a ha
      rw [← List.append_assoc] at ha
      rcases List.mem_append.1 ha with ha | ha
      · exact hs.closed a ha
      · obtain ⟨c, hc, rfl⟩ := List.mem_map.1 ha
        have hp := hs.pending c (by simpa using hc)
        have hstart := hp.start_lt
        refine ⟨?_, hp.endMember hi h1⟩
        have hend := classEnd_of_return (Nat.le_of_lt_succ hstart) hi h0 hp.classes hp.returns
        simp only [OpenClass.close_eq, ClassDecl.endAt, OpenClass.draft_startLine, hend]
        omega

end Run

/-- The classes are the headers at depth zero, in order, and they and their methods end where the
depth returns to theirs. -/
theorem classes_extents (lines : List Line) :
    (classes lines).map (fun c => (c.startLine, c.name)) =
      ((List.range lines.length).filterMap fun i => (classAt? lines i).map (i, ·)) ∧
    ∀ c ∈ classes lines, c.endLine = classEnd lines c.startLine ∧
      ∀ m ∈ c.methods, depthAt lines m.startLine = 1 ∧ m.endLine = methodEnd lines m.startLine := by
  obtain ⟨done, st, ⟨-, h⟩, hwalk⟩ := walk_run lines
    (I := fun i done st => st.depth = depthAt lines i ∧ Extents lines i i st.depth done st.current)
    ⟨rfl, by simp, rfl, by simp, by simp⟩
    (fun hline hreads h => ⟨hreads.depth.trans (by rw [h.1, depthAt_succ hline]),
      h.2.reads h.1 hline hreads⟩)
  rw [hwalk]
  constructor
  · rw [List.map_append, List.map_map]
    refine Eq.trans ?_ h.heads
    rw [List.map_append]
    rfl
  · intro c hc
    rcases List.mem_append.1 hc with hc | hc
    · exact h.closed c hc
    · obtain ⟨d, hd, rfl⟩ := List.mem_map.1 hc
      obtain ⟨o, ho, rfl⟩ := Option.map_eq_some_iff.1 (show d ∈ st.draft by simpa using hd)
      have hp := h.pending o ho
      have hstart := hp.start_lt
      refine ⟨?_, hp.finish⟩
      have hend := classEnd_of_none hp.classes hp.returns
      simp only [ClassDecl.endAt, OpenClass.draft_startLine, hend]
      omega

end DesignLint.Braced
