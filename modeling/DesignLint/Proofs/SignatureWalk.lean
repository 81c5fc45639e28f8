import DesignLint.Proofs.Signatures
import DesignLint.Proofs.TopLevelBlocks

/-! The walk through the signature of a method. Every recorded method has begun on its header, in the state
that the lines before it give; from there the walk takes the lines of the signature one by one, and behind
it the number of parentheses does not matter any more. -/

namespace DesignLint.Indented

open Source Pattern

section Before

theorem State.read_append (st : State) (i : Nat) (above below : List Line) :
    st.read i (above ++ below) =
      ((st.read i above).1 ++ ((st.read i above).2.read (i + above.length) below).1,
        ((st.read i above).2.read (i + above.length) below).2) := by
  induction above generalizing st i with
  | nil => rfl
  | cons line above ih =>
    simp only [List.cons_append, State.read, ih, List.append_assoc, List.length_cons, Nat.add_assoc,
      Nat.add_comm 1]

def before (lines : List Line) (i : Nat) : List ClassDecl × State := State.outside.read 0 (lines.take i)

variable {lines : List Line} {i : Nat} {line : Line}

theorem before_succ (h : lines[i]? = some line) : before lines (i + 1) =
    ((before lines i).1 ++ ((before lines i).2.step i line).1, ((before lines i).2.step i line).2) := by
  have hlength : (lines.take i).length = i := List.length_take_of_le (List.getElem?_eq_some_iff.1 h).1.le
  rw [before, List.take_add_one, h, Option.toList_some, State.read_append, hlength, Nat.zero_add]
  simp only [State.read, List.append_nil]
  rfl

theorem before_succ_of_none (h : lines[i]? = none) : before lines (i + 1) = before lines i := by
  rw [before, List.take_add_one, h, Option.toList_none, List.append_nil]
  rfl

theorem before_nested (lines : List Line) (i : Nat) : (before lines i).2.Nested := by
  induction i with
  | zero => trivial
  | succ i ih =>
    cases hline : lines[i]? with
    | none =>
      rw [before_succ_of_none hline]
      exact ih
    | some line =>
      rw [before_succ hline]
      exact (State.step_reads ih i line).nested ih

theorem walk_eq_before (lines : List Line) : State.outside.walk 0 lines =
    (before lines lines.length).1 ++ (before lines lines.length).2.close (lines.length - 1) := by
  have hwalk := State.outside.walk_append 0 lines []
  rw [List.append_nil, Nat.zero_add] at hwalk
  rw [hwalk, before, List.take_length]
  rfl

theorem before_layout (lines : List Line) (i : Nat) : Layout i (before lines i).1 (before lines i).2.draft := by
  induction i with
  | zero => exact Layout.start
  | succ i ih =>
    cases hline : lines[i]? with
    | none =>
      rw [before_succ_of_none hline]
      exact ih.mono
    | some line =>
      rw [before_succ hline]
      exact (State.step_reads (before_nested lines i) i line).layout ih

/-- The class that is open behind line `i` goes on to be recorded. -/
theorem exists_recorded {i j : Nat} (hij : i ≤ j) {d : ClassDecl} (hd : (before lines i).2.draft = some d) :
    ∃ e ∈ (before lines j).1 ++ (before lines j).2.draft.toList, d.Grows e := by
  induction j, hij using Nat.le_induction with
  | base => exact ⟨d, by simp [hd], .same rfl rfl⟩
  | succ j hij ih =>
    obtain ⟨e, he, hgrows⟩ := ih
    cases hline : lines[j]? with
    | none =>
      rw [before_succ_of_none hline]
      exact ⟨e, he, hgrows⟩
    | some line =>
      have hreads := State.step_reads (before_nested lines j) j line
      rw [before_succ hline, List.append_assoc]
      rcases List.mem_append.1 he with he | he
      · exact ⟨e, List.mem_append_left _ he, hgrows⟩
      · obtain ⟨e', he', hgrows'⟩ := hreads.grows (before_layout lines j) e (Option.mem_toList.1 he)
        exact ⟨e', List.mem_append_right _ he', hgrows.trans hgrows'⟩

/-- The class that is open somewhere is found in the end, with its methods. -/
theorem exists_grown {i : Nat} (hi : i ≤ lines.length) {d : ClassDecl} (hd : (before lines i).2.draft = some d) :
    ∃ c ∈ classes lines, d.Grows c := by
  obtain ⟨e, he, hgrows⟩ := exists_recorded hi hd
  have hwalk : ∃ e' ∈ State.outside.walk 0 lines, e.Grows e' := by
    rw [walk_eq_before, State.close_eq]
    rcases List.mem_append.1 he with he | he
    · exact ⟨e, List.mem_append_left _ he, .same rfl rfl⟩
    · exact ⟨_, List.mem_append_right _ (List.mem_map_of_mem he), .same rfl rfl⟩
  obtain ⟨e', he', hgrows'⟩ := hwalk
  have hfound : e'.Grows (findConstructor lines e') := .same rfl rfl
  exact ⟨_, mem_classes.2 ⟨e', he', rfl⟩, (hgrows.trans hgrows').trans hfound⟩

end Before

section Begins

/-- Behind the state `st` the line begins a method of the open class `c`. -/
structure Begins (st : State) (line : Line) (c : OpenClass) (name : Taken) : Prop where
  inHeader : st.inHeader = false
  inBody : st.inBody (Text.indent line) = false
  class? : st.class? = some c
  no_class : classHeader.match? (Text.trim line) = none
  deeper : c.indent < Text.indent line
  header : ∃ rest, methodHeader.match? (Text.trim line) = some (name, rest)

variable {lines : List Line} {i : Nat} {line : Line} {st st' : State} {closed : List ClassDecl}

/-- A method is added on the line that begins it, and keeps its first line. -/
theorem Reads.methods {P : Nat → Prop} (h : Reads i line st closed st')
    (hnew : ∀ c name, Begins st line c name → P i)
    (hold : ∀ d ∈ st.draft, ∀ m ∈ d.methods, P m.startLine) :
    (∀ d ∈ closed, ∀ m ∈ d.methods, P m.startLine) ∧ ∀ d ∈ st'.draft, ∀ m ∈ d.methods, P m.startLine := by
  have hclose : ∀ d ∈ st.close (i - 1), ∀ m ∈ d.methods, P m.startLine := by
    intro d hd
    rw [State.close_eq] at hd
    obtain ⟨e, he, rfl⟩ := List.mem_map.1 hd
    exact hold e (Option.mem_toList.1 he)
  have hlast : ∀ {c c' : OpenClass} {m m' : OpenMethod},
      (∀ d ∈ (State.inMethod c m).draft, ∀ m ∈ d.methods, P m.startLine) →
      c'.decl.methods = c.decl.methods → m'.decl.startLine = m.decl.startLine →
      ∀ d ∈ (State.inMethod c' m').draft, ∀ m ∈ d.methods, P m.startLine := by
    rintro c c' m m' hold hc hm d ⟨⟩ a ha
    rcases List.mem_append.1 ha with ha | ha
    · exact hold _ rfl a (List.mem_append_left _ (hc ▸ ha))
    · rw [List.mem_singleton.1 ha, hm]
      exact hold _ rfl m.decl (c.decl.mem_addMethod m.decl)
  cases h with
  | header => exact ⟨by simp, hlast hold rfl rfl⟩
  | blank => exact ⟨by simp, hold⟩
  | begin => exact ⟨hclose, by rintro d ⟨⟩ m hm; cases hm⟩
  | skip => exact ⟨by simp, hold⟩
  | leave => exact ⟨hclose, by rintro d ⟨⟩⟩
  | body => exact ⟨by simp, hlast hold (by simp) (by simp [OpenMethod.extend])⟩
  | method hst hbody hopen hclass hindent hmethod =>
    refine ⟨by simp, ?_⟩
    rintro d ⟨⟩ a ha
    rcases List.mem_append.1 ha with ha | ha
    · exact hold _ (State.draft_of_class? hopen) a ha
    · rw [List.mem_singleton.1 ha]
      exact hnew _ _ ⟨hst, hbody, hopen, hclass, hindent, _, hmethod⟩
  | other hst hline hbody hopen =>
    refine ⟨by simp, ?_⟩
    rintro d ⟨⟩
    exact hold _ (State.draft_of_class? hopen)

/-- Every recorded method has begun on its first line. -/
theorem begins_of_mem {d : ClassDecl} (hd : d ∈ State.outside.walk 0 lines) {m : MethodDecl}
    (hm : m ∈ d.methods) :
    ∃ line c name, lines[m.startLine]? = some line ∧ Begins (before lines m.startLine).2 line c name := by
  suffices run : ∀ i,
      (∀ d ∈ (before lines i).1, ∀ m ∈ d.methods,
        ∃ line c name, lines[m.startLine]? = some line ∧ Begins (before lines m.startLine).2 line c name) ∧
      ∀ d ∈ (before lines i).2.draft, ∀ m ∈ d.methods,
        ∃ line c name, lines[m.startLine]? = some line ∧ Begins (before lines m.startLine).2 line c name by
    obtain ⟨hdone, hdraft⟩ := run lines.length
    rw [walk_eq_before, State.close_eq] at hd
    rcases List.mem_append.1 hd with hd | hd
    · exact hdone d hd m hm
    · obtain ⟨e, he, rfl⟩ := List.mem_map.1 hd
      exact hdraft e (Option.mem_toList.1 he) m hm
  intro i
  induction i with
  | zero => exact ⟨by simp [before, State.read], by simp [before, State.read, State.draft, State.class?]⟩
  | succ i ih =>
    cases hline : lines[i]? with
    | none =>
      rw [before_succ_of_none hline]
      exact ih
    | some line =>
      obtain ⟨hclosed, hdraft⟩ := (State.step_reads (before_nested lines i) i line).methods
        (P := fun i => ∃ line c name, lines[i]? = some line ∧ Begins (before lines i).2 line c name)
        (fun c name hbegins => ⟨line, c, name, hline, hbegins⟩) ih.2
      rw [before_succ hline]
      exact ⟨List.forall_mem_append.2 ⟨ih.1, hclosed⟩, hdraft⟩

end Begins

section Rows

def OpenMethod.headerTo (m : OpenMethod) (last : Nat) (parens : Int) : OpenMethod :=
  { m with decl := { m.decl with headerEnd := last, endLine := last }, openParens := parens }

/-- While parentheses are open, the lines belong to the signature. -/
theorem walk_rows (c : OpenClass) (m : OpenMethod) {rows : List Line} {parens : Int}
    (hopen : ∀ n < rows.length, 0 < openIn parens (rows.take n)) (rest : List Line) (last : Nat) :
    (State.inMethod c (m.headerTo last parens)).walk (last + 1) (rows ++ rest) =
      (State.inMethod c (m.headerTo (last + rows.length) (openIn parens rows))).walk
        (last + rows.length + 1) rest := by
  induction rows generalizing last parens with
  | nil => rw [openIn_nil]; rfl
  | cons row rows ih =>
    have hparens : 0 < parens := by simpa using hopen 0 (Nat.succ_pos _)
    have hrows : ∀ n < rows.length, 0 < openIn (parens + parenBalance row) (rows.take n) := by
      intro n hn
      have hnext := hopen (n + 1) (Nat.succ_lt_succ hn)
      rwa [List.take_succ_cons, openIn_cons] at hnext
    have hstep : (State.inMethod c (m.headerTo last parens)).step (last + 1) row =
        ([], .inMethod c (m.headerTo (last + 1) (parens + parenBalance row))) := by
      simp [State.step, State.inHeader, OpenMethod.headerTo, OpenMethod.extendHeader, hparens]
    rw [List.cons_append, State.walk_cons, hstep, List.nil_append, ih hrows, openIn_cons, List.length_cons,
      Nat.add_assoc last 1, Nat.add_comm 1]

/-- Behind the signature it does not matter how many parentheses were closed in excess. -/
theorem walk_settled (c : OpenClass) (m : OpenMethod) {parens : Int} (h : parens ≤ 0) (i : Nat)
    (lines : List Line) :
    (State.inMethod c { m with openParens := parens }).walk i lines =
      (State.inMethod c { m with openParens := 0 }).walk i lines := by
  induction lines generalizing c m i with
  | nil => rfl
  | cons line lines ih =>
    have hheader : ∀ {p : Int}, p ≤ 0 → (State.inMethod c { m with openParens := p }).inHeader = false :=
      fun hp => decide_eq_false (not_lt.2 hp)
    have hbody : ∀ p, (State.inMethod c { m with openParens := p }).inBody (Text.indent line) =
        decide (m.indent < Text.indent line) := fun _ => rfl
    rw [State.walk_cons, State.walk_cons]
    by_cases hblank : (Text.trim line).isEmpty
    · simp only [State.step, hheader h, hheader le_rfl, hblank, if_true, Bool.false_eq_true, if_false]
      exact congrArg _ (ih c m (i + 1))
    simp only [State.step, hheader h, hheader le_rfl, hblank, hbody, Bool.false_eq_true, if_false]
    cases (if decide (m.indent < Text.indent line) = true then none
        else classHeader.match? (Text.trim line)) with
    | some found => rfl
    | none =>
      by_cases hleave : Text.indent line ≤ c.indent
      · simp only [hleave, if_true]
        rfl
      by_cases hdeep : m.indent < Text.indent line
      · simp only [hleave, hdeep, decide_true, if_true, if_false]
        exact congrArg _
          (ih { c with decl := c.decl.mention (references line) } (m.extend i (references line)) (i + 1))
      · simp only [hleave, hdeep, decide_false, Bool.false_eq_true, if_false]
        rfl

/-- The walk over a source with a signature from line `start` to line `last`. -/
theorem walk_signature {lines : List Line} {start last : Nat} {line : Line} (hline : lines[start]? = some line)
    {c : OpenClass} {name : Taken} (hbegins : Begins (before lines start).2 line c name) (hle : start ≤ last)
    (hlast : last < lines.length) (hopen : ∀ n, start + n < last → 0 < openAfter lines start n) :
    State.outside.walk 0 lines = (before lines start).1 ++
      (State.inMethod c ((OpenMethod.begin name.chars start line).headerTo last
        (openAfter lines start (last - start)))).walk (last + 1) (lines.drop (last + 1)) := by
  obtain ⟨hlt, rfl⟩ := List.getElem?_eq_some_iff.1 hline
  have hsplit : lines = lines.take start ++ lines[start] ::
      ((lines.drop (start + 1)).take (last - start) ++ lines.drop (last + 1)) := by
    have hdrop : lines.drop (last + 1) = (lines.drop (start + 1)).drop (last - start) := by
      rw [List.drop_drop]
      congr 1
      omega
    rw [hdrop, List.take_append_drop, ← List.drop_eq_getElem_cons hlt, List.take_append_drop]
  have hlength : ((lines.drop (start + 1)).take (last - start)).length = last - start := by
    rw [List.length_take, List.length_drop]
    omega
  have hprefix : (lines.take start).length = start := List.length_take_of_le hlt.le
  obtain ⟨rest, hheader⟩ := hbegins.header
  have hreads : Reads start lines[start] (before lines start).2 _ _ :=
    .method hbegins.inHeader hbegins.inBody hbegins.class? hbegins.no_class hbegins.deeper hheader
  have hne : Text.trim lines[start] ≠ [] := by
    intro hnil
    rw [hnil] at hheader
    cases hheader
  have hcount : ∀ n < ((lines.drop (start + 1)).take (last - start)).length,
      0 < openIn (max 0 (parenBalance lines[start]))
        (((lines.drop (start + 1)).take (last - start)).take n) := by
    intro n hn
    rw [hlength] at hn
    rw [List.take_take, min_eq_left hn.le, ← openAfter_eq hline]
    exact hopen n (by omega)
  have hrows := walk_rows c (OpenMethod.begin name.chars start lines[start]) hcount
    (lines.drop (last + 1)) start
  rw [hlength, ← openAfter_eq hline, Nat.add_sub_cancel' hle] at hrows
  calc State.outside.walk 0 lines
    _ = State.outside.walk 0 (lines.take start ++ lines[start] ::
          ((lines.drop (start + 1)).take (last - start) ++ lines.drop (last + 1))) := congrArg _ hsplit
    _ = (before lines start).1 ++ (before lines start).2.walk start (lines[start] ::
          ((lines.drop (start + 1)).take (last - start) ++ lines.drop (last + 1))) := by
      rw [State.walk_append, hprefix, Nat.zero_add]
      rfl
    _ = _ := by
      rw [hreads.walk_cons (before_nested lines start) hne, List.nil_append]
      exact congrArg _ hrows

end Rows

end DesignLint.Indented
