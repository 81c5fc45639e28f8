import DesignLint.Proofs.IndentedWalk

/-! The declarations of an indentation-delimited source. The walk invents none: classes and methods
start on their headers and have the names found there. It loses none: the header of a class starts
a class unless it lies inside a method, and so does the header of a method inside a class. -/

namespace DesignLint

def Heads (header : Pattern Pattern.Taken) (lines : List Line) (i : Nat) (name : String) : Prop :=
  ∃ line ∈ lines[i]?, ∃ found ∈ header.match? (Text.trim line),
    String.ofList found.1.chars = name

theorem Heads.lt_length {header : Pattern Pattern.Taken} {lines : List Line} {i : Nat} {name : String}
    (h : Heads header lines i name) : i < lines.length := by
  obtain ⟨line, hline, -⟩ := h
  exact (List.getElem?_eq_some_iff.1 hline).1

theorem Heads.unique {header : Pattern Pattern.Taken} {lines : List Line} {i : Nat} {a b : String}
    (ha : Heads header lines i a) (hb : Heads header lines i b) : a = b := by
  obtain ⟨line, hline, found, hfound, rfl⟩ := ha
  obtain ⟨line', hline', found', hfound', rfl⟩ := hb
  obtain rfl : line = line' := Option.mem_unique hline hline'
  obtain rfl : found = found' := Option.mem_unique hfound hfound'
  rfl

theorem heads_of_match {header : Pattern Pattern.Taken} {lines : List Line} {i : Nat} {line : Line}
    {taken : Pattern.Taken} {rest : List Char} (hline : lines[i]? = some line)
    (hm : header.match? (Text.trim line) = some (taken, rest)) :
    Heads header lines i (String.ofList taken.chars) :=
  ⟨line, hline, (taken, rest), hm, rfl⟩

theorem not_heads_of_none {header : Pattern Pattern.Taken} {lines : List Line} {i : Nat} {line : Line}
    {name : String} (hline : lines[i]? = some line) (hm : header.match? (Text.trim line) = none) :
    ¬ Heads header lines i name := by
  rintro ⟨line', hline', found, hfound, -⟩
  obtain rfl : line = line' := Option.some.inj (hline.symm.trans hline')
  rw [hm] at hfound
  exact absurd hfound (Option.not_mem_none found)

/-- The class goes on as `c'`: it keeps its header, and none of its methods gets shorter. -/
structure ClassDecl.Grows (c c' : ClassDecl) : Prop where
  start : c'.startLine = c.startLine
  methods : ∀ m ∈ c.methods, ∃ m' ∈ c'.methods, m'.startLine = m.startLine ∧ m.endLine ≤ m'.endLine

theorem ClassDecl.Grows.same {c c' : ClassDecl} (hs : c'.startLine = c.startLine)
    (hm : c'.methods = c.methods) : c.Grows c' :=
  ⟨hs, fun m hmem => ⟨m, hm ▸ hmem, rfl, le_rfl⟩⟩

theorem ClassDecl.Grows.addMethod (c : ClassDecl) (m : MethodDecl) : c.Grows (c.addMethod m) :=
  ⟨rfl, fun a ha => ⟨a, List.mem_append_left _ ha, rfl, le_rfl⟩⟩

theorem ClassDecl.Grows.last {c c' : ClassDecl} {m m' : MethodDecl} (hs : c'.startLine = c.startLine)
    (hc : c'.methods = c.methods) (hstart : m'.startLine = m.startLine) (hend : m.endLine ≤ m'.endLine) :
    (c.addMethod m).Grows (c'.addMethod m') := by
  refine ⟨hs, fun a ha => ?_⟩
  rcases List.mem_append.1 ha with ha | ha
  · exact ⟨a, List.mem_append_left _ (hc ▸ ha), rfl, le_rfl⟩
  · rw [List.mem_singleton.1 ha]
    exact ⟨m', c'.mem_addMethod m', hstart, hend⟩

theorem ClassDecl.Grows.trans {a b c : ClassDecl} (hab : a.Grows b) (hbc : b.Grows c) : a.Grows c := by
  refine ⟨hbc.start.trans hab.start, fun m hm => ?_⟩
  obtain ⟨m', hm', hstart, hend⟩ := hab.methods m hm
  obtain ⟨m'', hm'', hstart', hend'⟩ := hbc.methods m' hm'
  exact ⟨m'', hm'', hstart'.trans hstart, hend.trans hend'⟩

def ClassDecl.Accounts (c : ClassDecl) (j : Nat) : Prop :=
  c.startLine = j ∨ ∃ m ∈ c.methods, m.Covers j

theorem ClassDecl.Grows.accounts {c c' : ClassDecl} {j : Nat} (h : c.Grows c') (hj : c.Accounts j) :
    c'.Accounts j := by
  rcases hj with hj | ⟨m, hm, h1, h2⟩
  · exact Or.inl (h.start.trans hj)
  · obtain ⟨m', hm', hs, he⟩ := h.methods m hm
    exact Or.inr ⟨m', hm', hs ▸ h1, h2.trans he⟩

namespace Indented

/-- Of the lines before `stop`, the class has the headers of methods: each of its methods starts on
one, and each of them lies in one of its methods. -/
structure Faithful (lines : List Line) (stop : Nat) (c : ClassDecl) : Prop where
  head : Heads classHeader lines c.startLine c.name
  methods : ∀ m ∈ c.methods, Heads methodHeader lines m.startLine m.name
  complete : ∀ j name, c.startLine < j → j < stop → Heads methodHeader lines j name →
    ∃ m ∈ c.methods, m.startLine ≤ j ∧ j ≤ m.endLine

namespace Faithful

variable {lines : List Line} {stop : Nat} {c c' : ClassDecl} {m m' : MethodDecl}

theorem congr (h : Faithful lines stop c) (hs : c'.startLine = c.startLine) (hn : c'.name = c.name)
    (hm : c'.methods = c.methods) : Faithful lines stop c' := by
  refine ⟨by rw [hs, hn]; exact h.head, by rw [hm]; exact h.methods, ?_⟩
  rw [hs, hm]
  exact h.complete

theorem begin {name : List Char} (h : Heads classHeader lines stop (String.ofList name)) :
    Faithful lines (stop + 1) (.begin name stop) := by
  refine ⟨h, by simp [ClassDecl.begin], ?_⟩
  intro j _ h1 h2
  simp only [ClassDecl.begin] at h1
  omega

/-- A line that is no header of a method adds nothing. -/
theorem pass (h : Faithful lines stop c) (hline : ∀ name, ¬ Heads methodHeader lines stop name) :
    Faithful lines (stop + 1) c := by
  refine ⟨h.head, h.methods, ?_⟩
  intro j name h1 h2 hj
  rcases Nat.lt_succ_iff_lt_or_eq.1 h2 with h2 | rfl
  · exact h.complete j name h1 h2 hj
  · exact absurd hj (hline name)

/-- When the class goes on and its last method takes the line, the header on it is in that method. -/
theorem grow (h : Faithful lines stop c) (hg : c.Grows c') (hn : c'.name = c.name)
    (hms : ∀ m ∈ c'.methods, Heads methodHeader lines m.startLine m.name)
    (hm : m ∈ c'.methods) (hs : m.startLine ≤ stop) (he : m.endLine = stop) :
    Faithful lines (stop + 1) c' := by
  refine ⟨by rw [hg.start, hn]; exact h.head, hms, ?_⟩
  intro j name h1 h2 hj
  rcases Nat.lt_succ_iff_lt_or_eq.1 h2 with h2 | rfl
  · obtain ⟨a, ha, h3, h4⟩ := h.complete j name (hg.start ▸ h1) h2 hj
    obtain ⟨a', ha', h5, h6⟩ := hg.methods a ha
    exact ⟨a', ha', h5 ▸ h3, h4.trans h6⟩
  · exact ⟨m, hm, hs, he.ge⟩

/-- The last method takes the line. -/
theorem extend (h : Faithful lines stop (c.addMethod m)) (hl : (c.addMethod m).Laid stop)
    (hs : c'.startLine = c.startLine) (hn : c'.name = c.name) (hc : c'.methods = c.methods)
    (hname : m'.name = m.name) (hstart : m'.startLine = m.startLine) (hend : m'.endLine = stop) :
    Faithful lines (stop + 1) (c'.addMethod m') := by
  obtain ⟨-, h2, h3, h4⟩ := hl.last
  refine h.grow (.last hs hc hstart (by omega)) hn ?_ (c'.mem_addMethod m') (by omega) hend
  intro a ha
  rcases List.mem_append.1 ha with ha | ha
  · exact h.methods a (List.mem_append_left _ (hc ▸ ha))
  · rw [List.mem_singleton.1 ha, hstart, hname]
    exact h.methods m (c.mem_addMethod m)

end Faithful

theorem classHeader_nil : classHeader.match? [] = none := rfl

theorem methodHeader_nil : methodHeader.match? [] = none := rfl

section Line

variable {lines : List Line} {i : Nat} {line : Line} {st st' : State} {done closed : List ClassDecl}

/-- What the walk has recorded of a class stays recorded. -/
theorem Reads.grows (h : Reads i line st closed st') (hl : Layout i done st.draft) :
    ∀ c ∈ st.draft, ∃ c' ∈ closed ++ st'.draft.toList, c.Grows c' := by
  intro d hd
  cases h with
  | @header c m hopen =>
    obtain ⟨⟩ := hd
    obtain ⟨-, -, -, hend⟩ := (hl.laid _ rfl).last
    exact ⟨_, List.mem_singleton_self _, .last rfl rfl rfl hend.le⟩
  | blank => exact ⟨d, by simpa using hd, .same rfl rfl⟩
  | begin | leave =>
    rw [State.close_eq, hd]
    exact ⟨d.endAt (i - 1), by simp, .same rfl rfl⟩
  | skip => exact absurd hd (Option.not_mem_none d)
  | @body c m =>
    obtain ⟨⟩ := hd
    obtain ⟨-, -, -, hend⟩ := (hl.laid _ rfl).last
    refine ⟨_, List.mem_singleton_self _, .last (by simp) (by simp) ?_ ?_⟩
    · simp [OpenMethod.extend]
    · simpa [OpenMethod.extend] using hend.le
  | method hst hbody hopen =>
    rw [State.draft_of_class? hopen] at hd
    obtain ⟨⟩ := hd
    exact ⟨_, List.mem_singleton_self _, .addMethod _ _⟩
  | other hst hline hbody hopen =>
    rw [State.draft_of_class? hopen] at hd
    obtain ⟨⟩ := hd
    exact ⟨_, List.mem_singleton_self _, .same rfl rfl⟩

/-- The header of a class starts a class or lies in the open method. -/
theorem Reads.accounts (h : Reads i line st closed st') (hl : Layout i done st.draft)
    (hline : lines[i]? = some line) {name : String} (hi : Heads classHeader lines i name) :
    ∃ c ∈ st'.draft, c.Accounts i := by
  cases h with
  | @header c m hopen =>
    obtain ⟨-, h2, h3, h4⟩ := (hl.laid _ rfl).last
    refine ⟨_, rfl, Or.inr ⟨(m.extendHeader i line).decl, ClassDecl.mem_addMethod _ _, ?_, le_rfl⟩⟩
    simp only [OpenMethod.extendHeader]
    omega
  | blank _ hblank => exact absurd hi (not_heads_of_none hline (by rw [hblank]; exact classHeader_nil))
  | begin => exact ⟨_, rfl, Or.inl rfl⟩
  | @body c m =>
    obtain ⟨-, h2, h3, h4⟩ := (hl.laid _ rfl).last
    refine ⟨_, rfl, Or.inr ⟨(m.extend i (references line)).decl, ClassDecl.mem_addMethod _ _, ?_, ?_⟩⟩
    · simp only [OpenMethod.extend, MethodDecl.mention_startLine]
      omega
    · simp [OpenMethod.extend]
  | skip hclass | leave _ _ hclass | method _ _ _ hclass | other _ _ _ _ hclass =>
    exact absurd hi (not_heads_of_none hline hclass)

theorem State.close_faithful (hl : Layout i done st.draft)
    (hf : ∀ c ∈ st.draft, Faithful lines i c) :
    ∀ c ∈ st.close (i - 1), Faithful lines (c.endLine + 1) c := by
  intro c hc
  rw [State.close_eq] at hc
  obtain ⟨d, hd, rfl⟩ := List.mem_map.1 hc
  have hd : d ∈ st.draft := by simpa using hd
  have hs := (hl.laid d hd).start_lt
  have he : (d.endAt (i - 1)).endLine + 1 = i := by simp only [ClassDecl.endAt]; omega
  rw [he]
  exact (hf d hd).congr rfl rfl rfl

/-- A line keeps the classes faithful, those it closes and the one it leaves open. -/
theorem Reads.faithful (h : Reads i line st closed st') (hl : Layout i done st.draft)
    (hline : lines[i]? = some line) (hf : ∀ c ∈ st.draft, Faithful lines i c) :
    (∀ c ∈ closed, Faithful lines (c.endLine + 1) c) ∧
      ∀ c ∈ st'.draft, Faithful lines (i + 1) c := by
  have hclosed := State.close_faithful hl hf
  cases h with
  | @header c m hopen =>
    refine ⟨by simp, ?_⟩
    rintro d ⟨⟩
    exact (hf _ rfl).extend (hl.laid _ rfl) rfl rfl rfl rfl rfl rfl
  | blank _ hblank =>
    refine ⟨by simp, fun c hc => (hf c hc).pass fun name => ?_⟩
    exact not_heads_of_none hline (by rw [hblank]; exact methodHeader_nil)
  | begin _ _ hclass =>
    refine ⟨hclosed, ?_⟩
    rintro d ⟨⟩
    exact .begin (heads_of_match hline hclass)
  | skip => exact ⟨by simp, by simp [State.draft, State.class?]⟩
  | leave => exact ⟨hclosed, by simp [State.draft, State.class?]⟩
  | @body c m =>
    refine ⟨by simp, ?_⟩
    rintro d ⟨⟩
    refine (hf _ rfl).extend (hl.laid _ rfl) ?_ ?_ ?_ ?_ ?_ ?_ <;> simp [OpenMethod.extend]
  | method _ _ hopen _ _ hmethod =>
    refine ⟨by simp, ?_⟩
    rintro d ⟨⟩
    have hd := State.draft_of_class? hopen
    refine (hf _ hd).grow (.addMethod _ _) rfl ?_ (List.mem_append_right _ (List.mem_singleton_self _))
      le_rfl rfl
    intro a ha
    rcases List.mem_append.1 ha with ha | ha
    · exact (hf _ hd).methods a ha
    · rw [List.mem_singleton.1 ha]
      exact heads_of_match hline hmethod
  | other _ _ _ hopen _ _ hmethod =>
    refine ⟨by simp, ?_⟩
    rintro d ⟨⟩
    exact (hf _ (State.draft_of_class? hopen)).pass fun name => not_heads_of_none hline hmethod

structure Recorded (lines : List Line) (i : Nat) (done : List ClassDecl) (st : State) : Prop where
  layout : Layout i done st.draft
  closed : ∀ c ∈ done, Faithful lines (c.endLine + 1) c
  draft : ∀ c ∈ st.draft, Faithful lines i c
  heads : ∀ j name, j < i → Heads classHeader lines j name →
    ∃ c ∈ done ++ st.draft.toList, c.Accounts j

theorem Recorded.step (hr : Recorded lines i done st) (hline : lines[i]? = some line)
    (h : Reads i line st closed st') : Recorded lines (i + 1) (done ++ closed) st' := by
  obtain ⟨hclosed, hdraft⟩ := h.faithful hr.layout hline hr.draft
  refine ⟨h.layout hr.layout, ?_, hdraft, ?_⟩
  · intro c hc
    rcases List.mem_append.1 hc with hc | hc
    · exact hr.closed c hc
    · exact hclosed c hc
  · intro j name hj hhead
    rw [List.append_assoc]
    rcases Nat.lt_succ_iff_lt_or_eq.1 hj with hj | rfl
    · obtain ⟨c, hc, hcj⟩ := hr.heads j name hj hhead
      rcases List.mem_append.1 hc with hc | hc
      · exact ⟨c, List.mem_append_left _ hc, hcj⟩
      · obtain ⟨c', hc', hg⟩ := h.grows hr.layout c (by simpa using hc)
        exact ⟨c', List.mem_append_right _ hc', hg.accounts hcj⟩
    · obtain ⟨c, hc, hcj⟩ := h.accounts hr.layout hline hhead
      exact ⟨c, List.mem_append_right _ (List.mem_append_right _ (by simpa using hc)), hcj⟩

end Line

/-- What the walk gives of a whole source. -/
theorem walk_recorded (lines : List Line) :
    (∀ c ∈ State.outside.walk 0 lines, Faithful lines (c.endLine + 1) c) ∧
      ∀ j name, Heads classHeader lines j name → ∃ c ∈ State.outside.walk 0 lines, c.Accounts j := by
  obtain ⟨done, st, hr, hwalk⟩ := walk_run lines (I := Recorded lines)
    ⟨Layout.start, by simp, by simp [State.draft, State.class?], by simp⟩
    (fun hline hreads hr => hr.step hline hreads)
  rw [hwalk]
  constructor
  · intro c hc
    rcases List.mem_append.1 hc with hc | hc
    · exact hr.closed c hc
    · exact State.close_faithful hr.layout hr.draft c hc
  · intro j name hhead
    obtain ⟨c, hc, hcj⟩ := hr.heads j name hhead.lt_length hhead
    rcases List.mem_append.1 hc with hc | hc
    · exact ⟨c, List.mem_append_left _ hc, hcj⟩
    · refine ⟨c.endAt (lines.length - 1), List.mem_append_right _ ?_, hcj⟩
      rw [State.close_eq]
      exact List.mem_map_of_mem hc

section Classes

variable {lines : List Line} {c : ClassDecl} {i : Nat} {name : String}

theorem classes_faithful (hc : c ∈ classes lines) : Faithful lines (c.endLine + 1) c := by
  obtain ⟨d, hd, rfl⟩ := mem_classes.1 hc
  exact ((walk_recorded lines).1 d hd).congr rfl rfl rfl

theorem classes_accounts (hi : Heads classHeader lines i name) : ∃ c ∈ classes lines, c.Accounts i := by
  obtain ⟨d, hd, hdi⟩ := (walk_recorded lines).2 i name hi
  exact ⟨findConstructor lines d, mem_classes.2 ⟨d, hd, rfl⟩, hdi⟩

/-- The header of a class starts a class exactly when it lies in no method. -/
theorem starts_class_iff (hi : Heads classHeader lines i name) :
    ((classes lines).filter (·.startLine = i)).map (·.name) = [name] ↔
      ¬ ∃ c ∈ classes lines, ∃ m ∈ c.methods, m.Covers i := by
  have hle : ∀ c ∈ classes lines, c.startLine ≤ c.endLine := fun c hc =>
    (classes_wellFormed hc).start_le
  have hname : ∀ c ∈ classes lines, c.startLine = i → c.name = name := by
    rintro c hc rfl
    exact (classes_faithful hc).head.unique hi
  rw [starts_at_iff hle (classes_ordered lines) hname]
  constructor
  · rintro ⟨c, hc, rfl⟩ ⟨d, hd, m, hm, h1, h2⟩
    obtain ⟨h3, h4, h5, h6⟩ := (classes_wellFormed hd).methods m hm
    -- the method lies in its class, which therefore is the class that starts here
    have hcd : c = d := eq_of_shared_line hle (classes_ordered lines) hc hd le_rfl (hle c hc)
      (by omega) (by omega)
    subst hcd
    omega
  · intro hnone
    obtain ⟨c, hc, hci | ⟨m, hm, hcover⟩⟩ := classes_accounts hi
    · exact ⟨c, hc, hci⟩
    · exact absurd ⟨c, hc, m, hm, hcover⟩ hnone

/-- The header of a method in a class starts a method exactly when it lies in no other. -/
theorem starts_method_iff (hc : c ∈ classes lines) (h1 : c.startLine < i) (h2 : i ≤ c.endLine)
    (hi : Heads methodHeader lines i name) :
    (c.methods.filter (·.startLine = i)).map (·.name) = [name] ↔ ¬ ∃ m ∈ c.methods, m.Covers i := by
  have hw := classes_wellFormed hc
  have hf := classes_faithful hc
  have hle : ∀ m ∈ c.methods, m.startLine ≤ m.endLine := fun m hm =>
    (hw.methods m hm).2.1.trans (hw.methods m hm).2.2.1
  have hname : ∀ m ∈ c.methods, m.startLine = i → m.name = name := by
    rintro m hm rfl
    exact (hf.methods m hm).unique hi
  rw [starts_at_iff hle hw.ordered hname]
  constructor
  · rintro ⟨m, hm, rfl⟩ ⟨a, ha, h3, h4⟩
    have hma : m = a := eq_of_shared_line hle hw.ordered hm ha le_rfl (hle m hm) h3.le h4
    subst hma
    omega
  · intro hnone
    obtain ⟨m, hm, h3, h4⟩ := hf.complete i name h1 (Nat.lt_succ_of_le h2) hi
    refine ⟨m, hm, ?_⟩
    by_contra hne
    exact hnone ⟨m, hm, by omega, h4⟩

end Classes

/-- A header starts a class exactly when it lies in no method, and inside a class the same holds of
the headers of its methods. -/
theorem classes_declared (lines : List Line) :
    (∀ c ∈ classes lines, Heads classHeader lines c.startLine c.name) ∧
    (∀ i name, Heads classHeader lines i name →
      (((classes lines).filter (·.startLine = i)).map (·.name) = [name] ↔
        ¬ ∃ c ∈ classes lines, ∃ m ∈ c.methods, m.startLine < i ∧ i ≤ m.endLine)) ∧
    ∀ c ∈ classes lines,
      (∀ m ∈ c.methods, c.startLine < m.startLine ∧ m.startLine ≤ c.endLine ∧
        Heads methodHeader lines m.startLine m.name) ∧
      ∀ i name, c.startLine < i → i ≤ c.endLine → Heads methodHeader lines i name →
        ((c.methods.filter (·.startLine = i)).map (·.name) = [name] ↔
          ¬ ∃ m ∈ c.methods, m.startLine < i ∧ i ≤ m.endLine) := by
  refine ⟨fun c hc => (classes_faithful hc).head, fun i name hi => starts_class_iff hi, ?_⟩
  intro c hc
  refine ⟨fun m hm => ?_, fun i name h1 h2 hi => starts_method_iff hc h1 h2 hi⟩
  obtain ⟨h1, h2, h3, h4⟩ := (classes_wellFormed hc).methods m hm
  exact ⟨h1, by omega, (classes_faithful hc).methods m hm⟩

/-- The class on the third line lies in a method and is none of its own. -/
example : (classes ["class A:".toList, "    def f(self):".toList, "        class B: pass".toList,
    "class C".toList]).map (fun c => (c.name, c.startLine, c.endLine)) = [("A", 0, 2), ("C", 3, 3)] := by
  decide +kernel

end Indented

end DesignLint
