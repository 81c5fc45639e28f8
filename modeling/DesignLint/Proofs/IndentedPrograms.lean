import DesignLint.Proofs.ProgramTexts
import DesignLint.Proofs.Signatures

/-! Indented programs in a fixed layout: classes at the margin, methods indented by four blanks and bodies by
eight. Whatever the bodies say, such a program gives exactly its classes and methods. -/

namespace DesignLint.Indented

open Source Pattern

def classLine (n : Name) : Line := "class ".toList ++ (n.chars ++ ":".toList)

def methodLine (n : Name) : Line := "    ".toList ++ ("def ".toList ++ (n.chars ++ "(self):".toList))

def rows (m : MethodText) : List Line := m.body.map ("        ".toList ++ ·)

def methodLines (m : MethodText) : List Line := methodLine m.name :: rows m

def classLines (c : ClassText MethodText) : List Line := classLine c.name :: c.methods.flatMap methodLines

def mentions (rows : List Line) : List Reference :=
  (rows.filter fun row => !(Text.trim row).isEmpty).flatMap references

/-- The number of lines up to the last one that is not blank. -/
def written (rows : List Line) : Nat :=
  (rows.reverse.dropWhile fun row => (Text.trim row).isEmpty).length

/-- The method that starts on line `i` and ends with the last line of its body that is not blank. -/
def methodDecl (i : Nat) (m : MethodText) : MethodDecl where
  name := String.ofList m.name.chars
  startLine := i
  endLine := i + written (rows m)
  headerEnd := i
  usedVariables := distinct (Reference.variables (mentions (rows m)))
  calledMethods := distinct (Reference.calls (mentions (rows m)))

def classDecl (i : Nat) (c : ClassText MethodText) : ClassDecl where
  name := String.ofList c.name.chars
  startLine := i
  endLine := i + (c.methods.flatMap methodLines).length
  methods := inSequence methodLines methodDecl (i + 1) c.methods
  instanceVariables := distinct (c.methods.flatMap fun m => Reference.variables (mentions (rows m)))
  constructor? :=
    ((inSequence methodLines methodDecl (i + 1) c.methods).find? (·.name == constructorName)).map fun m =>
      ⟨m.startLine, m.endLine, []⟩

section Lines

variable (n : Name)

theorem isBlank_head_classLine : ∀ c ∈ (classLine n).head?, Text.isBlank c = false := by
  rintro c ⟨⟩
  decide

theorem trim_classLine :
    Text.trim (classLine n) = "class".toList ++ (" ".toList ++ (n.chars ++ ":".toList)) := by
  have hline : classLine n = "class ".toList ++ n.chars ++ [':'] := by simp [classLine]
  have hhead := isBlank_head_classLine n
  rw [hline] at hhead ⊢
  rw [Text.trim_of_ends hhead (by decide)]
  simp

theorem indent_classLine : Text.indent (classLine n) = 0 := by
  have hindent : Text.indent ([] ++ classLine n) = _ := Text.indent_eq (by simp) (isBlank_head_classLine n)
  exact hindent

theorem match?_classLine : classHeader.match? (Text.trim (classLine n)) = some (n.taken, [':']) := by
  rw [trim_classLine]
  refine match?_classHeader n (by simp) (List.all_eq_true.1 (by decide)) ?_
  rintro c ⟨⟩
  decide

theorem methodLead_def : MethodLead "def ".toList :=
  show MethodLead ("def".toList ++ " ".toList) from .plain (by simp) (List.all_eq_true.1 (by decide))

/-- The form of a method line, with whatever stands behind it. -/
theorem methodLine_append (s : List Char) : methodLine n ++ s =
    "    ".toList ++ ("def ".toList ++ (n.chars ++ '(' :: ("self):".toList ++ s))) := by
  have hparen : "(self):".toList = '(' :: "self):".toList := rfl
  rw [methodLine, hparen]
  simp only [List.append_assoc, List.cons_append]

theorem indent_methodLine (s : List Char) : Text.indent (methodLine n ++ s) = 4 := by
  rw [methodLine_append]
  exact Text.indent_eq (List.all_eq_true.1 (by decide)) (methodLead_def.isBlank_head _)

theorem trim_methodLine (s : List Char) : Text.trim (methodLine n ++ s) =
    "def ".toList ++ (n.chars ++ '(' :: Text.trimEnd ("self):".toList ++ s)) := by
  rw [methodLine_append, Text.trim_eq (List.all_eq_true.1 (by decide)) (methodLead_def.isBlank_head _),
    ← List.append_assoc, Text.trimEnd_append_cons (by decide), List.append_assoc]

theorem methodForm_methodLine (s : List Char) :
    MethodForm n (Text.trimEnd ("self):".toList ++ s)) (Text.trim (methodLine n ++ s)) :=
  ⟨"def ".toList, [], trim_methodLine n s, methodLead_def, by simp⟩

theorem parenBalance_methodLine {s : List Char} (hs : quotesClose none s = true) :
    parenBalance (methodLine n ++ s) = parenBalance s := by
  have hplain : ∀ c ∈ "    ".toList ++ ("def ".toList ++ n.chars), isPlain c = true :=
    List.forall_mem_append.2 ⟨List.all_eq_true.1 (by decide), List.forall_mem_append.2
      ⟨List.all_eq_true.1 (by decide), fun c hc => isPlain_of (by decide) (n.isWord c hc)⟩⟩
  have hself : quotesClose none ("self):".toList ++ s) = true := by simpa [quotesClose, isQuote] using hs
  have hsplit : methodLine n ++ s =
      "    ".toList ++ ("def ".toList ++ n.chars) ++ '(' :: ("self):".toList ++ s) := by
    rw [methodLine_append]
    simp only [List.append_assoc]
  have hquotes : quotesClose none (methodLine n ++ s) = true := by
    rw [hsplit, quotesClose_behind_plain hplain, quotesClose_none]
    exact hself
  rw [hsplit] at hquotes ⊢
  rw [(parenBalance_of_first hplain _ hquotes).2, parenBalance_of_quotesClose hself,
    parenBalance_of_quotesClose hs]
  simp [unquoted, isQuote, parens_cons]

end Lines

section Rows

theorem OpenMethod.extend_extend (m : OpenMethod) (i j : Nat) (refs more : List Reference) :
    (m.extend i refs).extend j more = m.extend j (refs ++ more) := by
  simp only [OpenMethod.extend, MethodDecl.mention_with_endLine, MethodDecl.mention_append]

variable {blank row : Line} (rows : List Line)

theorem mentions_append_blank (h : Text.trim blank = []) : mentions (rows ++ [blank]) = mentions rows := by
  simp [mentions, h]

theorem mentions_append (h : Text.trim row ≠ []) :
    mentions (rows ++ [row]) = mentions rows ++ references row := by
  simp [mentions, h]

theorem written_append_blank (h : Text.trim blank = []) : written (rows ++ [blank]) = written rows := by
  simp [written, h]

theorem written_append (h : Text.trim row ≠ []) : written (rows ++ [row]) = rows.length + 1 := by
  simp [written, h]

/-- The lines of a body stand deeper than the header; whatever they say, they extend the open method. -/
theorem walk_body {c : OpenClass} {m : OpenMethod} (hn : c.indent < m.indent) (hparens : m.openParens ≤ 0)
    (hrows : ∀ row ∈ rows, Text.trim row ≠ [] → m.indent < Text.indent row) {i : Nat}
    (hi : m.decl.endLine = i) (rest : List Line) :
    (State.inMethod c m).walk (i + 1) (rows ++ rest) =
      (State.inMethod { c with decl := c.decl.mention (mentions rows) }
        (m.extend (i + written rows) (mentions rows))).walk (i + 1 + rows.length) rest := by
  induction rows using List.reverseRecOn generalizing rest with
  | nil =>
    subst hi
    rfl
  | append_singleton rows row ih =>
    obtain ⟨hrows, hrow⟩ := List.forall_mem_append.1 hrows
    rw [List.append_assoc, ih hrows, List.singleton_append, List.length_append, List.length_singleton,
      ← Nat.add_assoc]
    by_cases hblank : Text.trim row = []
    · have hst : State.inHeader (.inMethod { c with decl := c.decl.mention (mentions rows) }
          (m.extend (i + written rows) (mentions rows))) = false :=
        decide_eq_false (not_lt.2 hparens)
      rw [State.walk, State.step_blank hst hblank, mentions_append_blank rows hblank,
        written_append_blank rows hblank]
      rfl
    · have hdeep := hrow row (List.mem_singleton_self row) hblank
      have hreads : Reads (i + 1 + rows.length) row _ _ _ :=
        .body (c := { c with decl := c.decl.mention (mentions rows) })
          (m := m.extend (i + written rows) (mentions rows)) hparens hblank hdeep
      rw [hreads.walk_cons hn hblank, List.nil_append, OpenMethod.extend_extend, ← ClassDecl.mention_append,
        mentions_append rows hblank, written_append rows hblank]
      rw [Nat.add_assoc i 1, Nat.add_comm 1]

end Rows

section Methods

variable {st : State} {c : ClassDecl}

/-- The class `c`, with its header at the margin, is open, and none of its methods goes on in a line that is
indented by four blanks. -/
structure State.Awaits (st : State) (c : ClassDecl) : Prop where
  inHeader : st.inHeader = false
  inBody : st.inBody 4 = false
  nested : st.Nested
  class? : st.class? = some ⟨c, 0⟩

theorem State.Awaits.close (h : st.Awaits c) (last : Nat) : st.close last = [c.endAt last] := by
  rw [State.close_eq, State.draft, h.class?]
  rfl

/-- A method line begins a method, also with a text behind it that leaves no parenthesis open. -/
theorem State.Awaits.walk_methodLine (h : st.Awaits c) (n : Name) {s : List Char}
    (hs : quotesClose none s = true) (hparens : parenBalance s ≤ 0) (i : Nat) (rest : List Line) :
    st.walk i ((methodLine n ++ s) :: rest) =
      (State.inMethod ⟨c, 0⟩ ⟨.begin n.chars i, 4, 0⟩).walk (i + 1) rest := by
  have hindent := indent_methodLine n s
  have hform := methodForm_methodLine n s
  have hclass : classHeader.match? (Text.trim (methodLine n ++ s)) = none := by
    rw [trim_methodLine]
    exact methodLead_def.classHeader_none _
  have hbody : st.inBody (Text.indent (methodLine n ++ s)) = false := by
    rw [hindent]
    exact h.inBody
  have hdeeper : 0 < Text.indent (methodLine n ++ s) := by
    rw [hindent]
    exact Nat.succ_pos 3
  have hreads : Reads i (methodLine n ++ s) st _ _ :=
    .method h.inHeader hbody h.class? hclass hdeeper (match?_methodHeader hform)
  have hne : Text.trim (methodLine n ++ s) ≠ [] := by
    rw [trim_methodLine]
    simp
  rw [hreads.walk_cons h.nested hne, List.nil_append, OpenMethod.begin, hindent, parenBalance_methodLine n hs,
    max_eq_left hparens, Name.taken_chars]

def addText (c : ClassDecl) (i : Nat) (m : MethodText) : ClassDecl :=
  (c.mention (mentions (rows m))).addMethod (methodDecl i m)

theorem indent_row {row : Line} {m : MethodText} (h : row ∈ rows m) : 4 < Text.indent row := by
  obtain ⟨text, -, rfl⟩ := List.mem_map.1 h
  have hblanks : ∀ c ∈ "        ".toList, Text.isBlank c = true := List.all_eq_true.1 (by decide)
  rw [Text.indent, List.takeWhile_append_of_pos hblanks, List.length_append]
  exact Nat.lt_add_right _ (by decide)

theorem walk_method (h : st.Awaits c) (i : Nat) (m : MethodText) :
    ∃ st' : State, st'.Awaits (addText c i m) ∧
      ∀ rest, st.walk i (methodLines m ++ rest) = st'.walk (i + (methodLines m).length) rest := by
  refine ⟨.inMethod ⟨c.mention (mentions (rows m)), 0⟩ ⟨methodDecl i m, 4, 0⟩, ⟨rfl, rfl, Nat.succ_pos 3, rfl⟩,
    fun rest => ?_⟩
  have hheader := h.walk_methodLine m.name (s := []) rfl le_rfl i (rows m ++ rest)
  rw [List.append_nil] at hheader
  have hbody := walk_body (rows m) (c := ⟨c, 0⟩) (m := ⟨.begin m.name.chars i, 4, 0⟩) (i := i)
    (Nat.succ_pos 3) le_rfl (fun row hrow _ => indent_row hrow) rfl rest
  have hdecl : OpenMethod.extend ⟨.begin m.name.chars i, 4, 0⟩ (i + written (rows m)) (mentions (rows m)) =
      ⟨methodDecl i m, 4, 0⟩ := by
    rw [OpenMethod.extend, MethodDecl.mention_eq]
    rfl
  rw [methodLines, List.cons_append, hheader, hbody, hdecl, List.length_cons, Nat.add_assoc, Nat.add_comm 1]

theorem walk_methods (h : st.Awaits c) (i : Nat) (ms : List MethodText) :
    ∃ st' : State, st'.Awaits { c with
        methods := c.methods ++ inSequence methodLines methodDecl i ms
        instanceVariables := (ms.flatMap fun m => Reference.variables (mentions (rows m))).foldl addName
          c.instanceVariables } ∧
      ∀ rest, st.walk i (ms.flatMap methodLines ++ rest) =
        st'.walk (i + (ms.flatMap methodLines).length) rest := by
  induction ms generalizing st c i with
  | nil => exact ⟨st, by simpa [inSequence] using h, fun rest => rfl⟩
  | cons m ms ih =>
    obtain ⟨st₁, h₁, hwalk₁⟩ := walk_method h i m
    obtain ⟨st', h', hwalk⟩ := ih h₁ (i + (methodLines m).length)
    refine ⟨st', ?_, fun rest => ?_⟩
    · simpa [addText, ClassDecl.addMethod, ClassDecl.mention_eq_foldl, inSequence] using h'
    · rw [List.flatMap_cons, List.append_assoc, hwalk₁, hwalk, List.length_append, Nat.add_assoc]

end Methods

section Classes

/-- A class line closes the class that is open and begins one. -/
theorem walk_classLine (st : State) (hst : st.inHeader = false) (hn : st.Nested) (n : Name) (i : Nat)
    (rest : List Line) :
    st.walk i (classLine n :: rest) =
      st.close (i - 1) ++ (State.inClass ⟨.begin n.chars i, 0⟩).walk (i + 1) rest := by
  have hbody : st.inBody (Text.indent (classLine n)) = false := by
    rw [indent_classLine]
    cases st <;> rfl
  have hne : Text.trim (classLine n) ≠ [] := by
    rw [trim_classLine]
    simp
  have hreads : Reads i (classLine n) st _ _ := .begin hst hbody (match?_classLine n)
  rw [hreads.walk_cons hn hne, OpenClass.begin, indent_classLine, Name.taken_chars]

/-- The walk gives the classes in order, without their constructors. -/
theorem walk_program (st : State) (hst : st.inHeader = false) (hn : st.Nested) (i : Nat)
    (program : List (ClassText MethodText)) :
    st.walk i (program.flatMap classLines) = st.close (i - 1) ++
      inSequence classLines (fun i c => { classDecl i c with constructor? := none }) i program := by
  induction program generalizing st i with
  | nil => rw [List.flatMap_nil, State.walk, inSequence, List.append_nil]
  | cons c program ih =>
    have hbegin : State.Awaits (.inClass ⟨.begin c.name.chars i, 0⟩) (.begin c.name.chars i) :=
      ⟨rfl, rfl, trivial, rfl⟩
    obtain ⟨st', hawaits, hwalk⟩ := walk_methods hbegin (i + 1) c.methods
    have hlast : i + (classLines c).length - 1 = i + (c.methods.flatMap methodLines).length := by
      rw [classLines, List.length_cons]
      omega
    have hnext : i + 1 + (c.methods.flatMap methodLines).length = i + (classLines c).length := by
      rw [classLines, List.length_cons]
      omega
    rw [List.flatMap_cons, classLines, List.cons_append, walk_classLine st hst hn, hwalk,
      ih st' hawaits.inHeader hawaits.nested, hnext, hlast, hawaits.close, inSequence]
    simp [ClassDecl.begin, ClassDecl.endAt, classDecl, distinct]

/-- A constructor in this layout has no parameters beside the object itself. -/
theorem signatureParams_methodLine {n : Name} (h : String.ofList n.chars = constructorName)
    (rest : List Line) : signatureParams (methodLine n :: rest) = [] := by
  have hchars : n.chars = "__init__".toList := by
    rw [← String.toList_ofList (l := n.chars), h]
    rfl
  rw [methodLine, hchars]
  rfl

/-- The methods of a class are found where they stand in the program. -/
theorem drop_startLine {before : List (ClassText MethodText)} {c : ClassText MethodText} {m : MethodDecl}
    (hm : m ∈ (classDecl (before.flatMap classLines).length c).methods) (after : List (ClassText MethodText)) :
    ∃ n rest, m.name = String.ofList (Name.chars n) ∧
      ((before ++ c :: after).flatMap classLines).drop m.startLine = methodLine n :: rest := by
  obtain ⟨front, text, back, hmethods, rfl⟩ := of_mem_inSequence _ _ hm
  refine ⟨text.name, rows text ++ (back.flatMap methodLines ++ after.flatMap classLines), rfl, ?_⟩
  have hsplit : (before ++ c :: after).flatMap classLines =
      (before.flatMap classLines ++ classLine c.name :: front.flatMap methodLines) ++
        (methodLine text.name :: (rows text ++ (back.flatMap methodLines ++ after.flatMap classLines))) := by
    simp [classLines, hmethods, methodLines]
  have hstart : (before.flatMap classLines).length + 1 + (front.flatMap methodLines).length =
      (before.flatMap classLines ++ classLine c.name :: front.flatMap methodLines).length := by
    simp only [List.length_append, List.length_cons]
    omega
  rw [hsplit, methodDecl, hstart, List.drop_left]

theorem findConstructor_program (before after : List (ClassText MethodText)) (c : ClassText MethodText) :
    findConstructor ((before ++ c :: after).flatMap classLines)
        { classDecl (before.flatMap classLines).length c with constructor? := none } =
      classDecl (before.flatMap classLines).length c := by
  refine congrArg (fun k => { classDecl (before.flatMap classLines).length c with constructor? := k })
    (Option.map_congr fun m hm => ?_)
  obtain ⟨n, rest, hname, hdrop⟩ := drop_startLine (List.mem_of_find?_eq_some hm) after
  have hn : String.ofList n.chars = constructorName := hname.symm.trans (by simpa using List.find?_some hm)
  rw [hdrop, signatureParams_methodLine hn]

/-- A program in this layout gives exactly its classes and methods, in order, whatever the bodies say. A
class ends before the next one, and a method with the last line of its body that is not blank. -/
theorem classes_of_program (program : List (ClassText MethodText)) :
    classes (program.flatMap classLines) = inSequence classLines classDecl 0 program := by
  rw [classes, walk_program .outside rfl trivial, State.close, List.nil_append]
  refine map_inSequence _ _ fun before c after hprogram => ?_
  rw [Nat.zero_add, hprogram]
  exact findConstructor_program before after c

end Classes

end DesignLint.Indented
