import DesignLint.Proofs.IndentedPrograms
import DesignLint.Proofs.SignatureComments
import DesignLint.Proofs.WrittenParameters

/-! The parameters of a constructor are recovered whatever the line breaks. Its signature is written as a text
with gaps behind the commas and before the closing parenthesis, and any gap can hold line breaks. -/

namespace DesignLint

namespace Indented

open Source Pattern

/-- The signature of a constructor as it is written: blanks, the parameters behind that of the own object, each
with the gap before it, and the gap before the closing parenthesis. -/
structure ConstructorText where
  indent : List Char
  blank : ∀ c ∈ indent, Text.isBlank c = true
  noBreak : '\n' ∉ indent
  params : List (Gap × Parameter)
  last : Gap

namespace ConstructorText

variable (t : ConstructorText)

def inside : List Char := "self".toList ++ (listed t.params ++ t.last.chars)

def text : List Char := t.indent ++ ("def __init__(".toList ++ (t.inside ++ "):".toList))

def lines : List Line := Text.rows t.text

/-- The first line, which the parameter list goes on with `row`. -/
def header (row : Line) : Line := t.indent ++ ("def ".toList ++ (constructorName.toList ++ '(' :: row))

theorem header_eq (row : Line) :
    t.header row = t.indent ++ "def ".toList ++ (constructorName.toList ++ []) ++ '(' :: row := by
  simp [header]

theorem exists_lines : ∃ row more, Text.rows (t.inside ++ "):".toList) = row :: more ∧
    t.lines = t.header row :: more := by
  obtain ⟨row, more, hrows⟩ := Text.exists_rows (t.inside ++ "):".toList)
  refine ⟨row, more, hrows, ?_⟩
  have hsplit : t.text = (t.indent ++ "def __init__(".toList) ++ (t.inside ++ "):".toList) := by
    rw [text, List.append_assoc]
  have hbreak : '\n' ∉ t.indent ++ "def __init__(".toList := by simp [t.noBreak]
  rw [lines, hsplit, Text.rows_append hbreak, hrows, List.modifyHead_cons, List.append_assoc]
  rfl

theorem length_lines : t.lines.length = t.inside.count '\n' + 1 := by
  obtain ⟨row, more, hrows, hlines⟩ := t.exists_lines
  have hlength := Text.length_rows (t.inside ++ "):".toList)
  rw [hrows, List.count_append] at hlength
  rw [hlines]
  exact hlength

theorem staysOpen_inside : staysOpen 1 t.inside = true := by
  rw [inside, staysOpen_behind_plain (List.all_eq_true.1 (by decide))]
  exact staysOpen_listed t.params t.last

/-- The parameter list closes at its end. -/
theorem closing?_inside {row : Line} {more : List Line} (h : Text.rows (t.inside ++ "):".toList) = row :: more)
    (below : List Line) : closing? 1 (row :: (more ++ below)) = some (t.inside.count '\n', ":".toList) ∧
      (groupPieces 1 (row :: (more ++ below))).1 = Text.rows t.inside := by
  have hpost : '\n' ∉ ":".toList := by decide
  have hclosing := closing?_rows t.staysOpen_inside hpost below
  have hparen : "):".toList = ')' :: ":".toList := rfl
  rw [hparen] at h
  rwa [h] at hclosing

theorem parameters_inside : parameters (joinPieces (Text.rows t.inside)) =
    "self".toList :: t.params.map (·.2.chars) := by
  have htight : Text.Tight "self".toList := ⟨⟨'s', rfl, by decide⟩, ⟨'f', rfl, by decide⟩⟩
  obtain ⟨ps, hsame, hjoined⟩ := exists_joined htight (by decide) t.params t.last
  have hparams : ps.map (·.2.chars) = t.params.map (·.2.chars) := by
    have hchars := congrArg (List.map Parameter.chars) hsame
    rwa [List.map_map, List.map_map] at hchars
  rw [inside, hjoined, parameters_listed htight (by decide), hparams]

theorem isPlain_lead : ∀ c ∈ t.indent ++ "def ".toList ++ (constructorName.toList ++ []), isPlain c = true := by
  rw [List.append_assoc, List.forall_mem_append]
  exact ⟨fun c hc => isPlain_of_isBlank (t.blank c hc), List.all_eq_true.1 (by decide)⟩

/-- The parameters are those that are written, without the separators among them. -/
theorem signatureParams_lines (below : List Line) : signatureParams (t.lines ++ below) =
    ((t.params.map (·.2.chars)).filter isInjected).map String.ofList := by
  obtain ⟨row, more, hrows, hlines⟩ := t.exists_lines
  have htext := (signatureText_header t.isPlain_lead row (more ++ below)).1
  rw [List.nil_append, List.append_assoc, ← header] at htext
  rw [hlines, List.cons_append, signatureParams_eq, htext, (t.closing?_inside hrows below).2, t.parameters_inside,
    List.filter_cons_of_neg (by decide)]

theorem isQuote_text : ∀ c ∈ t.text, isQuote c = false := by
  have hblank : ∀ c, Text.isBlank c = true → isQuote c = false := by
    intro c hc
    have hplain := isPlain_of_isBlank hc
    simp only [isPlain, Bool.and_eq_true, Bool.not_eq_true'] at hplain
    exact hplain.1.1
  have hlisted : ∀ c ∈ listed t.params, isQuote c = false := by
    intro c hc
    obtain ⟨p, hp, hmem⟩ := List.mem_flatMap.1 hc
    rcases List.mem_cons.1 hmem with rfl | hmem
    · rfl
    rcases List.mem_append.1 hmem with hmem | hmem
    · exact hblank c (p.1.blank c hmem)
    · exact p.2.isQuote_eq_false c hmem
  have hfixed : ∀ s : List Char, s.all (fun c => isQuote c == false) = true → ∀ c ∈ s, isQuote c = false := by
    intro s hs c hc
    exact eq_of_beq (List.all_eq_true.1 hs c hc)
  simp only [text, inside, List.forall_mem_append]
  exact ⟨fun c hc => hblank c (t.blank c hc), hfixed _ (by decide),
    ⟨hfixed _ (by decide), hlisted, fun c hc => hblank c (t.last.blank c hc)⟩, hfixed _ (by decide)⟩

theorem quotesClose_lines {line : Line} (h : line ∈ t.lines) : quotesClose none line = true :=
  quotesClose_of_noQuote fun c hc => t.isQuote_text c (Text.mem_of_mem_rows h hc)

def name : Name := ⟨constructorName.toList, by decide, List.all_eq_true.1 (by decide)⟩

section Header

variable (row : Line)

theorem trim_header : Text.trim (t.header row) =
    "def ".toList ++ (constructorName.toList ++ '(' :: Text.trimEnd row) := by
  rw [header, Text.trim_eq t.blank (methodLead_def.isBlank_head _), ← List.append_assoc,
    Text.trimEnd_append_cons (by decide), List.append_assoc]

theorem match?_header : methodHeader.match? (Text.trim (t.header row)) = some (name.taken, Text.trimEnd row) :=
  match?_methodHeader ⟨"def ".toList, [], t.trim_header row, methodLead_def, by simp⟩

end Header

section Recorded

variable {above below : List Line}

theorem heads_lines : Heads methodHeader (above ++ (t.lines ++ below)) above.length constructorName := by
  obtain ⟨row, more, -, hlines⟩ := t.exists_lines
  have hline : (above ++ (t.lines ++ below))[above.length]? = some (t.header row) := by simp [hlines]
  have hheads := heads_of_match hline (t.match?_header row)
  rwa [Name.taken_chars] at hheads

variable {t} {c : ClassDecl} (hc : c ∈ classes (above ++ (t.lines ++ below))) {m : MethodDecl} (hm : m ∈ c.methods)
  (hstart : m.startLine = above.length)

include hc hm hstart

/-- The signature ends on the last of its lines. -/
theorem headerEnd_lines : m.headerEnd + 1 = above.length + t.lines.length := by
  obtain ⟨row, more, hrows, hlines⟩ := t.exists_lines
  have hmore : more.length = t.inside.count '\n' := by
    have hlength := t.length_lines
    rw [hlines] at hlength
    exact Nat.succ.inj hlength
  have hdrop : (above ++ (t.lines ++ below)).drop (above.length + 1) = more ++ below := by simp [hlines]
  have hline : (above ++ (t.lines ++ below))[above.length]? = some (t.header row) := by simp [hlines]
  have hclosing := (t.closing?_inside hrows below).1
  rw [← hdrop] at hclosing
  have hquotes : ∀ line ∈ between (above ++ (t.lines ++ below)) above.length
      (above.length + t.inside.count '\n'), quotesClose none line = true := by
    rw [between_eq hline, hdrop, ← hmore, List.take_left, ← hlines]
    exact fun line hline => t.quotesClose_lines hline
  rw [header_eq] at hline
  obtain ⟨hlt, hopen, hclose⟩ := openAfter_of_closing? t.isPlain_lead hline hclosing hquotes (by decide)
  rw [← hstart] at hlt hopen hclose
  rw [headerEnd_eq hc hm hlt hopen hclose, hstart, t.length_lines, Nat.add_assoc]

/-- The constructor that is found has this signature, if none stands before it. -/
theorem constructor?_lines (hfirst : ∀ a ∈ c.methods, a.startLine < above.length → a.name ≠ constructorName) :
    m.name = constructorName ∧ c.constructor? = some ⟨above.length, m.endLine,
      ((t.params.map (·.2.chars)).filter isInjected).map String.ofList⟩ := by
  have hname : m.name = constructorName :=
    ((classes_faithful hc).methods m hm).unique (hstart ▸ t.heads_lines)
  obtain ⟨d, hd, rfl⟩ := mem_classes.1 hc
  have hfind : d.methods.find? (·.name == constructorName) = some m := by
    have hw := classes_wellFormed hc
    obtain ⟨earlier, later, hsplit⟩ := List.append_of_mem hm
    refine List.find?_eq_some_iff_append.2 ⟨by simp [hname], earlier, later, hsplit, fun a ha => ?_⟩
    have hmem : a ∈ (findConstructor (above ++ (t.lines ++ below)) d).methods := by simp [hsplit, ha]
    have hordered := hw.ordered
    rw [hsplit] at hordered
    have hbefore := (List.pairwise_append.1 hordered).2.2 a ha m List.mem_cons_self
    obtain ⟨-, h1, h2, -⟩ := hw.methods a hmem
    simpa using hfirst a hmem (by omega)
  refine ⟨hname, ?_⟩
  rw [findConstructor, hfind, Option.map_some, hstart, List.drop_left, t.signatureParams_lines]

end Recorded

section Directly

variable {lines : List Line} {i : Nat}

theorem before_classLine {n : Name} (hline : lines[i]? = some (classLine n))
    (hst : (before lines i).2.inHeader = false) :
    (before lines (i + 1)).2 = .inClass ⟨.begin n.chars i, 0⟩ := by
  have hbody : (before lines i).2.inBody (Text.indent (classLine n)) = false := by
    rw [indent_classLine]
    cases (before lines i).2 <;> rfl
  have hne : Text.trim (classLine n) ≠ [] := by simp [trim_classLine]
  have hreads : Reads i (classLine n) _ _ _ := .begin hst hbody (match?_classLine n)
  rw [before_succ hline, hreads.step_eq (before_nested lines i) hne, OpenClass.begin, indent_classLine,
    Name.taken_chars]

theorem before_header {c : OpenClass} {row : Line} (hline : lines[i]? = some (t.header row))
    (hst : (before lines i).2 = .inClass c) (hindent : c.indent < t.indent.length) :
    (before lines (i + 1)).2.draft = some (c.decl.addMethod (.begin constructorName.toList i)) := by
  have hnone : classHeader.match? (Text.trim (t.header row)) = none := by
    rw [t.trim_header]
    exact methodLead_def.classHeader_none _
  have hdeeper : c.indent < Text.indent (t.header row) := by
    rwa [header, Text.indent_eq t.blank (methodLead_def.isBlank_head _)]
  have hne : Text.trim (t.header row) ≠ [] := by simp [t.trim_header]
  have hreads : Reads i (t.header row) (.inClass c) _ _ :=
    .method rfl rfl rfl hnone hdeeper (t.match?_header row)
  rw [before_succ hline, hst, hreads.step_eq trivial hne, Name.taken_chars]
  rfl

/-- A class with a constructor directly behind its header is found, with a method there. -/
theorem exists_class (n : Name) {earlier : List Line} (hst : (State.outside.read 0 earlier).2.inHeader = false)
    (hindent : t.indent ≠ []) (below : List Line) :
    ∃ c ∈ classes (earlier ++ [classLine n] ++ (t.lines ++ below)), c.name = String.ofList n.chars ∧
      c.startLine = earlier.length ∧ ∃ m ∈ c.methods, m.startLine = earlier.length + 1 := by
  obtain ⟨row, more, -, hlines⟩ := t.exists_lines
  generalize hall : earlier ++ [classLine n] ++ (t.lines ++ below) = lines
  have hsplit : lines = earlier ++ classLine n :: t.header row :: (more ++ below) := by simp [← hall, hlines]
  have hclass : lines[earlier.length]? = some (classLine n) := by simp [hsplit]
  have hheader : lines[earlier.length + 1]? = some (t.header row) := by simp [hsplit]
  have hbefore : (before lines earlier.length).2.inHeader = false := by
    rwa [before, hsplit, List.take_left]
  have hmethod := t.before_header hheader (before_classLine hclass hbefore) (List.length_pos_of_ne_nil hindent)
  obtain ⟨c, hc, hgrows⟩ := exists_grown (by simp [hsplit]) hmethod
  obtain ⟨m, hm, hstart, -⟩ := hgrows.methods _ (ClassDecl.mem_addMethod _ _)
  have hheads : Heads classHeader lines earlier.length (String.ofList n.taken.chars) :=
    heads_of_match hclass (match?_classLine n)
  have hfirst : c.startLine = earlier.length := hgrows.start
  rw [← hfirst, Name.taken_chars] at hheads
  exact ⟨c, hc, (classes_faithful hc).head.unique hheads, hfirst, m, hm, hstart⟩

end Directly

/-- On line `i` of the class begins a method with this signature, and it is the constructor of the class. -/
def Constructs (c : ClassDecl) (i : Nat) : Prop :=
  ∃ m ∈ c.methods, m.name = constructorName ∧ m.startLine = i ∧ m.headerEnd + 1 = i + t.lines.length ∧
    c.constructor? = some ⟨i, m.endLine, t.params.map fun p => String.ofList p.2.chars⟩

theorem constructs {t : ConstructorText} (ht : ∀ p ∈ t.params, isInjected p.2.chars = true) {above below : List Line}
    {c : ClassDecl} (hc : c ∈ classes (above ++ (t.lines ++ below))) {m : MethodDecl} (hm : m ∈ c.methods)
    (hstart : m.startLine = above.length)
    (hfirst : ∀ a ∈ c.methods, a.startLine < above.length → a.name ≠ constructorName) :
    t.Constructs c above.length := by
  obtain ⟨hname, hfound⟩ := constructor?_lines hc hm hstart hfirst
  refine ⟨m, hm, hname, hstart, headerEnd_lines hc hm hstart, ?_⟩
  have hall : (t.params.map (·.2.chars)).filter isInjected = t.params.map (·.2.chars) := by
    rw [List.filter_eq_self, List.forall_mem_map]
    exact ht
  rw [hfound, hall, List.map_map]
  rfl

end ConstructorText

/-- The parameters of a constructor are recovered whatever the line breaks. If its signature stands in a class,
outside the other methods and behind no other constructor, then it is the constructor of the class, with its
parameters as they are written, and the signature ends on its last line. In particular a class is found that has
its constructor directly behind its header, where no signature is open. -/
theorem constructor_parameters_recovered (t : ConstructorText) (ht : ∀ p ∈ t.params, isInjected p.2.chars = true)
    (above below : List Line) :
    (∀ c ∈ classes (above ++ (t.lines ++ below)), c.startLine < above.length → above.length ≤ c.endLine →
      (¬ ∃ m ∈ c.methods, m.Covers above.length) →
      (∀ m ∈ c.methods, m.startLine < above.length → m.name ≠ constructorName) → t.Constructs c above.length) ∧
    ∀ earlier n, above = earlier ++ [classLine n] → (State.outside.read 0 earlier).2.inHeader = false →
      t.indent ≠ [] →
      ∃ c ∈ classes (above ++ (t.lines ++ below)), c.name = String.ofList n.chars ∧ c.startLine = earlier.length ∧
        t.Constructs c above.length := by
  constructor
  · intro c hc h1 h2 hcover hfirst
    have hstarts := (starts_method_iff hc h1 h2 t.heads_lines).2 hcover
    obtain ⟨m, hm, -⟩ := List.mem_map.1 (hstarts ▸ List.mem_singleton_self constructorName)
    obtain ⟨hm, hstart⟩ := List.mem_filter.1 hm
    exact t.constructs ht hc hm (of_decide_eq_true hstart) hfirst
  · rintro earlier n rfl hst hindent
    obtain ⟨c, hc, hname, hclass, m, hm, hstart⟩ := t.exists_class n hst hindent below
    have hlength : (earlier ++ [classLine n]).length = earlier.length + 1 := List.length_append
    refine ⟨c, hc, hname, hclass, ConstructorText.constructs ht hc hm (hstart.trans hlength.symm) ?_⟩
    intro a ha hlt
    obtain ⟨hbehind, -⟩ := (classes_wellFormed hc).methods a ha
    omega

def brokenConstructor : ConstructorText where
  indent := "    ".toList
  blank := List.all_eq_true.1 (by decide)
  noBreak := by decide
  params := [
    (⟨"\n        ".toList, List.all_eq_true.1 (by decide)⟩,
      ⟨"index: Dict[str, Tuple[int, int]]".toList, by decide, by decide +kernel, by decide +kernel, by decide +kernel,
        by decide +kernel⟩),
    (⟨" ".toList, List.all_eq_true.1 (by decide)⟩,
      ⟨"start=(0, 0)".toList, by decide, by decide +kernel, by decide +kernel, by decide +kernel, by decide +kernel⟩)]
  last := ⟨"\n  ".toList, List.all_eq_true.1 (by decide)⟩

theorem constructor_parameters_recovered_broken :
    let store : Name := ⟨"Store".toList, by decide, List.all_eq_true.1 (by decide)⟩
    (∀ p ∈ brokenConstructor.params, isInjected p.2.chars = true) ∧
      brokenConstructor.lines = ["    def __init__(self,".toList,
        "        index: Dict[str, Tuple[int, int]], start=(0, 0)".toList, "  ):".toList] ∧
      ∃ c ∈ classes ([classLine store] ++ (brokenConstructor.lines ++ ["        pass".toList])),
        c.name = "Store" ∧ c.startLine = 0 ∧ brokenConstructor.Constructs c 1 := by
  intro store
  have hinjected : ∀ p ∈ brokenConstructor.params, isInjected p.2.chars = true := by decide +kernel
  exact ⟨hinjected, by decide +kernel,
    (constructor_parameters_recovered brokenConstructor hinjected _ _).2 [] store rfl rfl (by decide)⟩

end Indented

end DesignLint
