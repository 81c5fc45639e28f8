import DesignLint.Proofs.LongerLines
import DesignLint.Proofs.SignatureWalk

/-! Comments at the ends of the lines of a signature. A comment is read like the rest of its line: its
parentheses count, so that they may end the signature earlier or later, and inside the parameter list of a
constructor it is part of the list. -/

namespace DesignLint

def ClassDecl.withoutParams (c : ClassDecl) : ClassDecl :=
  { c with constructor? := c.constructor?.map fun k => { k with params := [] } }

namespace Indented

open Source Pattern

def addComment (lines : List Line) (k : Nat) (text : List Char) : List Line :=
  lines.modify k (· ++ comment text)

def openUpTo (lines : List Line) (first last : Nat) : Int := openIn 0 (between lines first last)

/-- With the parentheses of a comment on line `k`, the signature of a method still goes on as long as before,
and no longer. -/
structure CountsKept (lines : List Line) (m : MethodDecl) (k : Nat) (text : List Char) : Prop where
  goesOn : ∀ j, k ≤ j → j < m.headerEnd → 0 < openUpTo lines m.startLine j + parenBalance text
  ends : openUpTo lines m.startLine m.headerEnd + parenBalance text ≤ 0 ∨ m.headerEnd + 1 = lines.length

section Lines

variable {front back : List Line} {line : Line} {text : List Char}

theorem exists_split {lines : List Line} {k : Nat} (h : lines[k]? = some line) :
    ∃ front back, lines = front ++ line :: back ∧ front.length = k := by
  obtain ⟨hlt, rfl⟩ := List.getElem?_eq_some_iff.1 h
  refine ⟨lines.take k, lines.drop (k + 1), ?_, List.length_take_of_le hlt.le⟩
  rw [← List.drop_eq_getElem_cons hlt, List.take_append_drop]

theorem addComment_eq : addComment (front ++ line :: back) front.length text =
    front ++ (line ++ comment text) :: back := by
  rw [addComment, List.modify_eq_take_cons_drop (by simp)]
  simp

theorem parenBalance_comment : parenBalance (comment text) = parenBalance text := by
  rw [comment, parenBalance_append (by decide)]
  have hmark : parenBalance "  # ".toList = 0 := by decide
  rw [hmark, zero_add]

theorem openIn_append (depth : Int) (above below : List Line) :
    openIn depth (above ++ below) = openIn (openIn depth above) below := by
  simp only [openIn, List.map_append, List.sum_append, add_assoc]

theorem between_front {last : Nat} (h : last < front.length) (first : Nat) (rest : List Line) :
    between (front ++ rest) first last = between front first last := by
  rw [between, between, List.take_append_of_le_length h]

theorem between_split {first last : Nat} (hfirst : first ≤ front.length) (hlast : front.length ≤ last) :
    between (front ++ line :: back) first last =
      front.drop first ++ line :: back.take (last - front.length) := by
  have htake : (front ++ line :: back).take (last + 1) =
      front ++ line :: back.take (last - front.length) := by
    rw [List.take_append, List.take_of_length_le (by omega), Nat.sub_add_comm hlast, List.take_succ_cons]
  rw [between, htake, List.drop_append_of_le_length hfirst]

/-- A comment counts from its line on. -/
theorem openUpTo_comment (hquotes : quotesClose none line = true) {first : Nat} (hfirst : first ≤ front.length)
    (back : List Line) (text : List Char) (last : Nat) :
    openUpTo (front ++ (line ++ comment text) :: back) first last =
      openUpTo (front ++ line :: back) first last + if front.length ≤ last then parenBalance text else 0 := by
  split_ifs with hlast
  · rw [openUpTo, openUpTo, between_split hfirst hlast, between_split hfirst hlast]
    simp only [openIn_append, openIn_cons, parenBalance_append hquotes, parenBalance_comment]
    simp only [openIn]
    ring
  · rw [openUpTo, openUpTo, between_front (by omega), between_front (by omega), add_zero]

end Lines

section Counts

variable {lines : List Line} {start last : Nat} {header : Line} (hheader : lines[start]? = some header)

include hheader

theorem openAfter_zero : openAfter lines start 0 = max 0 (openUpTo lines start start) := by
  have hbetween := between_eq hheader 0
  rw [Nat.add_zero] at hbetween
  rw [openAfter_eq hheader, openUpTo, hbetween, List.take_zero, openIn_nil, openIn_cons, zero_add, openIn_nil]

theorem openAfter_of_pos (h : 0 < openUpTo lines start start) (n : Nat) :
    openAfter lines start n = openUpTo lines start (start + n) := by
  have hzero := openAfter_zero hheader
  rw [max_eq_right h.le] at hzero
  have hbetween := between_eq hheader 0
  rw [Nat.add_zero, List.take_zero] at hbetween
  rw [openUpTo, hbetween, openIn_cons, zero_add, openIn_nil] at h
  rw [openAfter_eq hheader, openUpTo, between_eq hheader, openIn_cons, zero_add, max_eq_right h.le]

/-- Whether a signature goes on up to line `last` can be told from the counts of all its parentheses. -/
theorem signature_iff (hle : start ≤ last) {E : Prop} :
    ((∀ n, start + n < last → 0 < openAfter lines start n) ∧ (openAfter lines start (last - start) ≤ 0 ∨ E)) ↔
      (∀ j, start ≤ j → j < last → 0 < openUpTo lines start j) ∧ (openUpTo lines start last ≤ 0 ∨ E) := by
  rcases hle.eq_or_lt with rfl | hlt
  · rw [Nat.sub_self, openAfter_zero hheader]
    have hmax : max 0 (openUpTo lines start start) ≤ 0 ↔ openUpTo lines start start ≤ 0 := by omega
    rw [hmax]
    exact and_congr_left fun _ => ⟨fun _ j h₁ h₂ => absurd h₂ (not_lt.2 h₁), fun _ n hn => by omega⟩
  · constructor
    · rintro ⟨hopen, hend⟩
      have hpos : 0 < openUpTo lines start start := by
        have hzero := hopen 0 hlt
        rw [openAfter_zero hheader] at hzero
        omega
      have hsame := openAfter_of_pos hheader hpos
      rw [hsame, Nat.add_sub_cancel' hle] at hend
      refine ⟨fun j h₁ h₂ => ?_, hend⟩
      have hj := hopen (j - start) (by omega)
      rwa [hsame, Nat.add_sub_cancel' h₁] at hj
    · rintro ⟨hopen, hend⟩
      have hsame := openAfter_of_pos hheader (hopen start le_rfl hlt)
      rw [hsame, Nat.add_sub_cancel' hle]
      refine ⟨fun n hn => ?_, hend⟩
      rw [hsame]
      exact hopen (start + n) (Nat.le_add_right _ _) hn

end Counts

section Header

/-- The header of a method, with the blanks before it and what follows its parenthesis. -/
theorem exists_methodForm {line : Line} {name : Taken} {rest : List Char}
    (h : methodHeader.match? (Text.trim line) = some (name, rest)) :
    ∃ (n : Name) (blanks lead gap behind : List Char), name = n.taken ∧ MethodLead lead ∧
      line = blanks ++ (lead ++ (n.chars ++ (gap ++ '(' :: behind))) ∧
      (∀ c ∈ blanks, Text.isBlank c = true) ∧ ∀ c ∈ gap, Text.isBlank c = true := by
  obtain ⟨n, rfl, lead, gap, htrim, hlead, hgap⟩ := methodForm_of_match? h
  obtain ⟨blanks, trail, hline, hblanks⟩ := Text.exists_trim line
  refine ⟨n, blanks, lead, gap, rest ++ trail, rfl, hlead, ?_, hblanks, hgap⟩
  rw [htrim] at hline
  simpa using hline

/-- Text behind the header does not change that it begins a method. -/
theorem Begins.append {st : State} {line : Line} {c : OpenClass} {name : Taken} (h : Begins st line c name)
    (u : List Char) : Text.indent (line ++ u) = Text.indent line ∧ Begins st (line ++ u) c name := by
  obtain ⟨rest, hmatch⟩ := h.header
  obtain ⟨n, blanks, lead, gap, behind, rfl, hlead, rfl, hblanks, hgap⟩ := exists_methodForm hmatch
  have hassoc : blanks ++ (lead ++ (n.chars ++ (gap ++ '(' :: behind))) ++ u =
      blanks ++ (lead ++ (n.chars ++ (gap ++ '(' :: (behind ++ u)))) := by simp
  have hindent : Text.indent (blanks ++ (lead ++ (n.chars ++ (gap ++ '(' :: behind))) ++ u) =
      Text.indent (blanks ++ (lead ++ (n.chars ++ (gap ++ '(' :: behind)))) := by
    rw [hassoc, Text.indent_eq hblanks (hlead.isBlank_head _), Text.indent_eq hblanks (hlead.isBlank_head _)]
  have htrim : Text.trim (blanks ++ (lead ++ (n.chars ++ (gap ++ '(' :: behind))) ++ u) =
      lead ++ (n.chars ++ (gap ++ '(' :: Text.trimEnd (behind ++ u))) := by
    have hend := Text.trimEnd_append_cons (c := '(') (by decide) (lead ++ (n.chars ++ gap)) (behind ++ u)
    rw [hassoc, Text.trim_eq hblanks (hlead.isBlank_head _)]
    simpa using hend
  have hform : MethodForm n (Text.trimEnd (behind ++ u))
      (Text.trim (blanks ++ (lead ++ (n.chars ++ (gap ++ '(' :: behind))) ++ u)) :=
    ⟨lead, gap, htrim, hlead, hgap⟩
  refine ⟨hindent, h.inHeader, ?_, h.class?, ?_, ?_, _, match?_methodHeader hform⟩
  · rw [hindent]
    exact h.inBody
  · rw [htrim]
    exact hlead.classHeader_none _
  · rw [hindent]
    exact h.deeper

end Header

section Walk

variable {front back : List Line} {line : Line} (hquotes : quotesClose none line = true) {m : MethodDecl}
  (hstart : m.startLine ≤ front.length) (hend : front.length ≤ m.headerEnd) (text : List Char)

include hquotes hstart hend

/-- The counts are kept exactly if the signature ends where it did. -/
theorem countsKept_iff (hheaded : Headed (front ++ line :: back) m) :
    CountsKept (front ++ line :: back) m front.length text ↔
      Headed (front ++ (line ++ comment text) :: back) m ∧
        (openBehind (front ++ (line ++ comment text) :: back) m ≤ 0 ∨
          m.headerEnd + 1 = (front ++ (line ++ comment text) :: back).length) := by
  have hlength : (front ++ (line ++ comment text) :: back).length = (front ++ line :: back).length := by simp
  have hlt : m.startLine < (front ++ line :: back).length := by
    rw [List.length_append, List.length_cons]
    omega
  have hheader := List.getElem?_eq_getElem hlt
  have hheader' := List.getElem?_eq_getElem (hlength.symm ▸ hlt)
  have hlines := (signature_iff hheader hheaded.start_le (E := True)).1 ⟨hheaded.goesOn, .inr trivial⟩
  rw [openBehind, hlength]
  have hcomment := signature_iff hheader' hheaded.start_le
    (E := m.headerEnd + 1 = (front ++ line :: back).length)
  have hcount := openUpTo_comment hquotes hstart back text
  constructor
  · rintro ⟨hgoesOn, hends⟩
    have hgoesOn' : ∀ j, m.startLine ≤ j → j < m.headerEnd →
        0 < openUpTo (front ++ (line ++ comment text) :: back) m.startLine j := by
      intro j h₁ h₂
      rw [hcount]
      split_ifs with hk
      · exact hgoesOn j hk h₂
      · rw [add_zero]
        exact hlines.1 j h₁ h₂
    obtain ⟨hopen, hlast⟩ := hcomment.2 ⟨hgoesOn', by rw [hcount, if_pos hend]; exact hends⟩
    exact ⟨⟨hheaded.start_le, hopen⟩, hlast⟩
  · rintro ⟨⟨-, hgoesOn⟩, hends⟩
    obtain ⟨hopen, hlast⟩ := hcomment.1 ⟨hgoesOn, hends⟩
    rw [hcount, if_pos hend] at hlast
    refine ⟨fun j h₁ h₂ => ?_, hlast⟩
    have hj := hopen j (hstart.trans h₁) h₂
    rwa [hcount, if_pos h₁] at hj

/-- A comment that keeps the counts changes nothing that the walk gives. -/
theorem walk_comment {d : ClassDecl} (hd : d ∈ State.outside.walk 0 (front ++ line :: back))
    (hm : m ∈ d.methods)
    (hlines : Headed (front ++ line :: back) m ∧ (openBehind (front ++ line :: back) m ≤ 0 ∨
      m.headerEnd + 1 = (front ++ line :: back).length))
    (hkept : CountsKept (front ++ line :: back) m front.length text) :
    State.outside.walk 0 (front ++ (line ++ comment text) :: back) =
      State.outside.walk 0 (front ++ line :: back) := by
  obtain ⟨hheaded, hends⟩ := hlines
  obtain ⟨hheaded', hends'⟩ := (countsKept_iff hquotes hstart hend text hheaded).1 hkept
  obtain ⟨header, c, name, hheader, hbegins⟩ := begins_of_mem hd hm
  have hbefore : before (front ++ (line ++ comment text) :: back) m.startLine =
      before (front ++ line :: back) m.startLine := by
    rw [before, before, List.take_append_of_le_length hstart, List.take_append_of_le_length hstart]
  have hafter : (front ++ (line ++ comment text) :: back).drop (m.headerEnd + 1) =
      (front ++ line :: back).drop (m.headerEnd + 1) := by
    rw [List.drop_append, List.drop_append, Nat.sub_add_comm hend, List.drop_succ_cons, List.drop_succ_cons]
  -- the header itself may be the line with the comment
  obtain ⟨header', hheader', hindent, hbegins'⟩ : ∃ header',
      (front ++ (line ++ comment text) :: back)[m.startLine]? = some header' ∧
        Text.indent header' = Text.indent header ∧
        Begins (before (front ++ (line ++ comment text) :: back) m.startLine).2 header' c name := by
    rw [hbefore]
    rcases hstart.eq_or_lt with heq | hlt
    · have hget : ∀ x : Line, (front ++ x :: back)[m.startLine]? = some x := by simp [heq]
      obtain rfl : line = header := Option.some.inj ((hget line).symm.trans hheader)
      exact ⟨_, hget _, hbegins.append _⟩
    · rw [List.getElem?_append_left hlt] at hheader ⊢
      exact ⟨header, hheader, rfl, hbegins⟩
  have hmethod : ∀ parens, (OpenMethod.begin name.chars m.startLine header').headerTo m.headerEnd parens =
      { (OpenMethod.begin name.chars m.startLine header).headerTo m.headerEnd 0 with
        openParens := parens } := by
    intro parens
    simp only [OpenMethod.headerTo, OpenMethod.begin, hindent]
  have hlast : m.headerEnd < (front ++ line :: back).length := by
    obtain ⟨hlaid, hlength⟩ := (walk_layout (front ++ line :: back)).closed d hd
    obtain ⟨-, -, h₁, h₂⟩ := hlaid.methods m hm
    omega
  rw [walk_signature hheader' hbegins' hheaded'.start_le (by simpa using hlast) hheaded'.goesOn,
    walk_signature hheader hbegins hheaded.start_le hlast hheaded.goesOn, hbefore, hafter, hmethod]
  by_cases hlength : m.headerEnd + 1 = (front ++ line :: back).length
  · rw [hlength, List.drop_length]
    rfl
  · have hsettled := walk_settled c ((OpenMethod.begin name.chars m.startLine header).headerTo m.headerEnd 0)
      (hends.resolve_right hlength) (m.headerEnd + 1) ((front ++ line :: back).drop (m.headerEnd + 1))
    have hsettled' := walk_settled c ((OpenMethod.begin name.chars m.startLine header).headerTo m.headerEnd 0)
      (hends'.resolve_right (by simpa using hlength)) (m.headerEnd + 1)
      ((front ++ line :: back).drop (m.headerEnd + 1))
    exact congrArg _ (hsettled'.trans hsettled.symm)

end Walk

section Parameters

def signatureText : List Line → List Char
  | [] => []
  | header :: rest => (Group.read (header.drop ((Text.find? constructorName.toList header).getD 0)) rest).text

theorem signatureParams_eq (lines : List Line) : signatureParams lines =
    ((parameters (signatureText lines)).filter isInjected).map String.ofList := by
  cases lines with
  | nil => rfl
  | cons header rest => rfl

theorem mem_signatureParams {lines : List Line} {p : List Char} (hp : p ∈ parameters (signatureText lines))
    (h : isInjected p = true) : String.ofList p ∈ signatureParams lines := by
  rw [signatureParams_eq]
  exact List.mem_map_of_mem (List.mem_filter.2 ⟨hp, h⟩)

theorem read_of_dropWhile {row s : List Char} (h : row.dropWhile (· != '(') = '(' :: s) (rest : List Line) :
    (Group.read row rest).text = joinPieces (groupPieces 1 (s :: rest)).1 ∧
      (Group.read row rest).isClosed = (groupPieces 1 (s :: rest)).2.isSome := by
  rw [Group.read, h]
  cases hpieces : groupPieces 1 (s :: rest) with
  | mk pieces k =>
    cases k with
    | none => simp only [hpieces]; exact ⟨rfl, rfl⟩
    | some k => simp only [hpieces]; exact ⟨rfl, rfl⟩

variable {lines : List Line} {c : ClassDecl} {m : MethodDecl}

/-- The parameter list of a constructor is read from the parenthesis behind its name on. -/
theorem signatureText_header {lead gap : List Char}
    (hplain : ∀ c ∈ lead ++ (constructorName.toList ++ gap), isPlain c = true) (behind : List Char) (rest : List Line) :
    signatureText ((lead ++ (constructorName.toList ++ (gap ++ '(' :: behind))) :: rest) =
        joinPieces (groupPieces 1 (behind :: rest)).1 ∧
      signatureCloses constructorName ((lead ++ (constructorName.toList ++ (gap ++ '(' :: behind))) :: rest) =
        (groupPieces 1 (behind :: rest)).2.isSome := by
  obtain ⟨p, hp, hfind⟩ := Text.exists_find? constructorName.toList lead (gap ++ '(' :: behind)
  have hassoc : lead ++ (constructorName.toList ++ (gap ++ '(' :: behind)) =
      lead ++ (constructorName.toList ++ gap) ++ '(' :: behind := by
    simp only [List.append_assoc]
  have hparen : '(' ∉ lead ++ (constructorName.toList ++ gap) := by
    intro hmem
    cases hplain _ hmem
  have hcolumn : '(' ∉ (lead ++ (constructorName.toList ++ gap) ++ '(' :: behind).take p := by
    intro hmem
    rw [List.append_assoc, List.take_append_of_le_length hp] at hmem
    exact hparen (List.mem_append_left _ (List.mem_of_mem_take hmem))
  have hread := read_of_dropWhile (dropWhile_first hparen hcolumn) rest
  rw [← hassoc] at hread
  rw [signatureText, signatureCloses, hfind]
  exact hread

/-- The parameter list of a constructor opens on its header, whatever is added behind the header. -/
theorem exists_group (hc : c ∈ classes lines) (hm : m ∈ c.methods) (hname : m.name = constructorName) :
    ∃ header behind, lines[m.startLine]? = some header ∧
      (quotesClose none header = true → quotesClose none behind = true) ∧
      ∀ u rest, signatureText ((header ++ u) :: rest) = joinPieces (groupPieces 1 ((behind ++ u) :: rest)).1 ∧
        signatureCloses constructorName ((header ++ u) :: rest) =
          (groupPieces 1 ((behind ++ u) :: rest)).2.isSome := by
  obtain ⟨lead, gap, behind, hheader, hplain⟩ := exists_header hc hm
  rw [hname] at hheader hplain
  refine ⟨_, behind, hheader, fun hquotes => ?_, fun u rest => ?_⟩
  · have hassoc : lead ++ (constructorName.toList ++ (gap ++ '(' :: behind)) =
        lead ++ (constructorName.toList ++ gap) ++ '(' :: behind := by
      simp only [List.append_assoc]
    rw [hassoc] at hquotes
    exact (parenBalance_of_first hplain behind hquotes).1
  · have hread := signatureText_header hplain (behind ++ u) rest
    simpa only [List.append_assoc, List.cons_append] using hread

end Parameters

section Comments

variable {front back : List Line} {line : Line} (hquotes : quotesClose none line = true) {c : ClassDecl}
  (hc : c ∈ classes (front ++ line :: back)) {m : MethodDecl} (hm : m ∈ c.methods)
  (hname : m.name = constructorName) (hstart : m.startLine ≤ front.length) (text : List Char)

include hquotes hc hm hname hstart

/-- The rows from which the parameters of a constructor are read, with and without a comment. -/
theorem exists_rows : ∃ above row, quotesClose none row = true ∧
    signatureText ((front ++ line :: back).drop m.startLine) =
      joinPieces (groupPieces 1 (above ++ row :: back)).1 ∧
    signatureText ((front ++ (line ++ comment text) :: back).drop m.startLine) =
      joinPieces (groupPieces 1 (above ++ (row ++ comment text) :: back)).1 ∧
    signatureCloses constructorName (between (front ++ line :: back) m.startLine front.length) =
      (groupPieces 1 (above ++ [row])).2.isSome := by
  obtain ⟨header, behind, hheader, hbehind, hgroup⟩ := exists_group hc hm hname
  have hplain := fun rest => hgroup [] rest
  simp only [List.append_nil] at hplain
  rw [between_split hstart le_rfl, Nat.sub_self, List.take_zero, List.drop_append_of_le_length hstart,
    List.drop_append_of_le_length hstart]
  rcases hstart.eq_or_lt with heq | hlt
  · have hget : (front ++ line :: back)[m.startLine]? = some line := by simp [heq]
    obtain rfl : line = header := Option.some.inj (hget.symm.trans hheader)
    rw [heq, List.drop_length]
    exact ⟨[], behind, hbehind hquotes, (hplain back).1, (hgroup (comment text) back).1, (hplain []).2⟩
  · rw [List.getElem?_append_left hlt] at hheader
    obtain ⟨_, rfl⟩ := List.getElem?_eq_some_iff.1 hheader
    rw [List.drop_eq_getElem_cons hlt]
    exact ⟨behind :: front.drop (m.startLine + 1), line, hquotes, (hplain _).1, (hplain _).1, (hplain _).2⟩

/-- A parameter list that closes before the comment does not change. -/
theorem signatureText_of_closed
    (h : signatureCloses constructorName (between (front ++ line :: back) m.startLine front.length) = true) :
    signatureText ((front ++ (line ++ comment text) :: back).drop m.startLine) =
      signatureText ((front ++ line :: back).drop m.startLine) := by
  obtain ⟨above, row, -, hlines, hcomment, hcloses⟩ := exists_rows hquotes hc hm hname hstart text
  rw [hcloses] at h
  obtain ⟨k, hk⟩ := Option.isSome_iff_exists.1 h
  have hrow := groupPieces_closed hk [] back
  rw [List.append_nil] at hrow
  rw [hlines, hcomment, groupPieces_closed hk, hrow]

/-- A parameter list that goes on takes in the comment. -/
theorem mem_signatureText_of_open
    (h : signatureCloses constructorName (between (front ++ line :: back) m.startLine front.length) = false) :
    '#' ∈ signatureText ((front ++ (line ++ comment text) :: back).drop m.startLine) := by
  obtain ⟨above, row, hrow, -, hcomment, hcloses⟩ := exists_rows hquotes hc hm hname hstart text
  rw [hcloses, Option.isSome_eq_false_iff, Option.isNone_iff_eq_none] at h
  rw [hcomment]
  exact mem_joinPieces (by decide) (groupPieces_comment hrow h text back)

end Comments

theorem withoutParams_findConstructor (lines lines' : List Line) (c : ClassDecl) :
    (findConstructor lines c).withoutParams = (findConstructor lines' c).withoutParams := by
  simp only [ClassDecl.withoutParams, findConstructor, Option.map_map]
  rfl

/-- A constructor keeps its parameters if its parameter list starts below the comment or closes before it. -/
theorem findConstructor_comment {front back : List Line} {line : Line} (hquotes : quotesClose none line = true)
    {d : ClassDecl} (hd : d ∈ State.outside.walk 0 (front ++ line :: back)) (text : List Char)
    (h : ∀ b ∈ (findConstructor (front ++ line :: back) d).constructor?, b.startLine ≤ front.length →
      signatureCloses constructorName (between (front ++ line :: back) b.startLine front.length) = true) :
    findConstructor (front ++ (line ++ comment text) :: back) d = findConstructor (front ++ line :: back) d := by
  unfold findConstructor at h ⊢
  cases hfind : d.methods.find? (·.name == constructorName) with
  | none => rfl
  | some m =>
    have hcloses := h ⟨m.startLine, m.endLine, signatureParams ((front ++ line :: back).drop m.startLine)⟩
      (by rw [hfind]; rfl)
    have htext : signatureText ((front ++ (line ++ comment text) :: back).drop m.startLine) =
        signatureText ((front ++ line :: back).drop m.startLine) := by
      rcases Nat.lt_or_ge front.length m.startLine with hlt | hle
      · obtain ⟨n, hn⟩ : ∃ n, m.startLine - front.length = n + 1 := ⟨m.startLine - front.length - 1, by omega⟩
        rw [List.drop_append, List.drop_append, hn, List.drop_succ_cons, List.drop_succ_cons]
      · exact signatureText_of_closed hquotes (mem_classes.2 ⟨d, hd, rfl⟩) (List.mem_of_find?_eq_some hfind)
          (by simpa using List.find?_some hfind) hle text (hcloses hle)
    simp only [Option.map_some, signatureParams_eq, htext]

/-- A comment without parentheses of its own, or with as many of both kinds, keeps the counts. -/
theorem countsKept_of_balanced {lines : List Line} {c : ClassDecl} (hc : c ∈ classes lines) {m : MethodDecl}
    (hm : m ∈ c.methods) {k : Nat} (hstart : m.startLine ≤ k) {text : List Char} (h : parenBalance text = 0) :
    CountsKept lines m k text := by
  obtain ⟨hheaded, hends⟩ := classes_signed hc hm
  obtain ⟨lead, gap, behind, hheader, -⟩ := exists_header hc hm
  obtain ⟨hgoesOn, hlast⟩ := (signature_iff hheader hheaded.start_le).1 ⟨hheaded.goesOn, hends⟩
  refine ⟨fun j h₁ h₂ => ?_, ?_⟩
  · rw [h, add_zero]
    exact hgoesOn j (hstart.trans h₁) h₂
  · rwa [h, add_zero]

/-- A comment at the end of a line of a signature, where the quotes close. Apart from the parameters of
constructors the classes stay the same exactly if the parentheses of the comment keep the counts of the
signature. If so, and if every parameter list of a constructor that starts above the comment closes before it,
then nothing changes. If a parameter list does not close before the comment, then one of its entries takes the
mark in, and it is among the parameters unless it declares the object itself or a separator. -/
theorem comment_in_signature (lines : List Line) {c : ClassDecl} (hc : c ∈ classes lines) {m : MethodDecl}
    (hm : m ∈ c.methods) {k : Nat} (hstart : m.startLine ≤ k) (hend : k ≤ m.headerEnd) {line : Line}
    (hline : lines[k]? = some line) (hquotes : quotesClose none line = true) (text : List Char) :
    ((classes (addComment lines k text)).map (·.withoutParams) = (classes lines).map (·.withoutParams) ↔
      CountsKept lines m k text) ∧
    (parenBalance text = 0 → CountsKept lines m k text) ∧
    (CountsKept lines m k text →
      (∀ d ∈ classes lines, ∀ b ∈ d.constructor?, b.startLine ≤ k →
        signatureCloses constructorName (between lines b.startLine k) = true) →
      classes (addComment lines k text) = classes lines) ∧
    ∀ d ∈ classes lines, ∀ b ∈ d.constructor?, b.startLine ≤ k →
      signatureCloses constructorName (between lines b.startLine k) = false →
      ∃ p ∈ parameters (signatureText ((addComment lines k text).drop b.startLine)), '#' ∈ p ∧
        (isInjected p = true → String.ofList p ∈ signatureParams ((addComment lines k text).drop b.startLine)) := by
  obtain ⟨front, back, rfl, rfl⟩ := exists_split hline
  rw [addComment_eq]
  obtain ⟨d, hd, rfl⟩ := mem_classes.1 hc
  have hsigned := classes_signed hc hm
  have hwalk : CountsKept (front ++ line :: back) m front.length text →
      State.outside.walk 0 (front ++ (line ++ comment text) :: back) =
        State.outside.walk 0 (front ++ line :: back) :=
    walk_comment hquotes hstart hend text hd hm hsigned
  refine ⟨⟨fun hsame => ?_, fun hkept => ?_⟩, countsKept_of_balanced hc hm hstart, fun hkept hcloses => ?_, ?_⟩
  · have hmem : (findConstructor (front ++ line :: back) d).withoutParams ∈
        (classes (front ++ (line ++ comment text) :: back)).map (·.withoutParams) :=
      hsame ▸ List.mem_map_of_mem hc
    obtain ⟨e, he, hde⟩ := List.mem_map.1 hmem
    have hmethods := congrArg ClassDecl.methods hde
    exact (countsKept_iff hquotes hstart hend text hsigned.1).2 (classes_signed he (hmethods.symm ▸ hm))
  · simp only [classes, List.map_map, hwalk hkept]
    exact List.map_congr_left fun e _ => withoutParams_findConstructor _ _ e
  · rw [classes, hwalk hkept]
    refine List.map_congr_left fun e he => findConstructor_comment hquotes he text fun b hb => ?_
    exact hcloses _ (mem_classes.2 ⟨e, he, rfl⟩) b hb
  · intro e he b hb hle hopen
    obtain ⟨e, he', rfl⟩ := mem_classes.1 he
    obtain ⟨above, a, below, hsplit, hname, -, hsame, -⟩ := findConstructor_spec hb
    have ha : a ∈ e.methods := by simp [hsplit]
    rw [hsame] at hle hopen ⊢
    have hmark := mem_signatureText_of_open hquotes he ha hname hle text hopen
    obtain ⟨p, hp, hmem⟩ := exists_mem_parameters (by decide) (by decide) hmark
    exact ⟨p, hp, hmem, mem_signatureParams hp⟩

/-- Behind the parameter list a comment changes nothing, with a quote that does not close and parentheses that
do; before the end of the list it is taken in. -/
theorem comment_in_signature_quote :
    let lines : List Line := ["class Job:".toList, "    def __init__(self, mark=\"'\",".toList,
      "                 size=2):".toList, "        pass".toList]
    let init : MethodDecl := { name := "__init__", startLine := 1, endLine := 3, headerEnd := 2 }
    let job : ClassDecl := {
      name := "Job", startLine := 0, endLine := 3, methods := [init]
      constructor? := some ⟨1, 3, ["mark=\"'\"", "size=2"]⟩ }
    classes lines = [job] ∧
      CountsKept lines init 2 "it's (2)".toList ∧
      classes (addComment lines 2 "it's (2)".toList) = classes lines ∧
      ∃ p ∈ parameters (signatureText ((addComment lines 1 "one )".toList).drop 1)), '#' ∈ p := by
  intro lines init job
  have hclasses : classes lines = [job] := by decide +kernel
  have hc : job ∈ classes lines := hclasses ▸ List.mem_singleton_self job
  have hm := List.mem_singleton_self init
  obtain ⟨-, hbalanced, hsame, -⟩ :=
    comment_in_signature lines hc hm (by decide) (by decide) (k := 2) rfl (by decide) "it's (2)".toList
  obtain ⟨-, -, -, hopen⟩ :=
    comment_in_signature lines hc hm (by decide) (by decide) (k := 1) rfl (by decide) "one )".toList
  have hkept := hbalanced (by decide)
  obtain ⟨p, hp, hmark, -⟩ := hopen _ hc _ rfl (by decide) (by decide +kernel)
  exact ⟨hclasses, hkept, hsame hkept (by decide +kernel), p, hp, hmark⟩

/-- A parenthesis in a comment hides the next method, and a comment inside a parameter list is part of a
parameter. -/
theorem comment_changes_classes :
    let methods : List Line := ["class A:".toList, "    def f(self):".toList, "        return self.x".toList,
      "    def g(self):".toList, "        return self.y".toList]
    let params : List Line := ["class A:".toList, "    def __init__(self,".toList, "                 x):".toList,
      "        self.x = x".toList]
    (classes (addComment methods 1 "(".toList)).map (·.methods.map (·.name)) = [["f"]] ∧
      (classes methods).map (·.methods.map (·.name)) = [["f", "g"]] ∧
      (classes (addComment params 1 "the value".toList)).map (·.constructor?) =
        [some ⟨1, 3, ["# the value x"]⟩] ∧
      (classes params).map (·.constructor?) = [some ⟨1, 3, ["x"]⟩] := by
  decide +kernel

end Indented

end DesignLint
