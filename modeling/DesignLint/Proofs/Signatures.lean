import DesignLint.Proofs.Headers
import DesignLint.Proofs.IndentedDeclarations
import DesignLint.Proofs.Quotes
import Mathlib.Data.List.TakeWhile

/-! Where the signature of a method ends. The walk counts the parentheses line by line and goes on with a
signature while they leave any open; the group of the parameters is read character by character up to its
closing parenthesis. Where the quotes close, both come to the same line. -/

namespace DesignLint

namespace Source

/-- A character that passes a test is plain if the test fails on quotes and parentheses. -/
theorem isPlain_of {ok : Char → Bool} (h : ['\x27', '\x22', '\x60', '(', ')'].any ok = false) {c : Char}
    (hc : ok c = true) : isPlain c = true := by
  by_contra hplain
  have hmem : c ∈ ['\x27', '\x22', '\x60', '(', ')'] := by
    simp only [isPlain, isQuote, Bool.not_eq_true, Bool.and_eq_false_iff, Bool.not_eq_false',
      bne_eq_false_iff_eq, Bool.or_eq_true, beq_iff_eq] at hplain
    simp only [List.mem_cons, List.not_mem_nil, or_false]
    tauto
  exact List.any_eq_false.1 h c hmem hc

end Source

namespace Indented

open Source Pattern

theorem MethodLead.forall_isPlain {lead : List Char} (h : MethodLead lead) : ∀ c ∈ lead, isPlain c = true := by
  have hdef : ∀ c ∈ "def".toList, isPlain c = true := List.all_eq_true.1 (by decide)
  have hasync : ∀ c ∈ "async".toList, isPlain c = true := List.all_eq_true.1 (by decide)
  have hblank : ∀ c, Text.isBlank c = true → isPlain c = true := fun _ => isPlain_of (by decide)
  cases h with
  | plain _ hgap => exact List.forall_mem_append.2 ⟨hdef, fun c hc => hblank c (hgap c hc)⟩
  | async _ hbefore _ hgap =>
    refine List.forall_mem_append.2 ⟨hasync, List.forall_mem_append.2 ⟨fun c hc => hblank c (hbefore c hc), ?_⟩⟩
    exact List.forall_mem_append.2 ⟨hdef, fun c hc => hblank c (hgap c hc)⟩

/-- The header of a method: nothing that counts stands before the parenthesis, and the name stands there. -/
theorem methodHeader_shape {s rest : List Char} {name : Taken} (h : methodHeader.match? s = some (name, rest)) :
    ∃ before gap, s = before ++ (name.chars ++ (gap ++ '(' :: rest)) ∧
      ∀ c ∈ before ++ (name.chars ++ gap), isPlain c = true := by
  obtain ⟨n, rfl, lead, gap, rfl, hlead, hgap⟩ := methodForm_of_match? h
  refine ⟨lead, gap, by simp, List.forall_mem_append.2 ⟨hlead.forall_isPlain, ?_⟩⟩
  refine List.forall_mem_append.2 ⟨?_, ?_⟩
  · intro c hc
    exact isPlain_of (by decide) (n.isWord c (by simpa using hc))
  · exact fun c hc => isPlain_of (by decide) (hgap c hc)

section Headers

variable {lines : List Line}

/-- The parentheses that a signature leaves open `n` lines behind its first line. -/
def openAfter (lines : List Line) (start n : Nat) : Int :=
  openIn (max 0 (parenBalance (lines.getD start []))) ((lines.drop (start + 1)).take n)

theorem openAfter_eq {start : Nat} {line : Line} (h : lines[start]? = some line) (n : Nat) :
    openAfter lines start n = openIn (max 0 (parenBalance line)) ((lines.drop (start + 1)).take n) := by
  rw [openAfter, List.getD_eq_getElem?_getD, h, Option.getD_some]

theorem openAfter_succ {start n : Nat} {line : Line} (h : lines[start + 1 + n]? = some line) :
    openAfter lines start (n + 1) = openAfter lines start n + parenBalance line := by
  rw [openAfter, openAfter, List.take_add_one, List.getElem?_drop, h]
  simp [openIn, add_assoc]

structure Headed (lines : List Line) (m : MethodDecl) : Prop where
  start_le : m.startLine ≤ m.headerEnd
  goesOn : ∀ n, m.startLine + n < m.headerEnd → 0 < openAfter lines m.startLine n

def openBehind (lines : List Line) (m : MethodDecl) : Int :=
  openAfter lines m.startLine (m.headerEnd - m.startLine)

def Settled (lines : List Line) (m : MethodDecl) : Prop :=
  Headed lines m ∧ openBehind lines m ≤ 0

structure OpenMethod.Signs (lines : List Line) (i : Nat) (m : OpenMethod) : Prop where
  headed : Headed lines m.decl
  count : m.openParens = openBehind lines m.decl
  last : 0 < m.openParens → m.decl.headerEnd + 1 = i

theorem OpenMethod.Signs.settled {i : Nat} {m : OpenMethod} (h : m.Signs lines i)
    (hm : m.openParens ≤ 0) : Settled lines m.decl :=
  ⟨h.headed, h.count ▸ hm⟩

def State.Signed (lines : List Line) (i : Nat) : State → Prop
  | .outside => True
  | .inClass c => ∀ m ∈ c.decl.methods, Settled lines m
  | .inMethod c m => (∀ a ∈ c.decl.methods, Settled lines a) ∧ m.Signs lines i

variable {i : Nat} {line : Line} {st st' : State} {closed : List ClassDecl}

/-- Outside a signature all the signatures of the open class have come to their ends. -/
theorem State.Signed.settled (h : st.Signed lines i) (hst : st.inHeader = false) {c : OpenClass}
    (hc : st.class? = some c) : ∀ m ∈ c.decl.methods, Settled lines m := by
  cases st with
  | outside => cases hc
  | inClass d =>
    cases hc
    exact h
  | inMethod d m =>
    cases hc
    intro a ha
    rcases List.mem_append.1 ha with ha | ha
    · exact h.1 a ha
    · rw [List.mem_singleton.1 ha]
      exact h.2.settled (by simpa [State.inHeader] using hst)

theorem State.Signed.close (h : st.Signed lines i) (hst : st.inHeader = false) (last : Nat) :
    ∀ c ∈ st.close last, ∀ m ∈ c.methods, Settled lines m := by
  intro c hc
  rw [State.close_eq, State.draft] at hc
  obtain ⟨d, hd, rfl⟩ := List.mem_map.1 hc
  obtain ⟨open', hopen, rfl⟩ := Option.map_eq_some_iff.1 (Option.mem_toList.1 hd)
  exact h.settled hst hopen

theorem OpenMethod.Signs.extendHeader {m : OpenMethod} (h : m.Signs lines i) (hm : 0 < m.openParens)
    (hline : lines[i]? = some line) : (m.extendHeader i line).Signs lines (i + 1) := by
  have hlast := h.last hm
  have hstart := h.headed.start_le
  refine ⟨⟨?_, fun n hn => ?_⟩, ?_, fun _ => rfl⟩
  · simp only [OpenMethod.extendHeader]
    omega
  · have hn : m.decl.startLine + n < i := hn
    rcases Nat.lt_or_ge (m.decl.startLine + n) m.decl.headerEnd with hlt | hge
    · exact h.headed.goesOn n hlt
    · rw [h.count, openBehind] at hm
      have hn : n = m.decl.headerEnd - m.decl.startLine := by omega
      exact hn ▸ hm
  · obtain ⟨n, hn⟩ : ∃ n, i = m.decl.startLine + 1 + n := ⟨i - (m.decl.startLine + 1), by omega⟩
    have hsize : m.decl.headerEnd - m.decl.startLine = n := by omega
    have hnext : i - m.decl.startLine = n + 1 := by omega
    have hopen := h.count
    rw [openBehind, hsize] at hopen
    simp only [OpenMethod.extendHeader, openBehind]
    rw [hnext, openAfter_succ (hn ▸ hline), hopen]

/-- A line keeps the signatures. -/
theorem Reads.signed (h : Reads i line st closed st') (hline : lines[i]? = some line)
    (hs : st.Signed lines i) :
    (∀ c ∈ closed, ∀ m ∈ c.methods, Settled lines m) ∧ st'.Signed lines (i + 1) := by
  cases h with
  | header hopen => exact ⟨by simp, hs.1, hs.2.extendHeader hopen hline⟩
  | blank hst =>
    refine ⟨by simp, ?_⟩
    cases st with
    | outside => trivial
    | inClass c => exact hs
    | inMethod c m =>
      have hm : m.openParens ≤ 0 := by simpa [State.inHeader] using hst
      exact ⟨hs.1, hs.2.headed, hs.2.count, fun hpos => absurd hpos (not_lt.2 hm)⟩
  | begin hst => exact ⟨hs.close hst _, by simp [State.Signed, OpenClass.begin, ClassDecl.begin]⟩
  | skip => exact ⟨by simp, trivial⟩
  | leave hst => exact ⟨hs.close hst _, trivial⟩
  | @body c m hst =>
    refine ⟨by simp, by simpa using hs.1, ?_⟩
    obtain ⟨⟨hstart, hgoesOn⟩, hcount, -⟩ := hs.2
    refine ⟨⟨?_, ?_⟩, ?_, fun hpos => absurd hpos (not_lt.2 hst)⟩
    · simpa [OpenMethod.extend] using hstart
    · simpa [OpenMethod.extend] using hgoesOn
    · simpa [OpenMethod.extend, openBehind] using hcount
  | method hst hbody hopen =>
    refine ⟨by simp, hs.settled hst hopen, ⟨le_rfl, fun n hn => ?_⟩, ?_, fun _ => rfl⟩
    · exact absurd hn (Nat.not_lt.2 (Nat.le_add_right i n))
    · simp only [OpenMethod.begin, MethodDecl.begin, openBehind, Nat.sub_self]
      rw [openAfter_eq hline, List.take_zero, openIn_nil]
  | other hst hline' hbody hopen => exact ⟨by simp, hs.settled hst hopen⟩

/-- A signature of the open class has come to its end, or to the line before `i`. -/
theorem State.Signed.settled_or_last (h : st.Signed lines i) {c : OpenClass} (hc : st.class? = some c) :
    ∀ m ∈ c.decl.methods, Headed lines m ∧ (openBehind lines m ≤ 0 ∨ m.headerEnd + 1 = i) := by
  intro m hm
  cases hst : st.inHeader with
  | false =>
    obtain ⟨hheaded, hopen⟩ := h.settled hst hc m hm
    exact ⟨hheaded, .inl hopen⟩
  | true =>
    cases st with
    | inMethod d open' =>
      cases hc
      have hpos : 0 < open'.openParens := by simpa [State.inHeader] using hst
      rcases List.mem_append.1 hm with hm | hm
      · exact ⟨(h.1 m hm).1, .inl (h.1 m hm).2⟩
      · rw [List.mem_singleton.1 hm]
        exact ⟨h.2.headed, .inr (h.2.last hpos)⟩
    | outside | inClass => cases hst

/-- Every signature has come to its end, or to the end of the source. -/
theorem classes_signed {c : ClassDecl} (hc : c ∈ classes lines) {m : MethodDecl} (hm : m ∈ c.methods) :
    Headed lines m ∧ (openBehind lines m ≤ 0 ∨ m.headerEnd + 1 = lines.length) := by
  obtain ⟨d, hd, rfl⟩ := mem_classes.1 hc
  obtain ⟨done, st, ⟨hdone, hst⟩, hwalk⟩ := walk_run lines
    (I := fun i done st => (∀ c ∈ done, ∀ m ∈ c.methods, Settled lines m) ∧ st.Signed lines i)
    ⟨by simp, trivial⟩ (fun hline hreads hs => by
      obtain ⟨hclosed, hst'⟩ := hreads.signed hline hs.2
      exact ⟨List.forall_mem_append.2 ⟨hs.1, hclosed⟩, hst'⟩)
  rw [hwalk] at hd
  rcases List.mem_append.1 hd with hd | hd
  · obtain ⟨hheaded, hopen⟩ := hdone d hd m hm
    exact ⟨hheaded, .inl hopen⟩
  · rw [State.close_eq, State.draft] at hd
    obtain ⟨draft, hdraft, rfl⟩ := List.mem_map.1 hd
    obtain ⟨last, hlast, rfl⟩ := Option.map_eq_some_iff.1 (Option.mem_toList.1 hdraft)
    exact hst.settled_or_last hlast m hm

/-- A signature ends on the first line behind which it leaves no parenthesis open. -/
theorem headerEnd_eq {c : ClassDecl} (hc : c ∈ classes lines) {m : MethodDecl} (hm : m ∈ c.methods) {n : Nat}
    (hn : m.startLine + n < lines.length) (hopen : ∀ k < n, 0 < openAfter lines m.startLine k)
    (hclose : openAfter lines m.startLine n ≤ 0) : m.headerEnd = m.startLine + n := by
  obtain ⟨⟨hstart, hgoesOn⟩, hend⟩ := classes_signed hc hm
  rcases lt_trichotomy m.headerEnd (m.startLine + n) with hlt | heq | hgt
  · have hpos := hopen (m.headerEnd - m.startLine) (by omega)
    rcases hend with hend | hend
    · exact absurd hpos (not_lt.2 hend)
    · omega
  · exact heq
  · exact absurd (hgoesOn n hgt) (not_lt.2 hclose)

end Headers

section Agreement

variable {lines : List Line} {c : ClassDecl} {m : MethodDecl}

/-- The name of a method stands at a column of its header, before any parenthesis. -/
def NamedAt (lines : List Line) (m : MethodDecl) (column : Nat) : Prop :=
  ∃ header ∈ lines[m.startLine]?, '(' ∉ header.take column ∧ m.name.toList <+: header.drop column

theorem exists_header (hc : c ∈ classes lines) (hm : m ∈ c.methods) :
    ∃ before gap behind, lines[m.startLine]? =
        some (before ++ (m.name.toList ++ (gap ++ '(' :: behind))) ∧
      ∀ c ∈ before ++ (m.name.toList ++ gap), isPlain c = true := by
  obtain ⟨line, hline, ⟨name, rest⟩, hfound, hname⟩ := (classes_faithful hc).methods m hm
  obtain ⟨before, gap, htrim, hplain⟩ := methodHeader_shape hfound
  obtain ⟨lead, trail, hsplit, hlead⟩ := Text.exists_trim line
  have hname : m.name.toList = name.chars := by rw [← hname, String.toList_ofList]
  refine ⟨lead ++ before, gap, rest ++ trail, ?_, ?_⟩
  · rw [hline, hname]
    rw [htrim] at hsplit
    simpa using hsplit
  · intro d hd
    rw [hname, List.append_assoc] at hd
    rcases List.mem_append.1 hd with hd | hd
    · exact isPlain_of (by decide) (hlead d hd)
    · exact hplain d hd

/-- From a column before the first parenthesis on, that parenthesis is the first one. -/
theorem dropWhile_first {t s : List Char} (ht : '(' ∉ t) {column : Nat}
    (hcolumn : '(' ∉ (t ++ '(' :: s).take column) :
    ((t ++ '(' :: s).drop column).dropWhile (· != '(') = '(' :: s := by
  have hle : column ≤ t.length := by
    by_contra hlt
    rw [List.take_append, List.take_of_length_le (by omega)] at hcolumn
    obtain ⟨n, hn⟩ : ∃ n, column - t.length = n + 1 := ⟨column - t.length - 1, by omega⟩
    rw [hn, List.take_succ_cons] at hcolumn
    exact hcolumn (by simp)
  rw [List.drop_append_of_le_length hle, List.dropWhile_append_of_pos, List.dropWhile_cons_of_neg (by simp)]
  intro c hc
  rw [bne_iff_ne]
  rintro rfl
  exact ht (List.mem_of_mem_drop hc)

theorem between_eq {start : Nat} {line : Line} (h : lines[start]? = some line) (n : Nat) :
    between lines start (start + n) = line :: (lines.drop (start + 1)).take n := by
  obtain ⟨hlt, rfl⟩ := List.getElem?_eq_some_iff.1 h
  rw [between, Nat.add_assoc, ← List.take_drop, List.drop_eq_getElem_cons hlt, List.take_succ_cons]

section Group

variable {t s : List Char} (hplain : ∀ c ∈ t, isPlain c = true) {start : Nat}
  (hrow : lines[start]? = some (t ++ '(' :: s)) {n : Nat} {rest : List Char}
  (hclosing : closing? 1 (s :: lines.drop (start + 1)) = some (n, rest))

include hrow hclosing

/-- The closing parenthesis stands on the last line of the group. -/
theorem behind_suffix : ∃ line ∈ lines[start + n]?, (')' :: rest) <:+ line := by
  obtain ⟨row, hget, hsuffix⟩ := closing?_behind hclosing
  cases n with
  | zero =>
    obtain rfl : s = row := Option.some.inj hget
    exact ⟨_, hrow, hsuffix.trans ((List.suffix_cons '(' s).trans (List.suffix_append t _))⟩
  | succ n =>
    rw [List.getElem?_cons_succ, List.getElem?_drop] at hget
    exact ⟨row, by rwa [Nat.add_comm n, ← Nat.add_assoc], hsuffix⟩

include hplain

/-- A signature leaves open what its group leaves open, up to the line on which the group closes. -/
theorem openAfter_of_closing?
    (hquotes : ∀ line ∈ between lines start (start + n), quotesClose none line = true)
    (hrest : parens (unquoted none rest) ≤ 0) :
    start + n < lines.length ∧ (∀ k < n, 0 < openAfter lines start k) ∧ openAfter lines start n ≤ 0 := by
  rw [between_eq hrow] at hquotes
  obtain ⟨hheader, htail⟩ := List.forall_mem_cons.1 hquotes
  obtain ⟨hs, hbalance⟩ := parenBalance_of_first hplain s hheader
  have hrows : ∀ line ∈ (s :: lines.drop (start + 1)).take (n + 1), quotesClose none line = true := by
    rw [List.take_succ_cons]
    exact List.forall_mem_cons.2 ⟨hs, htail⟩
  obtain ⟨hn, hopen, hend⟩ := openIn_of_closing? le_rfl hclosing hrows
  have hcount : ∀ k, openIn (1 : Nat) ((s :: lines.drop (start + 1)).take (k + 1)) =
      openIn (parenBalance (t ++ '(' :: s)) ((lines.drop (start + 1)).take k) := by
    intro k
    rw [List.take_succ_cons, openIn_cons, hbalance, Nat.cast_one]
  have hlt := (List.getElem?_eq_some_iff.1 hrow).1
  rw [List.length_cons, List.length_drop] at hn
  refine ⟨by omega, ?_⟩
  rcases Nat.eq_zero_or_pos n with rfl | hpos
  · -- the group closes on the header, and what follows it opens nothing
    rw [hcount, List.take_zero, openIn_nil] at hend
    refine ⟨fun k hk => absurd hk (Nat.not_lt_zero k), ?_⟩
    rw [openAfter_eq hrow, List.take_zero, openIn_nil]
    omega
  · have hfirst := hopen 0 hpos
    rw [hcount, List.take_zero, openIn_nil] at hfirst
    have hsame : ∀ k, openAfter lines start k =
        openIn (1 : Nat) ((s :: lines.drop (start + 1)).take (k + 1)) := by
      intro k
      rw [openAfter_eq hrow, hcount, max_eq_right hfirst.le]
    refine ⟨fun k hk => ?_, ?_⟩
    · rw [hsame]
      exact hopen k hk
    · rw [hsame, hend]
      exact hrest

end Group

/-- The two views of a signature agree. The group of the parameters is read from the column of the name on.
If it closes, the quotes close on each of its lines and nothing is opened behind it, then the signature
ends on the line on which it closes. -/
theorem headerEnd_eq_closing_line (lines : List Line) {c : ClassDecl} (hc : c ∈ classes lines) {m : MethodDecl}
    (hm : m ∈ c.methods) :
    (∃ column, NamedAt lines m column) ∧
    ∀ column, NamedAt lines m column →
      ∀ rest, behindGroup? lines m.startLine column = some rest →
        ∃ text, ∃ k : Nat, groupAt? lines m.startLine column = some (text, (k : Int)) ∧
          (∃ line ∈ lines[k]?, (')' :: rest) <:+ line) ∧
          ((∀ line ∈ between lines m.startLine k, quotesClose none line = true) →
            (unquoted none rest).count '(' ≤ (unquoted none rest).count ')' → m.headerEnd = k) := by
  obtain ⟨before, gap, behind, hheader, hplain⟩ := exists_header hc hm
  have hassoc : before ++ (m.name.toList ++ (gap ++ '(' :: behind)) =
      before ++ (m.name.toList ++ gap) ++ '(' :: behind := by simp
  have hparen : ∀ t : List Char, (∀ c ∈ t, isPlain c = true) → '(' ∉ t := by
    intro t ht hmem
    cases ht _ hmem
  refine ⟨⟨before.length, _, hheader, ?_, ?_⟩, ?_⟩
  · rw [List.take_left]
    exact hparen before fun c hc => hplain c (List.mem_append_left _ hc)
  · rw [List.drop_left]
    exact List.prefix_append _ _
  rintro column ⟨header, hline, hcolumn, -⟩ rest hrest
  obtain rfl : header = _ := Option.some.inj (hline.symm.trans hheader)
  rw [hassoc] at hheader hcolumn
  have hfirst := dropWhile_first (hparen _ hplain) hcolumn
  rw [behindGroup?_eq hheader hfirst] at hrest
  obtain ⟨⟨n, rest'⟩, hclosing, hsame⟩ := Option.map_eq_some_iff.1 hrest
  obtain rfl : rest' = rest := hsame
  obtain ⟨text, hgroup⟩ := groupAt?_of_closing? hheader hfirst hclosing
  refine ⟨text, m.startLine + n, hgroup, behind_suffix hheader hclosing, fun hquotes hcount => ?_⟩
  obtain ⟨hlt, hopen, hclose⟩ := openAfter_of_closing? hplain hheader hclosing hquotes
    (by rw [parens]; omega)
  exact headerEnd_eq hc hm hlt hopen hclose

/-- Parentheses stand in literals of both kinds, one behind an escaped quote, and in a comment behind the
group. -/
theorem headerEnd_eq_closing_line_literals :
    let lines : List Line :=
      ["class Job:".toList, "    async def run (self, sep='(',".toList,
        "            text=\"it's \\\" )\", size=(1,".toList, "            2)) -> int:  # )".toList,
        "        pass".toList]
    let run : MethodDecl := { name := "run", startLine := 1, endLine := 4, headerEnd := 3 }
    classes lines = [{ name := "Job", startLine := 0, endLine := 4, methods := [run] }] ∧
      NamedAt lines run 14 ∧ behindGroup? lines 1 14 = some " -> int:  # )".toList ∧
      (groupAt? lines 1 14).map (·.2) = some 3 ∧ run.headerEnd = 3 := by
  intro lines run
  have hclasses : classes lines = [{ name := "Job", startLine := 0, endLine := 4, methods := [run] }] := by
    decide +kernel
  have hnamed : NamedAt lines run 14 :=
    ⟨"    async def run (self, sep='(',".toList, rfl, by decide +kernel, by decide +kernel⟩
  have hbehind : behindGroup? lines 1 14 = some " -> int:  # )".toList := by decide +kernel
  have hline : (groupAt? lines 1 14).map (·.2) = some 3 := by decide +kernel
  obtain ⟨text, k, hgroup, -, hend⟩ :=
    (headerEnd_eq_closing_line lines (hclasses ▸ List.mem_singleton_self _)
      (List.mem_singleton_self run)).2 14 hnamed _ hbehind
  have hk : k = 3 := by
    rw [show groupAt? lines 1 14 = some (text, (k : Int)) from hgroup] at hline
    exact Int.ofNat.inj (Option.some.inj hline)
  subst hk
  exact ⟨hclasses, hnamed, hbehind, hline, hend (by decide +kernel) (by decide +kernel)⟩

end Agreement

end Indented

end DesignLint
