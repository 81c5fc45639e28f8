import DesignLint.Proofs.IndentedPrograms
import DesignLint.Proofs.LeadingBlanks
import DesignLint.Source.Model

/-! A method of one statement has two forms: the statement stands behind the signature, or on a line of its
own. In both forms the method is the same stub or none, but the members that the statement mentions are
recorded in the second form only. -/

namespace DesignLint

/-- What is recorded of the members of the own object: the variables of each class, and for each of its
methods the name, the variables and the calls. -/
def SourceModel.members (s : SourceModel) : List (List String × List (String × List String × List String)) :=
  s.classes.map fun c =>
    (c.instanceVariables, c.methods.map fun m => (m.name, m.usedVariables, m.calledMethods))

section Distinct

theorem mem_foldl_addName {names more : List String} {x : String} :
    x ∈ more.foldl addName names ↔ x ∈ names ∨ x ∈ more := by
  induction more generalizing names with
  | nil => simp
  | cons y more ih =>
    rw [List.foldl_cons, ih, mem_addName, List.mem_cons, or_assoc]

theorem distinct_eq_nil {names : List String} : distinct names = [] ↔ names = [] := by
  simp only [List.eq_nil_iff_forall_not_mem, distinct, mem_foldl_addName, List.not_mem_nil, false_or]

/-- A member is a variable or is called. -/
theorem Reference.eq_nil_iff {refs : List Reference} :
    Reference.variables refs = [] ∧ Reference.calls refs = [] ↔ refs = [] := by
  cases refs with
  | nil => simp [Reference.variables, Reference.calls]
  | cons r refs => cases hr : r.isCall <;> simp [Reference.variables, Reference.calls, hr]

end Distinct

namespace Indented

open Source Pattern

def inlineForm (c m : Name) (s : List Char) : List Line :=
  [classLine c, methodLine m ++ ' ' :: s]

def blockForm (c m : Name) (s : List Char) : List Line :=
  [classLine c, methodLine m, "        ".toList ++ s]

/-- One statement on one line: it is not blank and no comment, its quotes close, and it opens as many
parentheses as it closes. -/
structure IsStatement (s : List Char) : Prop where
  nonblank : Text.trim s ≠ []
  no_comment : (Text.trim s).head? ≠ some '#'
  oneLine : '\n' ∉ s
  quotes : quotesClose none s = true
  balance : parens (unquoted none s) = 0

section Search

/-- A statement is searched behind a closing parenthesis. -/
theorem search?_inlineStatement {t : List Char} (ht : ')' ∉ t) (s : List Char) :
    inlineStatement.search? (t ++ s) = inlineStatement.search? s := by
  induction t with
  | nil => rfl
  | cons c t ih =>
    obtain ⟨hc, ht⟩ := not_or.1 (mt List.mem_cons.2 ht)
    have hnone : inlineStatement.match? (c :: (t ++ s)) = none := by
      refine match?_bind_none (match?_char_none ?_)
      rintro d ⟨⟩
      exact Ne.symm hc
    rw [List.cons_append, search?, hnone]
    exact ih ht

variable {s : List Char}

theorem search?_statement (h : IsStatement s) :
    (inlineStatement.search? ("):".toList ++ ' ' :: s)).map (fun x => Text.trim (x.1 :: x.2.chars)) =
      some (Text.trim s) := by
  obtain ⟨lead, c, rest, rfl, hlead, hc⟩ := Text.exists_first h.nonblank
  have htrim := Text.trim_behind_blanks hlead hc rest
  have hcomment : c ≠ '#' := by
    rintro rfl
    exact h.no_comment (by rw [htrim]; rfl)
  have hline : ∀ d ∈ rest, (d != '\n') = true := by
    intro d hd
    rw [bne_iff_ne]
    rintro rfl
    exact h.oneLine (by simp [hd])
  have hmatch : inlineStatement.match? (')' :: ':' :: (' ' :: lead ++ c :: rest)) =
      some ((c, ⟨rest.reverse⟩), []) := by
    have hcolon : ∀ d ∈ (':' :: (' ' :: lead ++ c :: rest)).head?, Text.isBlank d = false := by
      rintro d ⟨⟩
      decide
    have hblanks : ∀ d ∈ ' ' :: lead, Text.isBlank d = true := List.forall_mem_cons.2 ⟨by decide, hlead⟩
    have hfirst : ∀ d ∈ (c :: rest).head?, Text.isBlank d = false := by
      rintro d ⟨⟩
      exact hc
    have hone : (one fun c => c != '#' && !Text.isBlank c).match? (c :: rest) = some (c, rest) := by
      simp [match?, one, hcomment, hc]
    have hmany : (many (· != '\n')).match? rest = some (⟨rest.reverse⟩, []) := by
      have hall := match?_many (s := []) hline (by simp)
      rwa [List.append_nil] at hall
    refine match?_bind (match?_char ')' _) (match?_bind (match?_blanks (t := []) (by simp) hcolon) ?_)
    refine match?_bind (match?_optional_none (match?_bind_none (match?_text_none (by simp)))) ?_
    refine match?_bind (match?_char ':' _) (match?_bind (match?_blanks hblanks hfirst) ?_)
    exact match?_bind hone (match?_bind hmany (match?_bind (a := ()) (t := []) rfl rfl))
  have hsearch : inlineStatement.search? ("):".toList ++ ' ' :: (lead ++ c :: rest)) =
      some (c, ⟨rest.reverse⟩) := by
    have hrows : "):".toList ++ ' ' :: (lead ++ c :: rest) = ')' :: ':' :: (' ' :: lead ++ c :: rest) := rfl
    rw [hrows, search?, hmatch]
  rw [hsearch, Option.map_some, htrim, Taken.chars, List.reverse_reverse]
  have hself : Text.trim ([] ++ c :: rest) = _ := Text.trim_behind_blanks (by simp) hc rest
  exact congrArg some hself

end Search

section Forms

theorem trim_row (s : List Char) : Text.trim ("        ".toList ++ s) = Text.trim s :=
  Text.trim_append_blanks (List.all_eq_true.1 (by decide)) s

variable (c m : Name) {s : List Char} (h : IsStatement s)

include h

theorem walk_inlineForm : State.outside.walk 0 (inlineForm c m s) =
    [{ name := String.ofList c.chars, startLine := 0, endLine := 1, methods := [.begin m.chars 1] }] := by
  have hquotes : quotesClose none (' ' :: s) = true := h.quotes
  have hparens : parenBalance (' ' :: s) ≤ 0 := by
    rw [parenBalance_of_quotesClose hquotes, unquoted_plain rfl, parens_cons, h.balance]
    decide
  have hawaits : State.Awaits (.inClass ⟨.begin c.chars 0, 0⟩) (.begin c.chars 0) := ⟨rfl, rfl, trivial, rfl⟩
  rw [inlineForm, walk_classLine .outside rfl trivial, hawaits.walk_methodLine m hquotes hparens]
  rfl

theorem walk_blockForm : State.outside.walk 0 (blockForm c m s) =
    [{ name := String.ofList c.chars, startLine := 0, endLine := 2
       methods := [{ MethodDecl.begin m.chars 1 with
         endLine := 2
         usedVariables := distinct (Reference.variables (references ("        ".toList ++ s)))
         calledMethods := distinct (Reference.calls (references ("        ".toList ++ s))) }]
       instanceVariables := distinct (Reference.variables (references ("        ".toList ++ s))) }] := by
  have hrow : Text.trim ("        ".toList ++ s) ≠ [] := by
    rw [trim_row]
    exact h.nonblank
  have hwalk := walk_program .outside rfl trivial 0 [⟨c, [⟨m, [s]⟩]⟩]
  have hmentions : mentions (rows ⟨m, [s]⟩) = references ("        ".toList ++ s) := mentions_append [] hrow
  have hwritten : written (rows ⟨m, [s]⟩) = 1 := written_append [] hrow
  have hlines : [(⟨c, [⟨m, [s]⟩]⟩ : ClassText MethodText)].flatMap classLines = blockForm c m s := rfl
  rw [hlines] at hwalk
  rw [hwalk]
  simp only [inSequence, classDecl, methodDecl, hmentions, hwritten, List.flatMap_singleton]
  rfl

end Forms

section Bodies

variable (c m : Name) {s : List Char}

theorem search?_methodLine (t : List Char) :
    inlineStatement.search? (methodLine m ++ t) = inlineStatement.search? ("):".toList ++ t) := by
  have hline : methodLine m ++ t =
      "    ".toList ++ ("def ".toList ++ (m.chars ++ "(self".toList)) ++ ("):".toList ++ t) := by
    have hself : "(self):".toList = "(self".toList ++ "):".toList := rfl
    rw [methodLine, hself]
    simp only [List.append_assoc]
  have hname : ')' ∉ m.chars := by
    intro hmem
    have hword := m.isWord _ hmem
    revert hword
    decide
  rw [hline]
  refine search?_inlineStatement ?_ _
  simp only [List.mem_append, not_or]
  exact ⟨by decide, by decide, hname, by decide⟩

theorem body?_inlineForm (h : IsStatement s) : body? (inlineForm c m s) 1 1 = some (Text.trim s) := by
  have hheader : at? (inlineForm c m s) 1 = some (methodLine m ++ ' ' :: s) := rfl
  have hrows : slice (inlineForm c m s) (1 + 1) (1 + 1) = [] := rfl
  rw [body?, hheader, Option.map_some, hrows, search?_methodLine]
  have hfound := search?_statement h
  simp only [hfound]
  simp [statements]

theorem body?_blockForm (h : IsStatement s) : body? (blockForm c m s) 1 2 = some (Text.trim s) := by
  have hheader : at? (blockForm c m s) 1 = some (methodLine m) := rfl
  have hrows : slice (blockForm c m s) (1 + 1) (2 + 1) = ["        ".toList ++ s] := rfl
  have hnone : inlineStatement.search? (methodLine m) = none := by
    rw [← List.append_nil (methodLine m), search?_methodLine]
    decide
  have hstatements : statements ["        ".toList ++ s] = [Text.trim s] := by
    rw [statements, List.map_singleton, trim_row]
    simp [h.nonblank, h.no_comment]
  rw [body?, hheader, Option.map_some, hrows, hnone, hstatements]
  simp

/-- What is recorded of the members does not matter for a stub. -/
theorem stub?_forms (h : IsStatement s) (used called : List String) :
    SourceModel.stub? .indented (inlineForm c m s) (.begin m.chars 1) =
      SourceModel.stub? .indented (blockForm c m s)
        { MethodDecl.begin m.chars 1 with endLine := 2, usedVariables := used, calledMethods := called } := by
  have hinline : Family.body? .indented (inlineForm c m s) (1 : Nat) (1 : Nat) (1 : Nat) = some (Text.trim s) :=
    body?_inlineForm c m h
  have hblock : Family.body? .indented (blockForm c m s) (1 : Nat) (1 : Nat) (2 : Nat) = some (Text.trim s) :=
    body?_blockForm c m h
  simp only [SourceModel.stub?, MethodDecl.begin, hinline, hblock]

end Bodies

/-- Both forms give a method of the same name, and the same stub or none. The members that the statement
mentions are recorded of the block form only, so that the two records agree exactly if there are none. -/
theorem inlineForm_drops_mentions (c m : Name) {s : List Char} (h : IsStatement s) :
    let inline := SourceModel.ofLines .python (inlineForm c m s)
    let block := SourceModel.ofLines .python (blockForm c m s)
    let vars := distinct (Reference.variables (references s))
    inline.implementations = block.implementations ∧
      inline.members = [([], [(String.ofList m.chars, [], [])])] ∧
      block.members = [(vars, [(String.ofList m.chars, vars, distinct (Reference.calls (references s)))])] ∧
      (inline.members = block.members ↔ references s = []) := by
  intro inline block vars
  have hclasses : ∀ lines, (SourceModel.ofLines .python lines).classes =
      (State.outside.walk 0 lines).map (findConstructor lines) := fun _ => rfl
  have hinline := hclasses (inlineForm c m s)
  have hblock := hclasses (blockForm c m s)
  rw [walk_inlineForm c m h, List.map_singleton] at hinline
  rw [walk_blockForm c m h, references_behind_blanks (List.all_eq_true.1 (by decide)),
    List.map_singleton] at hblock
  have hi : inline.members = [([], [(String.ofList m.chars, [], [])])] := by
    rw [SourceModel.members, hinline]
    rfl
  have hb : block.members =
      [(vars, [(String.ofList m.chars, vars, distinct (Reference.calls (references s)))])] := by
    rw [SourceModel.members, hblock]
    rfl
  refine ⟨?_, hi, hb, ?_⟩
  · have himplementations : ∀ lines, (SourceModel.ofLines .python lines).implementations =
        (SourceModel.ofLines .python lines).classes.map (SourceModel.implementation .indented lines) :=
      fun _ => rfl
    have hstub := stub?_forms c m h vars (distinct (Reference.calls (references s)))
    rw [himplementations, himplementations, hinline, hblock]
    simp only [List.map_singleton, SourceModel.implementation, findConstructor, List.filterMap_cons, hstub]
    rfl
  · rw [hi, hb]
    simp only [List.cons.injEq, Prod.mk.injEq, and_true, true_and, List.nil_eq, vars, distinct_eq_nil,
      ← Reference.eq_nil_iff]
    tauto

/-- A statement with a literal that holds a parenthesis and a word that looks like a comment. -/
theorem inlineForm_drops_mentions_literal :
    let table : Name := ⟨"Table".toList, by decide, List.all_eq_true.1 (by decide)⟩
    let first : Name := ⟨"first".toList, by decide, List.all_eq_true.1 (by decide)⟩
    let s := "return self.row('# (', self.size)".toList
    IsStatement s ∧
      (SourceModel.ofLines .python (inlineForm table first s)).members = [([], [("first", [], [])])] ∧
      (SourceModel.ofLines .python (blockForm table first s)).members =
        [(["size"], [("first", ["size"], ["row"])])] := by
  intro table first s
  have hs : IsStatement s := ⟨by decide, by decide, by decide, by decide, by decide⟩
  obtain ⟨-, hinline, hblock, -⟩ := inlineForm_drops_mentions table first hs
  refine ⟨hs, hinline, hblock.trans ?_⟩
  decide +kernel

/-- A method that returns a variable uses it in one form and not in the other. -/
theorem inlineForm_members_ne :
    (SourceModel.ofLines .python ["class Box:".toList, "    def get(self): return self.x".toList]).members ≠
      (SourceModel.ofLines .python
        ["class Box:".toList, "    def get(self):".toList, "        return self.x".toList]).members := by
  decide +kernel

end Indented

end DesignLint
