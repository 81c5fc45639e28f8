import DesignLint.Proofs.LeadingBlanks
import DesignLint.Proofs.ParameterPieces

/-! Parameter lists as they are written, with line breaks in the gaps between the parameters. The group of such a
list closes behind it; its lines, joined again, are the list with other gaps; and split at the commas it gives
the parameters. -/

namespace DesignLint

namespace Text

structure Tight (s : List Char) : Prop where
  head : ∃ c ∈ s.head?, isBlank c = false
  last : ∃ c ∈ s.getLast?, isBlank c = false

theorem tight_of_trim {s : List Char} (hne : s ≠ []) (h : trim s = s) : Tight s := by
  constructor
  · obtain ⟨lead, c, rest, hs, hlead, hc⟩ := exists_first (h.symm ▸ hne)
    cases lead with
    | nil => exact ⟨c, by rw [hs]; rfl, hc⟩
    | cons d lead =>
      have hd : d = c := by
        rw [hs, trim_behind_blanks hlead hc] at h
        exact (List.cons.inj h).1.symm
      rw [hd] at hlead
      rw [hlead c List.mem_cons_self] at hc
      cases hc
  · have hlast := List.head?_dropWhile_not isBlank (trimStart s).reverse
    rw [← List.getLast?_reverse] at hlast
    have hsame : ((trimStart s).reverse.dropWhile isBlank).reverse = s := h
    rw [hsame] at hlast
    obtain ⟨c, hc⟩ := Option.ne_none_iff_exists'.1 (List.getLast?_eq_none_iff.not.2 hne)
    rw [hc] at hlast
    exact ⟨c, hc, by simpa using hlast⟩

theorem Tight.ne_nil {s : List Char} (h : Tight s) : s ≠ [] := by
  obtain ⟨c, hc, -⟩ := h.head
  rintro rfl
  cases hc

theorem Tight.append {s t : List Char} (hs : Tight s) (ht : Tight t) (u : List Char) : Tight (s ++ (u ++ t)) := by
  obtain ⟨c, hc, hfirst⟩ := hs.head
  obtain ⟨d, hd, hlast⟩ := ht.last
  refine ⟨⟨c, ?_, hfirst⟩, ⟨d, ?_, hlast⟩⟩
  · rw [List.head?_append, hc]
    rfl
  · rw [List.getLast?_append, List.getLast?_append, hd]
    rfl

theorem Tight.trim_append {s trail : List Char} (h : Tight s) (htrail : ∀ c ∈ trail, isBlank c = true) :
    trim (s ++ trail) = s := by
  obtain ⟨c, hc, hfirst⟩ := h.head
  obtain ⟨d, hd, hlast⟩ := h.last
  have hhead : ∀ e ∈ (s ++ trail).head?, isBlank e = false := by
    rw [List.head?_append, hc]
    rintro e ⟨⟩
    exact hfirst
  have htrim : trim ([] ++ (s ++ trail)) = trimEnd (s ++ trail) := trim_eq (by simp) hhead
  obtain ⟨init, rfl⟩ := List.getLast?_eq_some_iff.1 hd
  rw [List.nil_append] at htrim
  rw [htrim, List.append_assoc, List.singleton_append, trimEnd_append_cons hlast, trimEnd_of_blanks htrail]

section Rows

abbrev rows (s : List Char) : List Line := s.splitOn '\n'

theorem rows_break (s : List Char) : rows ('\n' :: s) = [] :: rows s := by
  rw [rows, List.splitOn_cons_eq_if_modifyHead]
  rfl

theorem rows_cons {c : Char} (hc : c ≠ '\n') (s : List Char) : rows (c :: s) = (rows s).modifyHead (c :: ·) := by
  rw [rows, List.splitOn_cons_eq_if_modifyHead, if_neg (by simpa using hc)]

theorem exists_rows (s : List Char) : ∃ row more, rows s = row :: more :=
  List.exists_cons_of_ne_nil (List.splitOn_ne_nil '\n' s)

theorem rows_append {t : List Char} (ht : '\n' ∉ t) (s : List Char) :
    rows (t ++ s) = (rows s).modifyHead (t ++ ·) := by
  obtain ⟨row, more, hrows⟩ := exists_rows s
  induction t with
  | nil => rw [List.nil_append, hrows]; rfl
  | cons c t ih =>
    obtain ⟨hc, ht⟩ := not_or.1 (List.mem_cons.not.1 ht)
    rw [List.cons_append, rows_cons (Ne.symm hc), ih ht, hrows]
    rfl

theorem length_rows (s : List Char) : (rows s).length = s.count '\n' + 1 := by
  induction s with
  | nil => rfl
  | cons c s ih =>
    by_cases hc : c = '\n'
    · rw [hc, rows_break, List.length_cons, ih, List.count_cons_self]
    · rw [rows_cons hc, List.length_modifyHead, ih, List.count_cons_of_ne hc]

theorem mem_of_mem_rows {s row : List Char} (hrow : row ∈ rows s) {c : Char} (hc : c ∈ row) : c ∈ s := by
  have hmem : c ∈ ['\n'].intercalate (rows s) := mem_intercalate hrow hc
  rwa [rows, List.intercalate_splitOn] at hmem

end Rows

end Text

namespace Source

open Text (rows rows_break rows_cons exists_rows)

def closer : Char → Char
  | '(' => ')'
  | '[' => ']'
  | '\x7b' => '\x7d'
  | _ => '>'

/-- Is every bracket of the text closed by its like, those that `stack` waits for included, and no comma outside
them all? -/
def nested (stack : List Char) (before : Option Char) : List Char → Bool
  | [] => stack.isEmpty
  | c :: s =>
    if opensBracket before c then nested (closer c :: stack) (some c) s
    else if closesBracket before c then stack.head? == some c && nested stack.tail (some c) s
    else (c != ',' || !stack.isEmpty) && nested stack (some c) s

structure Parameter where
  chars : List Char
  nonempty : chars ≠ []
  trimmed : Text.trim chars = chars
  noQuote : chars.any isQuote = false
  noBreak : '\n' ∉ chars
  nested : nested [] none chars = true

structure Gap where
  chars : List Char
  blank : ∀ c ∈ chars, Text.isBlank c = true

def listed (ps : List (Gap × Parameter)) : List Char := ps.flatMap fun p => ',' :: (p.1.chars ++ p.2.chars)

theorem listed_cons (g : Gap) (p : Parameter) (ps : List (Gap × Parameter)) :
    listed ((g, p) :: ps) = ',' :: (g.chars ++ (p.chars ++ listed ps)) := by
  simp [listed]

theorem Parameter.isQuote_eq_false (p : Parameter) : ∀ c ∈ p.chars, isQuote c = false := by
  intro c hc
  simpa using List.any_eq_false.1 p.noQuote c hc

theorem Parameter.tight (p : Parameter) : Text.Tight p.chars := Text.tight_of_trim p.nonempty p.trimmed

section Nested

/-- A bracket is told by the character before it only if that is an equals sign. -/
theorem nested_congr {before before' : Option Char} (h : before ≠ some '=') (h' : before' ≠ some '=')
    (stack s : List Char) : nested stack before s = nested stack before' s := by
  cases s with
  | nil => rfl
  | cons c s => simp only [nested, opensBracket, closesBracket, bne_iff_ne.2 h, bne_iff_ne.2 h']

theorem nested_behind_blanks {lead : List Char} (hlead : ∀ c ∈ lead, Text.isBlank c = true)
    {before : Option Char} (hbefore : before ≠ some '=') (s : List Char) :
    nested [] before (lead ++ s) = nested [] none s := by
  induction lead generalizing before with
  | nil => exact nested_congr hbefore (by simp) [] s
  | cons c lead ih =>
    obtain ⟨hc, hlead⟩ := List.forall_mem_cons.1 hlead
    have hplain := not_mem_separators (by decide) hc
    have hcomma : c ≠ ',' := by
      rintro rfl
      cases hc
    have hequals : some c ≠ some '=' := by
      rintro ⟨⟩
      cases hc
    rw [List.cons_append, nested, opensBracket_eq_false hplain, closesBracket_eq_false hplain, bne_iff_ne.2 hcomma]
    exact ih hlead hequals

theorem ne_comma_of_opensBracket {before : Option Char} {c : Char} (h : opensBracket before c = true) : c ≠ ',' := by
  rintro rfl
  simp [opensBracket] at h

theorem ne_comma_of_closesBracket {before : Option Char} {c : Char} (h : closesBracket before c = true) : c ≠ ',' := by
  rintro rfl
  simp [closesBracket] at h

/-- A nested text is one piece and closes all that is open before it. -/
theorem commaPieces_nested {stack : List Char} {before : Option Char} {s : List Char}
    (h : nested stack before s = true) :
    commaPieces stack.length before s = [s] ∧ depthBehind stack.length before s = 0 := by
  induction s generalizing stack before with
  | nil =>
    rw [nested, List.isEmpty_iff] at h
    subst h
    exact ⟨rfl, rfl⟩
  | cons c s ih =>
    rw [nested] at h
    rw [commaPieces, depthBehind, bracketDepth]
    by_cases hopen : opensBracket before c
    · rw [if_pos hopen] at h
      obtain ⟨hpieces, hdepth⟩ := ih h
      rw [List.length_cons] at hpieces hdepth
      simp only [hopen, if_true, hpieces, ne_comma_of_opensBracket hopen, false_and, if_false]
      exact ⟨rfl, hdepth⟩
    rw [if_neg hopen] at h
    by_cases hclose : closesBracket before c
    · rw [if_pos hclose] at h
      obtain ⟨hhead, hrest⟩ := Bool.and_eq_true_iff.1 h
      cases stack with
      | nil => cases hhead
      | cons d stack =>
        obtain ⟨hpieces, hdepth⟩ := ih hrest
        rw [List.tail_cons] at hpieces hdepth
        simp only [hopen, hclose, if_true, hpieces, ne_comma_of_closesBracket hclose, false_and, if_false,
          List.length_cons, Nat.add_sub_cancel, Bool.false_eq_true]
        exact ⟨rfl, hdepth⟩
    · rw [if_neg hclose] at h
      obtain ⟨hinside, hrest⟩ := Bool.and_eq_true_iff.1 h
      obtain ⟨hpieces, hdepth⟩ := ih hrest
      have hcomma : ¬ (c = ',' ∧ stack.length = 0) := by
        rintro ⟨rfl, hlength⟩
        simp [List.length_eq_zero_iff.1 hlength] at hinside
      simp only [hopen, hclose, if_false, hpieces, hcomma, Bool.false_eq_true]
      exact ⟨rfl, hdepth⟩

/-- Behind a nested text the list goes on with the next parameter. -/
theorem commaPieces_listed {s : List Char} {before : Option Char} (h : nested [] before s = true)
    (ps : List (Gap × Parameter)) :
    commaPieces 0 before (s ++ listed ps) = s :: ps.map fun p => p.1.chars ++ p.2.chars := by
  obtain ⟨hpieces, hdepth⟩ := commaPieces_nested h
  rw [List.length_nil] at hpieces hdepth
  induction ps generalizing s before with
  | nil => simpa [listed] using hpieces
  | cons gp ps ih =>
    obtain ⟨g, p⟩ := gp
    have hnested : nested [] (some ',') (g.chars ++ p.chars) = true := by
      rw [nested_behind_blanks g.blank (by simp)]
      exact p.nested
    obtain ⟨hnext, hnextDepth⟩ := commaPieces_nested hnested
    have hrest := ih hnested hnext hnextDepth
    have hcomma : bracketDepth 0 (s.getLast?.or before) ',' = 0 := by simp [bracketDepth, opensBracket, closesBracket]
    rw [commaPieces_append, hpieces, hdepth, listed_cons, commaPieces, hcomma, if_pos ⟨rfl, rfl⟩, ← List.append_assoc,
      hrest]
    simp [glue]

theorem parameters_listed {s : List Char} (htight : Text.Tight s) (h : nested [] none s = true)
    (ps : List (Gap × Parameter)) : parameters (s ++ listed ps) = s :: ps.map (·.2.chars) := by
  have htrim : Text.trim (s ++ []) = s := htight.trim_append (by simp)
  rw [List.append_nil] at htrim
  rw [parameters_eq, commaPieces_listed h, kept_cons (by rw [htrim]; exact htight.ne_nil), htrim]
  congr 1
  induction ps with
  | nil => rfl
  | cons gp ps ih =>
    have hparam : Text.trim (gp.1.chars ++ gp.2.chars) = gp.2.chars := by
      rw [Text.trim_append_blanks gp.1.blank, gp.2.trimmed]
    rw [List.map_cons, List.map_cons, kept_cons (by rw [hparam]; exact gp.2.nonempty), hparam, ih]

end Nested

section Groups

/-- Does the text, read inside a group at parenthesis depth `depth`, leave only the group itself open? It has no
quotes. -/
def staysOpen (depth : Nat) : List Char → Bool
  | [] => depth == 1
  | c :: s =>
    if c = '(' then staysOpen (depth + 1) s
    else if c = ')' then 1 < depth && staysOpen (depth - 1) s
    else !isQuote c && staysOpen depth s

theorem staysOpen_cons {depth : Nat} {c : Char} {s : List Char} (h : staysOpen depth (c :: s) = true) :
    ∃ next, staysOpen next s = true ∧ ∀ row, readInside depth none false (c :: row) =
      (c :: (readInside next none false row).1, (readInside next none false row).2) := by
  rw [staysOpen] at h
  split_ifs at h with hopen hclose
  · subst hopen
    exact ⟨depth + 1, h, fun row => rfl⟩
  · subst hclose
    obtain ⟨hdepth, hs⟩ := Bool.and_eq_true_iff.1 h
    have hdepth : ¬ depth ≤ 1 := Nat.not_le.2 (of_decide_eq_true hdepth)
    exact ⟨depth - 1, hs, fun row => by simp [readInside, isQuote, hdepth]⟩
  · obtain ⟨hquote, hs⟩ := Bool.and_eq_true_iff.1 h
    have hquote : isQuote c = false := by simpa using hquote
    exact ⟨depth, hs, fun row => by simp [readInside, hquote, hopen, hclose]⟩

theorem closing?_char {depth next : Nat} {c : Char} {row : List Char}
    (h : readInside depth none false (c :: row) =
      (c :: (readInside next none false row).1, (readInside next none false row).2)) (more : List Line) :
    closing? depth ((c :: row) :: more) = closing? next (row :: more) ∧
      (groupPieces depth ((c :: row) :: more)).1 = (groupPieces next (row :: more)).1.modifyHead (c :: ·) := by
  rw [closing?, closing?, groupPieces_cons, groupPieces_cons, h]
  cases readInside next none false row with
  | mk piece d =>
    cases d with
    | none => exact ⟨rfl, rfl⟩
    | some d => exact ⟨rfl, rfl⟩

/-- A group closes behind a text that stays open, and its pieces are the lines of that text. -/
theorem closing?_rows {s : List Char} {depth : Nat} (h : staysOpen depth s = true) {post : List Char}
    (hpost : '\n' ∉ post) (below : List Line) :
    closing? depth (rows (s ++ ')' :: post) ++ below) = some (s.count '\n', post) ∧
      (groupPieces depth (rows (s ++ ')' :: post) ++ below)).1 = rows s := by
  induction s generalizing depth with
  | nil =>
    obtain rfl : depth = 1 := by simpa [staysOpen] using h
    have hrow : rows ([] ++ ')' :: post) = [')' :: post] := List.splitOn_eq_singleton (by simp [hpost])
    rw [hrow]
    exact ⟨rfl, rfl⟩
  | cons c s ih =>
    by_cases hc : c = '\n'
    · subst hc
      have hs : staysOpen depth s = true := by simpa [staysOpen, isQuote] using h
      obtain ⟨hclosing, hpieces⟩ := ih hs
      have hread : readInside depth none false [] = ([], some depth) := rfl
      rw [List.cons_append, rows_break, List.cons_append, closing?, groupPieces_cons, hread, rows_break,
        List.count_cons_self]
      simp only [hclosing, hpieces, Option.map_some, Option.elim_some]
      exact ⟨trivial, trivial⟩
    · obtain ⟨next, hs, hread⟩ := staysOpen_cons h
      obtain ⟨hclosing, hpieces⟩ := ih hs
      obtain ⟨row, more, hrows⟩ := exists_rows (s ++ ')' :: post)
      obtain ⟨hcharClosing, hcharPieces⟩ := closing?_char (hread row) (more ++ below)
      rw [hrows] at hclosing hpieces
      rw [List.cons_append, rows_cons hc, hrows, rows_cons hc, List.count_cons_of_ne hc]
      exact ⟨hcharClosing.trans hclosing, hcharPieces.trans (by rw [← hpieces]; rfl)⟩

theorem closer_ne {c : Char} (h : c ≠ '(') : closer c ≠ ')' := by
  unfold closer
  split
  · exact absurd rfl h
  all_goals decide

/-- Parentheses of a nested text match, so it stays open wherever what follows does. -/
theorem staysOpen_nested {stack : List Char} {before : Option Char} {p : List Char}
    (h : nested stack before p = true) (hquote : ∀ c ∈ p, isQuote c = false) {depth : Nat} (hdepth : 1 ≤ depth)
    {s : List Char} (hs : staysOpen depth s = true) : staysOpen (depth + stack.count ')') (p ++ s) = true := by
  induction p generalizing stack before with
  | nil =>
    rw [nested, List.isEmpty_iff] at h
    rwa [h, List.count_nil]
  | cons c p ih =>
    obtain ⟨hc, hquote⟩ := List.forall_mem_cons.1 hquote
    rw [nested] at h
    rw [List.cons_append, staysOpen]
    by_cases hopen : opensBracket before c
    · rw [if_pos hopen] at h
      have hrest := ih h hquote
      by_cases hparen : c = '('
      · subst hparen
        rw [if_pos rfl, Nat.add_assoc, ← List.count_cons_self]
        exact hrest
      have hend : c ≠ ')' := by
        rintro rfl
        simp [opensBracket] at hopen
      rw [List.count_cons_of_ne (closer_ne hparen)] at hrest
      rw [if_neg hparen, if_neg hend, hc]
      exact hrest
    rw [if_neg hopen] at h
    have hparen : c ≠ '(' := by
      rintro rfl
      simp [opensBracket] at hopen
    rw [if_neg hparen]
    by_cases hclose : closesBracket before c
    · rw [if_pos hclose] at h
      obtain ⟨hhead, hrest⟩ := Bool.and_eq_true_iff.1 h
      obtain ⟨stack, rfl⟩ : ∃ rest, stack = c :: rest := by
        cases stack with
        | nil => cases hhead
        | cons d stack => exact ⟨stack, by simpa using hhead⟩
      have hrest := ih hrest hquote
      by_cases hend : c = ')'
      · subst hend
        rw [if_pos rfl, List.count_cons_self, Bool.and_eq_true, decide_eq_true_eq]
        exact ⟨by omega, hrest⟩
      · rw [if_neg hend, hc, List.count_cons_of_ne hend]
        exact hrest
    · rw [if_neg hclose] at h
      have hend : c ≠ ')' := by
        rintro rfl
        simp [closesBracket] at hclose
      rw [if_neg hend, hc]
      exact ih (Bool.and_eq_true_iff.1 h).2 hquote

theorem staysOpen_behind_plain {t : List Char} (ht : ∀ c ∈ t, isPlain c = true) (depth : Nat) (s : List Char) :
    staysOpen depth (t ++ s) = staysOpen depth s := by
  induction t with
  | nil => rfl
  | cons c t ih =>
    obtain ⟨hc, ht⟩ := List.forall_mem_cons.1 ht
    simp only [isPlain, Bool.and_eq_true, Bool.not_eq_true', bne_iff_ne] at hc
    simp only [List.cons_append, staysOpen, hc, if_false, ih ht, Bool.not_false, Bool.true_and]

theorem staysOpen_listed (ps : List (Gap × Parameter)) (last : Gap) :
    staysOpen 1 (listed ps ++ last.chars) = true := by
  have hgap : ∀ (g : Gap) s, staysOpen 1 (g.chars ++ s) = staysOpen 1 s := fun g s =>
    staysOpen_behind_plain (fun c hc => isPlain_of_isBlank (g.blank c hc)) 1 s
  induction ps with
  | nil =>
    have hend := hgap last []
    rwa [List.append_nil] at hend
  | cons gp ps ih =>
    obtain ⟨g, p⟩ := gp
    have hparam := staysOpen_nested p.nested p.isQuote_eq_false le_rfl ih
    have hcomma : ∀ s, staysOpen 1 (',' :: s) = staysOpen 1 s := fun s => rfl
    rw [listed_cons, List.cons_append, List.append_assoc, List.append_assoc, hcomma, hgap]
    exact hparam

end Groups

section Joined

variable {x : List Char} (htight : Text.Tight x) (hbreak : '\n' ∉ x)

theorem kept_rows_behind_blanks {lead : List Char} (hlead : ∀ c ∈ lead, Text.isBlank c = true) (s : List Char) :
    kept (rows (lead ++ s)) = kept (rows s) := by
  induction lead with
  | nil => rfl
  | cons c lead ih =>
    obtain ⟨hc, hlead⟩ := List.forall_mem_cons.1 hlead
    rw [← ih hlead, List.cons_append]
    by_cases hbreak : c = '\n'
    · rw [hbreak, rows_break, kept_blank rfl]
    · obtain ⟨row, more, hrows⟩ := exists_rows (lead ++ s)
      have hrow : Text.trim ([c] ++ row) = Text.trim row := Text.trim_append_blanks (by simpa using hc) row
      rw [rows_cons hbreak, hrows]
      exact kept_cons_congr hrow rfl

include htight hbreak

/-- A gap with a line break ends the piece before it. -/
theorem kept_rows_gap (g : Gap) (hg : '\n' ∈ g.chars) (s : List Char) :
    kept (rows (x ++ (g.chars ++ s))) = x :: kept (rows s) := by
  obtain ⟨before, after, hsplit, hbefore⟩ := List.eq_append_cons_of_mem hg
  have hblank := g.blank
  rw [hsplit, List.forall_mem_append, List.forall_mem_cons] at hblank
  obtain ⟨hblanks, -, hafter⟩ := hblank
  have htrim := htight.trim_append hblanks
  have hline : '\n' ∉ x ++ before := by simp [hbreak, hbefore]
  rw [hsplit, List.append_assoc, List.cons_append, ← List.append_assoc, rows,
    List.splitOn_append_cons_self_of_not_mem hline, kept_cons (by rw [htrim]; exact htight.ne_nil), htrim,
    kept_rows_behind_blanks hafter]

/-- Joined again, the lines of a parameter list are the list with other gaps. -/
theorem exists_joined (ps : List (Gap × Parameter)) (last : Gap) : ∃ ps' : List (Gap × Parameter),
    ps'.map (·.2) = ps.map (·.2) ∧ joinPieces (rows (x ++ (listed ps ++ last.chars))) = x ++ listed ps' := by
  induction ps generalizing x with
  | nil =>
    refine ⟨[], rfl, ?_⟩
    have hkept : kept (rows (x ++ last.chars)) = [x] := by
      by_cases hlast : '\n' ∈ last.chars
      · have hgap := kept_rows_gap htight hbreak last hlast []
        rw [List.append_nil] at hgap
        exact hgap
      · have htrim := htight.trim_append last.blank
        rw [rows, List.splitOn_eq_singleton (by simp [hbreak, hlast]), kept_cons (by rw [htrim]; exact htight.ne_nil),
          htrim, kept_nil]
    rw [joinPieces_eq, show listed [] = [] from rfl, List.nil_append, hkept]
    simp
  | cons gp ps ih =>
    obtain ⟨g, p⟩ := gp
    by_cases hg : '\n' ∈ g.chars
    · have hcomma : Text.Tight (x ++ [',']) := htight.append (t := [',']) ⟨⟨',', rfl, by decide⟩, ⟨',', rfl, by decide⟩⟩ []
      obtain ⟨ps', hsame, hjoined⟩ := ih p.tight p.noBreak
      refine ⟨(⟨[' '], List.all_eq_true.1 (by decide)⟩, p) :: ps', by simp [hsame], ?_⟩
      have hkept := kept_rows_gap hcomma (by simp [hbreak]) g hg (p.chars ++ (listed ps ++ last.chars))
      have hassoc : x ++ (listed ((g, p) :: ps) ++ last.chars) =
          x ++ [','] ++ (g.chars ++ (p.chars ++ (listed ps ++ last.chars))) := by simp [listed_cons]
      rw [joinPieces_eq] at hjoined ⊢
      rw [hassoc, hkept]
      cases hrest : kept (rows (p.chars ++ (listed ps ++ last.chars))) with
      | nil =>
        rw [hrest] at hjoined
        exact absurd (List.append_eq_nil_iff.1 hjoined.symm).1 p.nonempty
      | cons first more =>
        rw [hrest] at hjoined
        rw [List.intercalate_cons_cons, hjoined]
        simp [listed_cons]
    · have hline : '\n' ∉ x ++ (',' :: g.chars ++ p.chars) := by simp [hbreak, hg, p.noBreak]
      obtain ⟨ps', hsame, hjoined⟩ := ih (htight.append p.tight (',' :: g.chars)) hline
      refine ⟨(g, p) :: ps', by simp [hsame], ?_⟩
      have hassoc : x ++ (listed ((g, p) :: ps) ++ last.chars) =
          x ++ (',' :: g.chars ++ p.chars) ++ (listed ps ++ last.chars) := by simp [listed_cons]
      rw [hassoc, hjoined]
      simp [listed_cons]

end Joined

end Source

end DesignLint
