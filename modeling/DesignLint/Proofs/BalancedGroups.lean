import DesignLint.Proofs.Quotes

/-! The text of a group by its nesting. Reading a text one character at a time, the nesting is the number of
parentheses that are open and where one stands in regard to literals; a group reaches as far as the nesting keeps off
depth 0. So the group that opens in a line holds just what is read before that depth is reached, over as many lines as
that takes. -/

namespace DesignLint.Source

inductive Quoting
  | outside
  | inside (quote : Char)
  /-- Inside a literal, behind a backslash that takes the next character with it. -/
  | escaped (quote : Char)
  deriving Repr, DecidableEq

def Quoting.step : Quoting → Char → Quoting
  | .outside, c => if isQuote c then .inside c else .outside
  | .inside quote, c => if c = '\\' then .escaped quote else if c = quote then .outside else .inside quote
  | .escaped quote, _ => .inside quote

def Quoting.quote? : Quoting → Option Char
  | .outside => none
  | .inside quote => some quote
  | .escaped quote => some quote

def Quoting.isEscaped : Quoting → Bool
  | .escaped _ => true
  | _ => false

structure Nesting where
  depth : Int
  quoting : Quoting := .outside
  deriving Repr, DecidableEq

namespace Nesting

def step (n : Nesting) (c : Char) : Nesting where
  depth := if n.quoting = .outside then n.depth + parens [c] else n.depth
  quoting := n.quoting.step c

def behind (n : Nesting) (s : List Char) : Nesting :=
  s.foldl step n

/-- The nesting behind rows. A literal that is open at the end of a row is forgotten there. -/
def behindRows (n : Nesting) (rows : List (List Char)) : Nesting :=
  rows.foldl (fun n row => behind { depth := n.depth } row) n

/-- Depth 0 is reached nowhere in the rows, `depth` parentheses being open before them. -/
def NeverClosed (depth : Int) : List (List Char) → Prop
  | [] => True
  | row :: rows =>
    (∀ t, t <+: row → (behind { depth := depth } t).depth ≠ 0) ∧ NeverClosed (behind { depth := depth } row).depth rows

instance decidableNeverClosed : (depth : Int) → (rows : List (List Char)) → Decidable (NeverClosed depth rows)
  | _, [] => isTrue trivial
  | depth, row :: rows =>
    have := decidableNeverClosed (behind { depth := depth } row).depth rows
    decidable_of_iff
      ((∀ t ∈ row.inits, (behind { depth := depth } t).depth ≠ 0) ∧
        NeverClosed (behind { depth := depth } row).depth rows)
      (by simp only [List.mem_inits, NeverClosed])

variable {n : Nesting} {c : Char} {s : List Char}

/-- Of the nesting behind a row only the depth matters for the next. -/
theorem behindRows_cons_snoc (depth : Int) (row : List Char) (rows : List (List Char)) (last : List Char) :
    behindRows { depth := depth } (row :: (rows ++ [last])) =
      behindRows { depth := (behind { depth := depth } row).depth } (rows ++ [last]) := by
  cases rows with
  | nil => rfl
  | cons next rows => rfl

section Reading

def read (n : Nesting) (s : List Char) : List Char × Option Nat :=
  readInside n.depth.toNat n.quoting.quote? n.quoting.isEscaped s

theorem read_outside (depth : Int) (s : List Char) :
    read { depth := depth } s = readInside depth.toNat none false s := rfl

theorem read_nil (n : Nesting) : n.read [] = ([], some n.depth.toNat) := rfl

theorem read_closing (post : List Char) : read { depth := 1 } (')' :: post) = ([], none) := rfl

section Outside

variable (depth : Int)

theorem step_quote (hc : isQuote c = true) : step { depth := depth } c = { depth := depth, quoting := .inside c } := by
  simp [step, Quoting.step, hc, parens_quote hc]

theorem step_opening : step { depth := depth } '(' = { depth := depth + 1 } := rfl

theorem step_closing : step { depth := depth } ')' = { depth := depth - 1 } := rfl

theorem step_plain (hc : isQuote c = false) (hopen : c ≠ '(') (hclose : c ≠ ')') :
    step { depth := depth } c = { depth := depth } := by
  simp [step, Quoting.step, hc, parens_cons, hopen, hclose]

end Outside

/-- A reader goes on until depth 0 is reached. -/
theorem read_cons (h : 1 ≤ n.depth) (c : Char) (s : List Char) :
    n.read (c :: s) = if (n.step c).depth = 0 then ([], none)
      else (c :: ((n.step c).read s).1, ((n.step c).read s).2) := by
  obtain ⟨depth, quoting⟩ := n
  have hpos : 1 ≤ depth := h
  have hdepth : depth ≠ 0 := by omega
  cases quoting with
  | inside quote =>
    -- inside a literal no character changes the depth
    simp only [read, readInside, step, Quoting.step, Quoting.quote?, Quoting.isEscaped, hdepth, if_false,
      Bool.false_eq_true, reduceCtorEq]
    split_ifs with hescape hclose
    · rfl
    · rfl
    · rfl
  | escaped quote => simp [read, readInside, step, Quoting.step, Quoting.quote?, Quoting.isEscaped, hdepth]
  | outside =>
    cases hquote : isQuote c with
    | true =>
      rw [step_quote depth hquote, if_neg hdepth, read_outside, readInside, if_pos hquote]
      rfl
    | false =>
      by_cases hopen : c = '('
      · have hmore : (depth + 1).toNat = depth.toNat + 1 := by omega
        rw [hopen, step_opening, if_neg (show depth + 1 ≠ 0 by omega), read_outside, read_outside, hmore]
        rfl
      · by_cases hclose : c = ')'
        · have hless : (depth - 1).toNat = depth.toNat - 1 := by omega
          have hread : readInside depth.toNat none false (')' :: s) = if depth.toNat ≤ 1 then ([], none)
              else (')' :: (readInside (depth.toNat - 1) none false s).1,
                (readInside (depth.toNat - 1) none false s).2) := rfl
          rw [hclose, step_closing, read_outside, read_outside, hread, hless]
          exact if_congr (show depth.toNat ≤ 1 ↔ depth - 1 = 0 by omega) rfl rfl
        · rw [step_plain depth hquote hopen hclose, if_neg hdepth, read_outside, read_outside, readInside,
            if_neg (by simp [hquote]), if_neg hopen, if_neg hclose]

theorem one_le_step (h : 1 ≤ n.depth) (hne : (n.step c).depth ≠ 0) : 1 ≤ (n.step c).depth := by
  have hstep : (n.step c).depth = n.depth ∨ (n.step c).depth = n.depth + parens [c] := by
    unfold step
    split_ifs with houtside
    · exact .inr rfl
    · exact .inl rfl
  have hparens : -1 ≤ parens [c] := by
    rw [parens_cons, parens_nil]
    split_ifs <;> omega
  omega

theorem of_step_closes (h : 1 ≤ n.depth) (hc : (n.step c).depth = 0) : c = ')' ∧ n = { depth := 1 } := by
  obtain ⟨depth, quoting⟩ := n
  have hpos : 1 ≤ depth := h
  have hquoting : quoting = .outside := by
    by_contra hinside
    simp only [step, hinside, if_false] at hc
    omega
  subst hquoting
  simp only [step, if_true, parens_cons, parens_nil, add_zero] at hc
  split_ifs at hc with hopen hclose
  · omega
  · exact ⟨hclose, by rw [show depth = 1 by omega]⟩
  · omega

/-- As long as depth 0 is not reached all is read, and the depth stays above. -/
theorem read_append (h : 1 ≤ n.depth) (hopen : ∀ t, t <+: s → (n.behind t).depth ≠ 0) (u : List Char) :
    n.read (s ++ u) = (s ++ ((n.behind s).read u).1, ((n.behind s).read u).2) ∧ 1 ≤ (n.behind s).depth := by
  induction s generalizing n with
  | nil => exact ⟨rfl, h⟩
  | cons c s ih =>
    have hc : (n.step c).depth ≠ 0 := hopen [c] (by simp)
    obtain ⟨hread, hdepth⟩ := ih (one_le_step h hc) fun t ht => hopen (c :: t) (List.cons_prefix_cons.2 ⟨rfl, ht⟩)
    rw [List.cons_append, read_cons h, if_neg hc, hread]
    exact ⟨rfl, hdepth⟩

/-- Depth 0 is reached nowhere in a text, or by a closing parenthesis outside literals. -/
theorem exists_closing (h : 1 ≤ n.depth) (s : List Char) : (∀ t, t <+: s → (n.behind t).depth ≠ 0) ∨
    ∃ t post, s = t ++ ')' :: post ∧ (∀ u, u <+: t → (n.behind u).depth ≠ 0) ∧ n.behind t = { depth := 1 } := by
  have hne : n.depth ≠ 0 := by omega
  induction s generalizing n with
  | nil =>
    refine .inl fun t ht => ?_
    rw [List.prefix_nil.1 ht]
    exact hne
  | cons c s ih =>
    by_cases hc : (n.step c).depth = 0
    · obtain ⟨rfl, rfl⟩ := of_step_closes h hc
      refine .inr ⟨[], s, rfl, fun u hu => ?_, rfl⟩
      rw [List.prefix_nil.1 hu]
      exact hne
    · have hstep := one_le_step h hc
      rcases ih hstep (by omega) with hopen | ⟨t, post, rfl, hopen, hend⟩
      · refine .inl fun t ht => ?_
        rcases List.prefix_cons_iff.1 ht with rfl | ⟨u, rfl, hu⟩
        · exact hne
        · exact hopen u hu
      · refine .inr ⟨c :: t, post, rfl, fun u hu => ?_, hend⟩
        rcases List.prefix_cons_iff.1 hu with rfl | ⟨v, rfl, hv⟩
        · exact hne
        · exact hopen v hv

end Reading

section Rows

variable {depth : Int} {rows : List (List Char)}

/-- The pieces of a group that never closes are all rows. -/
theorem groupPieces_neverClosed (h : 1 ≤ depth) (hopen : NeverClosed depth rows) :
    groupPieces depth.toNat rows = (rows, none) := by
  induction rows generalizing depth with
  | nil => rfl
  | cons row rows ih =>
    obtain ⟨hread, hdepth⟩ := read_append h hopen.1 []
    rw [List.append_nil, read_outside, read_nil, List.append_nil] at hread
    rw [groupPieces, hread]
    simp only [ih hdepth hopen.2, Option.map_none]

/-- A group closes behind rows in which it does not, if nothing else is open there. -/
theorem groupPieces_closed {last : List Char} (h : 1 ≤ depth) (hopen : NeverClosed depth (rows ++ [last]))
    (hend : behindRows { depth := depth } (rows ++ [last]) = { depth := 1 }) (post : List Char) (below : List Line) :
    groupPieces depth.toNat (rows ++ (last ++ ')' :: post) :: below) = (rows ++ [last], some rows.length) := by
  induction rows generalizing depth with
  | nil =>
    obtain ⟨hread, -⟩ := read_append h hopen.1 (')' :: post)
    have hlast : behind { depth := depth } last = { depth := 1 } := hend
    rw [hlast, read_outside, read_closing, List.append_nil] at hread
    rw [List.nil_append, groupPieces, hread]
    rfl
  | cons row rows ih =>
    obtain ⟨hread, hdepth⟩ := read_append h hopen.1 []
    rw [List.append_nil, read_outside, read_nil, List.append_nil] at hread
    rw [List.cons_append, behindRows_cons_snoc] at hend
    rw [List.cons_append, groupPieces, hread]
    simp only [ih hdepth hopen.2 hend, Option.map_some]
    rfl

/-- A group never closes in rows, or it does so at a place in one of them. -/
theorem neverClosed_or_closes (h : 1 ≤ depth) (rows : List (List Char)) : NeverClosed depth rows ∨
    ∃ above last post below, rows = above ++ (last ++ ')' :: post) :: below ∧ NeverClosed depth (above ++ [last]) ∧
      behindRows { depth := depth } (above ++ [last]) = { depth := 1 } := by
  induction rows generalizing depth with
  | nil => exact .inl trivial
  | cons row rows ih =>
    rcases exists_closing (n := { depth := depth }) h row with hopen | ⟨t, post, rfl, hopen, hend⟩
    · obtain ⟨-, hdepth⟩ := read_append h hopen []
      rcases ih hdepth with hrest | ⟨above, last, post, below, rfl, hrest, hend⟩
      · exact .inl ⟨hopen, hrest⟩
      · refine .inr ⟨row :: above, last, post, below, rfl, ⟨hopen, hrest⟩, ?_⟩
        rw [List.cons_append, behindRows_cons_snoc, hend]
    · exact .inr ⟨[], t, post, rows, rfl, ⟨hopen, trivial⟩, hend⟩

end Rows

end Nesting

section Group

variable {lines : List Line} {start : Nat} {anchor : Int} {row : Line} {rest : List Line} {pre behind : List Char}
  (hrows : lines.drop start = row :: rest)
  (hopening : row.drop (clampPosition row.length anchor) = pre ++ '(' :: behind) (hpre : '(' ∉ pre)

include hpre in
theorem dropWhile_pre : (pre ++ '(' :: behind).dropWhile (· != '(') = '(' :: behind := by
  have hall : ∀ c ∈ pre, (c != '(') = true := fun c hc => bne_iff_ne.2 fun heq => hpre (heq ▸ hc)
  rw [List.dropWhile_append_of_pos hall, List.dropWhile_cons_of_neg (by decide)]

include hrows hopening hpre

theorem groupAt?_of_closed {pieces : List (List Char)} {k : Nat}
    (h : groupPieces 1 (behind :: rest) = (pieces, some k)) :
    groupAt? lines start anchor = some (joinPieces pieces, ((start + k : Nat) : Int)) := by
  rw [groupAt?, onwards?, if_pos (Int.natCast_nonneg start), Int.toNat_natCast, hrows]
  simp only [Option.map_some, Group.read, hopening, dropWhile_pre hpre, h]
  rfl

theorem groupAt?_of_unclosed {pieces : List (List Char)} (h : groupPieces 1 (behind :: rest) = (pieces, none)) :
    groupAt? lines start anchor = some (joinPieces pieces, (lines.length : Int) - 1) := by
  rw [groupAt?, onwards?, if_pos (Int.natCast_nonneg start), Int.toNat_natCast, hrows]
  simp only [Option.map_some, Group.read, hopening, dropWhile_pre hpre, h]

end Group

open Nesting in
/-- The group that opens at the first parenthesis at or behind a column of a line. If its rows stay away from depth 0
and come back to depth 1 outside literals where a closing parenthesis stands, it ends there, whatever follows; and if
depth 0 is never reached it takes in all lines. One of the two is always so. Its text are the rows without the blanks
around them, those that are not empty, with single spaces between them. -/
theorem group_balanced (lines : List Line) (start : Nat) (anchor : Int) (row : Line) (rest : List Line)
    (pre behind : List Char) (hrows : lines.drop start = row :: rest)
    (hopening : row.drop (clampPosition row.length anchor) = pre ++ '(' :: behind) (hpre : '(' ∉ pre) :
    (∀ (above : List (List Char)) (last post : List Char) (below : List Line),
      behind :: rest = above ++ (last ++ ')' :: post) :: below → NeverClosed 1 (above ++ [last]) →
      behindRows { depth := 1 } (above ++ [last]) = { depth := 1 } →
      groupAt? lines start anchor =
        some ([' '].intercalate (((above ++ [last]).map Text.trim).filter (!·.isEmpty)),
          ((start + above.length : Nat) : Int))) ∧
    (NeverClosed 1 (behind :: rest) →
      groupAt? lines start anchor =
        some ([' '].intercalate (((behind :: rest).map Text.trim).filter (!·.isEmpty)), (lines.length : Int) - 1)) ∧
    (NeverClosed 1 (behind :: rest) ∨
      ∃ (above : List (List Char)) (last post : List Char) (below : List Line),
        behind :: rest = above ++ (last ++ ')' :: post) :: below ∧ NeverClosed 1 (above ++ [last]) ∧
        behindRows { depth := 1 } (above ++ [last]) = { depth := 1 }) := by
  refine ⟨fun above last post below hsplit hopen hend => ?_, fun hopen => ?_, neverClosed_or_closes le_rfl _⟩
  · have hpieces := groupPieces_closed le_rfl hopen hend post below
    rw [← hsplit] at hpieces
    exact groupAt?_of_closed hrows hopening hpre hpieces
  · exact groupAt?_of_unclosed hrows hopening hpre (groupPieces_neverClosed le_rfl hopen)

open Nesting in
/-- Two literals hold a parenthesis, one of them behind a backslash; the last row is blank up to where the group closes.
Without that row the group stays open. -/
theorem group_balanced_three_lines :
    let first := "def f(self, a=\")\",".toList
    let second := "      b=(1, \"\\\")\"),".toList
    let behind := "self, a=\")\",".toList
    let text := "self, a=\")\", b=(1, \"\\\")\"),".toList
    let lines := [first, second, "  ) -> int:".toList, "    pass )".toList]
    NeverClosed 1 [behind, second, "  ".toList] ∧
    behindRows { depth := 1 } [behind, second, "  ".toList] = { depth := 1 } ∧
    groupAt? lines 0 3 = some (text, 2) ∧
    NeverClosed 1 [behind, second] ∧ groupAt? [first, second] 0 3 = some (text, 1) := by
  intro first second behind text lines
  have hopen : NeverClosed 1 [behind, second, "  ".toList] := by decide +kernel
  have hend : behindRows { depth := 1 } [behind, second, "  ".toList] = { depth := 1 } := by decide +kernel
  have hunclosed : NeverClosed 1 [behind, second] := by decide +kernel
  have hclosed := (group_balanced lines 0 3 first (lines.drop 1) " f".toList behind rfl (by decide +kernel)
    (by decide)).1 [behind, second] "  ".toList " -> int:".toList ["    pass )".toList] (by decide +kernel) hopen hend
  have hall := (group_balanced [first, second] 0 3 first [second] " f".toList behind rfl (by decide +kernel)
    (by decide)).2.1 hunclosed
  exact ⟨hopen, hend, hclosed.trans (by decide +kernel), hunclosed, hall.trans (by decide +kernel)⟩

end DesignLint.Source
