import DesignLint.Source.Group
import Mathlib.Tactic

/-! Two ways to read over quoted literals. One empties the literals of a text and counts the parentheses
that are left, the other goes through it character by character and keeps the depth. Where every quote
closes both see the parentheses outside the literals and nothing else, so over the lines of a group the
depth is the number of parentheses that the counts leave open. -/

namespace DesignLint.Source

/-- Does every quote close? `quote` is the literal that is open at the start. A backslash takes the next
character of a literal with it, but no line break. -/
def quotesClose : Option Char → List Char → Bool
  | none, [] => true
  | some _, [] => false
  | none, c :: s => quotesClose (if isQuote c then some c else none) s
  | some q, '\\' :: d :: s => d != '\n' && quotesClose (some q) s
  | some q, c :: s => c != '\\' && quotesClose (if c = q then none else some q) s

def unquoted : Option Char → List Char → List Char
  | _, [] => []
  | none, c :: s => if isQuote c then unquoted (some c) s else c :: unquoted none s
  | some q, '\\' :: _ :: s => unquoted (some q) s
  | some q, c :: s => unquoted (if c = q then none else some q) s

def parens (s : List Char) : Int := (s.count '(' : Int) - (s.count ')' : Int)

section Parens

@[simp] theorem parens_nil : parens [] = 0 := rfl

theorem parens_cons (c : Char) (s : List Char) :
    parens (c :: s) = (if c = '(' then 1 else if c = ')' then -1 else 0) + parens s := by
  unfold parens
  rw [List.count_cons, List.count_cons]
  by_cases hopen : c = '('
  · subst hopen
    simp
    omega
  · by_cases hclose : c = ')'
    · subst hclose
      simp
      omega
    · simp [hopen, hclose]

theorem parens_quote {c : Char} (h : isQuote c = true) (s : List Char) : parens (c :: s) = parens s := by
  have hopen : c ≠ '(' := by rintro rfl; cases h
  have hclose : c ≠ ')' := by rintro rfl; cases h
  rw [parens_cons, if_neg hopen, if_neg hclose, zero_add]

end Parens

section Literals

variable {q c : Char}

theorem quotesClose_none (c : Char) (s : List Char) :
    quotesClose none (c :: s) = quotesClose (if isQuote c then some c else none) s := by
  rw [quotesClose]

theorem quotesClose_of_noQuote {s : List Char} (h : ∀ c ∈ s, isQuote c = false) : quotesClose none s = true := by
  induction s with
  | nil => rfl
  | cons c s ih =>
    obtain ⟨hc, hs⟩ := List.forall_mem_cons.1 h
    rw [quotesClose_none, hc]
    exact ih hs

theorem quotesClose_inside (hc : c ≠ '\\') (s : List Char) :
    quotesClose (some q) (c :: s) = quotesClose (if c = q then none else some q) s := by
  rw [quotesClose]
  · simp [hc]
  · exact fun _ _ h => absurd h hc

theorem quotesClose_escape (q d : Char) (s : List Char) :
    quotesClose (some q) ('\\' :: d :: s) = (d != '\n' && quotesClose (some q) s) := by
  rw [quotesClose]

theorem unquoted_plain (hc : isQuote c = false) (s : List Char) :
    unquoted none (c :: s) = c :: unquoted none s := by
  rw [unquoted, hc, if_neg Bool.false_ne_true]

theorem unquoted_inside (hc : c ≠ '\\') (s : List Char) :
    unquoted (some q) (c :: s) = unquoted (if c = q then none else some q) s := by
  rw [unquoted]
  exact fun _ _ h => absurd h hc

theorem unquoted_escape (q d : Char) (s : List Char) :
    unquoted (some q) ('\\' :: d :: s) = unquoted (some q) s := by
  rw [unquoted]

theorem ne_backslash (h : isQuote q = true) : q ≠ '\\' := by
  rintro rfl
  cases h

/-- A literal that closes is passed over. -/
theorem literalSize?_of_quotesClose (hq : isQuote q = true) {s : List Char}
    (h : quotesClose (some q) s = true) :
    ∃ n, literalSize? q s = some n ∧ quotesClose none (s.drop n) = true ∧
      unquoted none (s.drop n) = unquoted (some q) s := by
  fun_induction literalSize? q s with
  | case1 => cases h
  | case2 s =>
    rw [quotesClose_escape] at h
    cases h
  | case3 d s hd ih =>
    rw [quotesClose_escape, Bool.and_eq_true] at h
    obtain ⟨n, hn, hclose, hunquoted⟩ := ih h.2
    refine ⟨n + 2, by rw [hn]; rfl, hclose, ?_⟩
    rw [unquoted_escape]
    exact hunquoted
  | case4 s =>
    have hb := ne_backslash hq
    rw [quotesClose_inside hb, if_pos rfl] at h
    refine ⟨1, rfl, h, ?_⟩
    rw [unquoted_inside hb, if_pos rfl]
    rfl
  | case5 s hs =>
    cases s with
    | nil => simp [quotesClose] at h
    | cons d s => exact (hs d s rfl rfl).elim
  | case6 c s hs hcq hc ih =>
    rw [quotesClose_inside hc, if_neg hcq] at h
    obtain ⟨n, hn, hclose, hunquoted⟩ := ih h
    refine ⟨n + 1, by rw [hn]; rfl, hclose, ?_⟩
    rw [unquoted_inside hc, if_neg hcq]
    exact hunquoted

theorem go_skip (n : Nat) (s : List Char) : emptyLiterals.go n s = emptyLiterals.go 0 (s.drop n) := by
  induction n generalizing s with
  | zero => rfl
  | succ n ih =>
    cases s with
    | nil => rfl
    | cons c s => exact ih s

/-- Emptied literals have no parentheses, and nothing else is lost. -/
theorem parens_emptied {s : List Char} (h : quotesClose none s = true) :
    parens (emptyLiterals.go 0 s) = parens (unquoted none s) := by
  -- a literal is left in one go, so the rest is shorter but not the tail
  induction hlength : s.length using Nat.strong_induction_on generalizing s with
  | _ length ih =>
    subst hlength
    cases s with
    | nil => rfl
    | cons c s =>
      rw [quotesClose_none] at h
      rw [emptyLiterals.go, unquoted]
      split_ifs at h ⊢ with hc
      · obtain ⟨n, hn, hclose, hunquoted⟩ := literalSize?_of_quotesClose hc h
        simp only [hn]
        rw [parens_quote hc, parens_quote hc, go_skip, ← hunquoted]
        refine ih _ ?_ hclose rfl
        rw [List.length_drop, List.length_cons]
        omega
      · rw [parens_cons, parens_cons, ih _ (Nat.lt_succ_self _) h rfl]

theorem parenBalance_of_quotesClose {s : List Char} (h : quotesClose none s = true) :
    parenBalance s = parens (unquoted none s) :=
  parens_emptied h

end Literals

section Plain

def isPlain (c : Char) : Bool := !isQuote c && c != '(' && c != ')'

variable {t : List Char} (h : ∀ c ∈ t, isPlain c = true) (s : List Char)

include h

theorem quotesClose_behind_plain : quotesClose none (t ++ s) = quotesClose none s := by
  induction t with
  | nil => rfl
  | cons c t ih =>
    have hc := h c List.mem_cons_self
    simp only [isPlain, Bool.and_eq_true, Bool.not_eq_true'] at hc
    rw [List.cons_append, quotesClose_none, hc.1.1, if_neg Bool.false_ne_true]
    exact ih fun c hc => h c (List.mem_cons_of_mem _ hc)

theorem parens_behind_plain : parens (unquoted none (t ++ s)) = parens (unquoted none s) := by
  induction t with
  | nil => rfl
  | cons c t ih =>
    have hc := h c List.mem_cons_self
    simp only [isPlain, Bool.and_eq_true, Bool.not_eq_true', bne_iff_ne] at hc
    rw [List.cons_append, unquoted_plain hc.1.1, parens_cons, if_neg hc.1.2, if_neg hc.2, zero_add]
    exact ih fun c hc => h c (List.mem_cons_of_mem _ hc)

/-- The first parenthesis of a line is open behind it. -/
theorem parenBalance_of_first (hclose : quotesClose none (t ++ '(' :: s) = true) :
    quotesClose none s = true ∧ parenBalance (t ++ '(' :: s) = 1 + parenBalance s := by
  have hs : quotesClose none s = true := by
    rwa [quotesClose_behind_plain h, quotesClose_none] at hclose
  refine ⟨hs, ?_⟩
  rw [parenBalance_of_quotesClose hclose, parenBalance_of_quotesClose hs, parens_behind_plain h,
    unquoted_plain rfl, parens_cons, if_pos rfl]

end Plain

section Inside

inductive ReadsOn (depth : Nat) (quote : Option Char) (s : List Char) : List Char × Option Nat → Prop
  | stays {piece : List Char} {d : Nat} (hpos : 1 ≤ d)
      (hdepth : depth + parens (unquoted quote s) = d) : ReadsOn depth quote s (piece, some d)
  | closes {piece : List Char}
      (hdepth : depth + parens (unquoted quote s) = parens (unquoted none (s.drop (piece.length + 1)))) :
      ReadsOn depth quote s (piece, none)

/-- Some characters further on. -/
theorem ReadsOn.behind {depth depth' : Nat} {quote quote' : Option Char} {s : List Char}
    {x : List Char × Option Nat} (h : ReadsOn depth' quote' s x) (t : List Char)
    (heq : depth + parens (unquoted quote (t ++ s)) = depth' + parens (unquoted quote' s)) :
    ReadsOn depth quote (t ++ s) (t ++ x.1, x.2) := by
  cases h with
  | stays hpos hdepth => exact .stays hpos (heq.trans hdepth)
  | closes hdepth =>
    refine .closes (heq.trans (hdepth.trans ?_))
    rw [List.length_append, Nat.add_assoc, List.drop_length_add_append]

theorem readInside_readsOn {quote : Option Char} {s : List Char} (h : quotesClose quote s = true)
    {depth : Nat} (hdepth : 1 ≤ depth) :
    ReadsOn depth quote s (readInside depth quote false s) := by
  fun_induction quotesClose quote s generalizing depth with
  | case1 => exact .stays hdepth (by simp [unquoted])
  | case2 q => cases h
  | case3 c s ih =>
    cases hc : isQuote c with
    | true =>
      simp only [readInside, hc, if_true] at h ih ⊢
      refine (ih h hdepth).behind [c] ?_
      simp [unquoted, hc]
    | false =>
      simp only [hc, Bool.false_eq_true, if_false] at h ih
      have hunquoted := congrArg parens (unquoted_plain hc s)
      rw [parens_cons] at hunquoted
      simp only [readInside, hc, Bool.false_eq_true, if_false]
      split_ifs with hopen hclose hlast
      · refine (ih h (Nat.le_add_left 1 depth)).behind [c] ?_
        rw [List.singleton_append, hunquoted, if_pos hopen]
        push_cast
        omega
      · refine .closes ?_
        rw [hunquoted, if_neg hopen, if_pos hclose, List.length_nil, Nat.zero_add, List.drop_one, List.tail_cons]
        omega
      · refine (ih h (by omega)).behind [c] ?_
        rw [List.singleton_append, hunquoted, if_neg hopen, if_pos hclose]
        omega
      · refine (ih h hdepth).behind [c] ?_
        rw [List.singleton_append, hunquoted, if_neg hopen, if_neg hclose, zero_add]
  | case4 q d s ih =>
    rw [Bool.and_eq_true] at h
    refine (ih h.2 hdepth).behind ['\\', d] ?_
    exact congrArg _ (congrArg parens (unquoted_escape q d s))
  | case5 q c s hs ih =>
    rw [Bool.and_eq_true, bne_iff_ne] at h
    have hunquoted := congrArg parens (unquoted_inside (q := q) h.1 s)
    simp only [readInside, h.1, Bool.false_eq_true, if_false]
    split_ifs with hcq
    · rw [if_pos hcq] at h ih hunquoted
      refine (ih h.2 hdepth).behind [c] ?_
      rw [List.singleton_append, hunquoted]
    · rw [if_neg hcq] at h ih hunquoted
      refine (ih h.2 hdepth).behind [c] ?_
      rw [List.singleton_append, hunquoted]

end Inside

section Closing

/-- Where the group closes that is open at depth `depth`: how many lines further, and what follows its
closing parenthesis on that line. -/
def closing? (depth : Nat) : List Line → Option (Nat × List Char)
  | [] => none
  | row :: rows =>
    match readInside depth none false row with
    | (piece, none) => some (0, row.drop (piece.length + 1))
    | (_, some d) => (closing? d rows).map fun found => (found.1 + 1, found.2)

/-- A group closes with a parenthesis. -/
theorem readInside_closes {depth : Nat} {quote : Option Char} {escaped : Bool} {s piece : List Char}
    (h : readInside depth quote escaped s = (piece, none)) :
    s = piece ++ ')' :: s.drop (piece.length + 1) := by
  induction s generalizing depth quote escaped piece with
  | nil => cases h
  | cons c s ih =>
    have hkeep : ∀ {depth quote escaped}, ((c :: (readInside depth quote escaped s).1,
        (readInside depth quote escaped s).2) : List Char × Option Nat) = (piece, none) →
        c :: s = piece ++ ')' :: (c :: s).drop (piece.length + 1) := by
      intro depth quote escaped hx
      obtain ⟨rfl, hnone⟩ := Prod.mk.inj hx
      exact congrArg (c :: ·) (ih (Prod.ext rfl hnone))
    cases quote with
    | some q =>
      simp only [readInside] at h
      split_ifs at h <;> exact hkeep h
    | none =>
      simp only [readInside] at h
      split_ifs at h with hquote hopen hclose hlast
      · exact hkeep h
      · exact hkeep h
      · cases h
        rw [hclose]
        rfl
      · exact hkeep h
      · exact hkeep h

theorem groupPieces_closing? (depth : Nat) (rows : List Line) :
    (groupPieces depth rows).2 = (closing? depth rows).map (·.1) := by
  induction rows generalizing depth with
  | nil => rfl
  | cons row rows ih =>
    rw [groupPieces, closing?]
    cases readInside depth none false row with
    | mk piece d =>
      cases d with
      | none => rfl
      | some d =>
        simp only [ih, Option.map_map]
        rfl

theorem closing?_behind {rows : List Line} {depth k : Nat} {rest : List Char}
    (h : closing? depth rows = some (k, rest)) : ∃ row ∈ rows[k]?, (')' :: rest) <:+ row := by
  induction rows generalizing depth k with
  | nil => cases h
  | cons row rows ih =>
    rw [closing?] at h
    cases hread : readInside depth none false row with
    | mk piece d =>
      rw [hread] at h
      cases d with
      | none =>
        obtain ⟨rfl, rfl⟩ := Prod.mk.inj (Option.some.inj h)
        exact ⟨row, rfl, piece, (readInside_closes hread).symm⟩
      | some d =>
        obtain ⟨⟨k, _⟩, hfound, hk⟩ := Option.map_eq_some_iff.1 h
        obtain ⟨rfl, rfl⟩ := Prod.mk.inj hk
        exact ih hfound

def openIn (depth : Int) (rows : List Line) : Int :=
  depth + (rows.map parenBalance).sum

@[simp] theorem openIn_nil (depth : Int) : openIn depth [] = depth := add_zero depth

theorem openIn_cons (depth : Int) (row : Line) (rows : List Line) :
    openIn depth (row :: rows) = openIn (depth + parenBalance row) rows := by
  rw [openIn, openIn, List.map_cons, List.sum_cons, add_assoc]

/-- Up to the line on which a group closes the counts leave parentheses open, and behind it they leave
those that follow on that line. -/
theorem openIn_of_closing? {rows : List Line} {depth : Nat} (hdepth : 1 ≤ depth) {k : Nat}
    {rest : List Char} (h : closing? depth rows = some (k, rest))
    (hquotes : ∀ row ∈ rows.take (k + 1), quotesClose none row = true) :
    k < rows.length ∧ (∀ i < k, 0 < openIn depth (rows.take (i + 1))) ∧
      openIn depth (rows.take (k + 1)) = parens (unquoted none rest) := by
  induction rows generalizing depth k with
  | nil => cases h
  | cons row rows ih =>
    have hrow : quotesClose none row = true := hquotes row (by simp)
    have hbalance := parenBalance_of_quotesClose hrow
    rw [closing?] at h
    cases hx : readInside depth none false row with
    | mk piece d =>
      have hreads := hx ▸ readInside_readsOn hrow hdepth
      rw [hx] at h
      cases hreads with
      | closes hcount =>
        obtain ⟨rfl, rfl⟩ := Prod.mk.inj (Option.some.inj h)
        refine ⟨Nat.succ_pos _, fun i hi => absurd hi (Nat.not_lt_zero i), ?_⟩
        rw [List.take_succ_cons, List.take_zero, openIn_cons, openIn_nil, hbalance, hcount]
      | @stays _ d hpos hcount =>
        obtain ⟨⟨k, _⟩, hfound, hk⟩ := Option.map_eq_some_iff.1 h
        obtain ⟨rfl, rfl⟩ := Prod.mk.inj hk
        have hlater := fun r hr => hquotes r (List.mem_cons_of_mem row hr)
        obtain ⟨hlt, hopen, hend⟩ := ih hpos hfound hlater
        rw [← hbalance] at hcount
        have htake : ∀ i, openIn depth ((row :: rows).take (i + 1)) = openIn d (rows.take i) := by
          intro i
          rw [List.take_succ_cons, openIn_cons, hcount]
        refine ⟨Nat.succ_lt_succ hlt, fun i hi => ?_, (htake _).trans hend⟩
        rw [htake]
        cases i with
        | zero =>
          rw [List.take_zero, openIn_nil]
          omega
        | succ i => exact hopen i (Nat.lt_of_succ_lt_succ hi)

/-- What follows the closing parenthesis of the group that opens on line `start` at or behind `column`, on
the line on which it closes. There is none if there is no such group, or if it never closes. -/
def behindGroup? (lines : List Line) (start column : Nat) : Option (List Char) :=
  match lines.drop start with
  | [] => none
  | row :: rows =>
    match (row.drop column).dropWhile (· != '(') with
    | [] => none
    | _ :: s => (closing? 1 (s :: rows)).map (·.2)

section Group

variable {lines : List Line} {start column : Nat} {row : Line} {s : List Char}
  (hrow : lines[start]? = some row) (hs : (row.drop column).dropWhile (· != '(') = '(' :: s)

include hrow hs

theorem behindGroup?_eq :
    behindGroup? lines start column = (closing? 1 (s :: lines.drop (start + 1))).map (·.2) := by
  obtain ⟨hlt, rfl⟩ := List.getElem?_eq_some_iff.1 hrow
  rw [behindGroup?, List.drop_eq_getElem_cons hlt]
  simp only [hs]

theorem groupAt?_of_closing? {n : Nat} {rest : List Char}
    (h : closing? 1 (s :: lines.drop (start + 1)) = some (n, rest)) :
    ∃ text, groupAt? lines start column = some (text, ((start + n : Nat) : Int)) := by
  obtain ⟨hlt, rfl⟩ := List.getElem?_eq_some_iff.1 hrow
  have hclamp : lines[start].drop (clampPosition lines[start].length column) = lines[start].drop column := by
    rw [clampPosition, if_neg (by omega), Int.toNat_natCast]
    rcases Nat.le_total column lines[start].length with hle | hle
    · rw [Nat.min_eq_left hle]
    · rw [Nat.min_eq_right hle, List.drop_length, List.drop_eq_nil_of_le hle]
  have hpieces := groupPieces_closing? 1 (s :: lines.drop (start + 1))
  rw [h] at hpieces
  refine ⟨joinPieces (groupPieces 1 (s :: lines.drop (start + 1))).1, ?_⟩
  rw [groupAt?, onwards?, if_pos (Int.natCast_nonneg start), Int.toNat_natCast,
    List.drop_eq_getElem_cons hlt]
  simp only [Option.map_some, Group.read, hclamp, hs]
  cases hgroup : groupPieces 1 (s :: lines.drop (start + 1)) with
  | mk pieces k =>
    rw [hgroup] at hpieces
    cases hpieces
    rfl

end Group

end Closing

end DesignLint.Source
