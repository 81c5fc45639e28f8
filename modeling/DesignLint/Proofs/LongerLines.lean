import DesignLint.Proofs.Quotes
import DesignLint.Proofs.TrimmedTexts
import DesignLint.Source.Parameter
import Mathlib.Data.List.TakeWhile

/-! Lines with more text behind them. Parentheses are counted in both parts, and a group that goes on behind the
line takes in what is added. -/

namespace DesignLint

theorem mem_intercalate {sep x : List Char} {xs : List (List Char)} (hx : x ∈ xs) {c : Char} (hc : c ∈ x) :
    c ∈ sep.intercalate xs := by
  induction xs with
  | nil => cases hx
  | cons y xs ih =>
    cases xs with
    | nil =>
      rw [List.mem_singleton.1 hx] at hc
      simpa using hc
    | cons z xs =>
      rw [List.intercalate_cons_cons, List.append_assoc]
      rcases List.mem_cons.1 hx with rfl | hx
      · exact List.mem_append_left _ hc
      · exact List.mem_append_right _ (List.mem_append_right _ (ih hx))

namespace Text

/-- What stands in a text is found there or before. -/
theorem exists_find? (part lead trail : List Char) :
    ∃ p ≤ lead.length, find? part (lead ++ (part ++ trail)) = some p := by
  induction lead with
  | nil =>
    refine ⟨0, le_rfl, ?_⟩
    cases hs : part ++ trail with
    | nil => simp [find?, (List.append_eq_nil_iff.1 hs).1]
    | cons c s =>
      have hprefix : part <+: c :: s := hs ▸ List.prefix_append part trail
      rw [List.nil_append, find?, if_pos (List.isPrefixOf_iff_prefix.2 hprefix)]
  | cons c lead ih =>
    obtain ⟨p, hp, hfind⟩ := ih
    rw [List.cons_append, find?]
    split_ifs with hprefix
    · exact ⟨0, Nat.zero_le _, rfl⟩
    · exact ⟨p + 1, Nat.succ_le_succ hp, by rw [hfind]; rfl⟩

end Text

namespace Source

section Counts

theorem literalSize?_append {q : Char} (hq : q ≠ '\\') {s : List Char} {n : Nat} (h : literalSize? q s = some n)
    (u : List Char) : literalSize? q (s ++ u) = some n ∧ n ≤ s.length := by
  fun_induction literalSize? q s generalizing n with
  | case1 | case2 | case5 => cases h
  | case3 d s hd ih =>
    obtain ⟨n, hn, rfl⟩ := Option.map_eq_some_iff.1 h
    obtain ⟨hu, hle⟩ := ih hn
    refine ⟨?_, Nat.add_le_add_right hle 2⟩
    simp only [List.cons_append, literalSize?, hd, if_false, hu]
    rfl
  | case4 s hs =>
    cases h
    refine ⟨?_, Nat.le_add_left 1 s.length⟩
    rw [List.cons_append, literalSize?, if_pos rfl]
    exact fun _ _ hc => absurd hc hq
  | case6 c s hs hcq hc ih =>
    obtain ⟨n, hn, rfl⟩ := Option.map_eq_some_iff.1 h
    obtain ⟨hu, hle⟩ := ih hn
    refine ⟨?_, Nat.succ_le_succ hle⟩
    rw [List.cons_append, literalSize?, if_neg hcq, if_neg hc, hu]
    · rfl
    · exact fun _ _ hback => absurd hback hc

theorem emptied_append {s : List Char} (h : quotesClose none s = true) (u : List Char) :
    emptyLiterals.go 0 (s ++ u) = emptyLiterals.go 0 s ++ emptyLiterals.go 0 u := by
  -- a literal is left in one go, so the rest is shorter but not the tail
  induction hlength : s.length using Nat.strong_induction_on generalizing s with
  | _ length ih =>
    subst hlength
    cases s with
    | nil => rfl
    | cons c s =>
      rw [quotesClose_none] at h
      rw [List.cons_append, emptyLiterals.go, emptyLiterals.go]
      split_ifs at h ⊢ with hc
      · obtain ⟨n, hn, hclose, -⟩ := literalSize?_of_quotesClose hc h
        obtain ⟨hu, hle⟩ := literalSize?_append (ne_backslash hc) hn u
        have hrest : (s.drop n).length < (c :: s).length := by
          rw [List.length_drop, List.length_cons]
          omega
        simp only [hn, hu]
        rw [go_skip n (s ++ u), go_skip n s, List.drop_append_of_le_length hle, ih _ hrest hclose rfl]
        rfl
      · rw [ih _ (Nat.lt_succ_self _) h rfl]
        rfl

/-- Where the quotes of a line close, the text behind it is counted on its own. -/
theorem parenBalance_append {s : List Char} (h : quotesClose none s = true) (u : List Char) :
    parenBalance (s ++ u) = parenBalance s + parenBalance u := by
  simp only [parenBalance, emptyLiterals, emptied_append h, List.count_append]
  push_cast
  ring

end Counts

section Groups

/-- A group that closes on a line does not read what stands behind the line. -/
theorem readInside_append_closed {depth : Nat} {quote : Option Char} {escaped : Bool} {s piece : List Char}
    (h : readInside depth quote escaped s = (piece, none)) (u : List Char) :
    readInside depth quote escaped (s ++ u) = (piece, none) := by
  induction s generalizing depth quote escaped piece with
  | nil => cases h
  | cons c s ih =>
    have hkeep : ∀ {depth quote escaped}, ((c :: (readInside depth quote escaped s).1,
        (readInside depth quote escaped s).2) : List Char × Option Nat) = (piece, none) →
        ((c :: (readInside depth quote escaped (s ++ u)).1,
          (readInside depth quote escaped (s ++ u)).2) : List Char × Option Nat) = (piece, none) := by
      intro depth quote escaped hx
      obtain ⟨rfl, hnone⟩ := Prod.mk.inj hx
      rw [ih (Prod.ext rfl hnone)]
    cases quote with
    | some q =>
      simp only [List.cons_append, readInside] at h ⊢
      split_ifs at h ⊢ <;> exact hkeep h
    | none =>
      simp only [List.cons_append, readInside] at h ⊢
      split_ifs at h ⊢ with hquote hopen hclose hlast
      · exact hkeep h
      · exact hkeep h
      · exact h
      · exact hkeep h
      · exact hkeep h

/-- A group that is still open behind a line, where the quotes close, reads on outside of literals. -/
theorem readInside_append_open {quote : Option Char} {s : List Char} (hquotes : quotesClose quote s = true)
    {depth d : Nat} {piece : List Char} (h : readInside depth quote false s = (piece, some d)) (u : List Char) :
    readInside depth quote false (s ++ u) =
      (s ++ (readInside d none false u).1, (readInside d none false u).2) := by
  fun_induction quotesClose quote s generalizing depth piece with
  | case1 =>
    cases h
    rfl
  | case2 q => cases hquotes
  | case3 c s ih =>
    cases hc : isQuote c with
    | true =>
      simp only [hc, if_true] at hquotes ih
      simp only [List.cons_append, readInside, hc, if_true] at h ⊢
      rw [ih hquotes (Prod.ext rfl (Prod.mk.inj h).2)]
    | false =>
      simp only [hc, Bool.false_eq_true, if_false] at hquotes ih
      simp only [List.cons_append, readInside, hc, Bool.false_eq_true, if_false] at h ⊢
      split_ifs at h ⊢ with hopen hclose hlast
      · rw [ih hquotes (Prod.ext rfl (Prod.mk.inj h).2)]
      · cases h
      · rw [ih hquotes (Prod.ext rfl (Prod.mk.inj h).2)]
      · rw [ih hquotes (Prod.ext rfl (Prod.mk.inj h).2)]
  | case4 q c s ih =>
    rw [Bool.and_eq_true] at hquotes
    have hread : ∀ s, readInside depth (some q) false ('\\' :: c :: s) =
        ('\\' :: c :: (readInside depth (some q) false s).1, (readInside depth (some q) false s).2) :=
      fun _ => rfl
    rw [hread] at h
    rw [List.cons_append, List.cons_append, hread, ih hquotes.2 (Prod.ext rfl (Prod.mk.inj h).2)]
    rfl
  | case5 q c s hs ih =>
    rw [Bool.and_eq_true, bne_iff_ne] at hquotes
    simp only [List.cons_append, readInside, hquotes.1, Bool.false_eq_true, if_false] at h ⊢
    split_ifs at h ⊢ with hcq
    · rw [if_pos hcq] at hquotes ih
      rw [ih hquotes.2 (Prod.ext rfl (Prod.mk.inj h).2)]
    · rw [if_neg hcq] at hquotes ih
      rw [ih hquotes.2 (Prod.ext rfl (Prod.mk.inj h).2)]

theorem groupPieces_closed {above : List Line} {row : Line} {depth k : Nat}
    (h : (groupPieces depth (above ++ [row])).2 = some k) (u : List Char) (below : List Line) :
    groupPieces depth (above ++ (row ++ u) :: below) = groupPieces depth (above ++ [row]) := by
  induction above generalizing depth k with
  | nil =>
    rw [List.nil_append, groupPieces] at h
    rw [List.nil_append, List.nil_append, groupPieces, groupPieces]
    cases hread : readInside depth none false row with
    | mk piece d =>
      cases d with
      | none => rw [readInside_append_closed hread]
      | some d =>
        rw [hread] at h
        cases h
  | cons first above ih =>
    rw [List.cons_append, groupPieces] at h
    rw [List.cons_append, List.cons_append, groupPieces, groupPieces]
    cases hread : readInside depth none false first with
    | mk piece d =>
      cases d with
      | none => rfl
      | some d =>
        rw [hread] at h
        obtain ⟨j, hj, -⟩ := Option.map_eq_some_iff.1 h
        simp only [ih hj]

def comment (text : List Char) : List Char := "  # ".toList ++ text

/-- A comment behind a line of a group that goes on is in the group. -/
theorem groupPieces_comment {above : List Line} {row : Line} (hquotes : quotesClose none row = true)
    {depth : Nat} (h : (groupPieces depth (above ++ [row])).2 = none) (text : List Char) (below : List Line) :
    ∃ piece ∈ (groupPieces depth (above ++ (row ++ comment text) :: below)).1, '#' ∈ piece := by
  induction above generalizing depth with
  | nil =>
    rw [List.nil_append, groupPieces] at h
    rw [List.nil_append, groupPieces]
    cases hread : readInside depth none false row with
    | mk piece d =>
      cases d with
      | none =>
        rw [hread] at h
        cases h
      | some d =>
        rw [readInside_append_open hquotes hread]
        have hmark : '#' ∈ (readInside d none false (comment text)).1 := by
          simp [comment, readInside, isQuote]
        refine ⟨_, ?_, List.mem_append_right row hmark⟩
        cases (readInside d none false (comment text)).2 with
        | none => exact List.mem_cons_self
        | some e => exact List.mem_cons_self
  | cons first above ih =>
    rw [List.cons_append, groupPieces] at h
    rw [List.cons_append, groupPieces]
    cases hread : readInside depth none false first with
    | mk piece d =>
      cases d with
      | none =>
        rw [hread] at h
        cases h
      | some d =>
        rw [hread] at h
        obtain ⟨found, hfound, hmem⟩ := ih (Option.map_eq_none_iff.1 h)
        exact ⟨found, List.mem_cons_of_mem _ hfound, hmem⟩

end Groups

section Pieces

variable {c : Char} (hblank : Text.isBlank c = false)

include hblank

/-- Pieces are trimmed, and those that are blank are left out. -/
theorem exists_mem_trimmed {pieces : List (List Char)} (h : ∃ piece ∈ pieces, c ∈ piece) :
    ∃ piece ∈ (pieces.map Text.trim).filter (!·.isEmpty), c ∈ piece := by
  obtain ⟨piece, hpiece, hc⟩ := h
  have htrim := Text.mem_trim hc hblank
  refine ⟨Text.trim piece, List.mem_filter.2 ⟨List.mem_map_of_mem hpiece, ?_⟩, htrim⟩
  cases hnil : Text.trim piece with
  | nil =>
    rw [hnil] at htrim
    cases htrim
  | cons => rfl

theorem mem_joinPieces {pieces : List (List Char)} (h : ∃ piece ∈ pieces, c ∈ piece) :
    c ∈ joinPieces pieces := by
  obtain ⟨piece, hpiece, hc⟩ := exists_mem_trimmed hblank h
  exact mem_intercalate hpiece hc

omit hblank

theorem exists_mem_consFirst {d : Char} {pieces : List (List Char)} (h : c = d ∨ ∃ piece ∈ pieces, c ∈ piece) :
    ∃ piece ∈ consFirst d pieces, c ∈ piece := by
  cases pieces with
  | nil =>
    rcases h with rfl | ⟨piece, hpiece, -⟩
    · exact ⟨[c], List.mem_singleton_self _, List.mem_singleton_self c⟩
    · cases hpiece
  | cons first pieces =>
    rcases h with rfl | ⟨piece, hpiece, hc⟩
    · exact ⟨c :: first, List.mem_cons_self, List.mem_cons_self⟩
    rcases List.mem_cons.1 hpiece with rfl | hpiece
    · exact ⟨d :: piece, List.mem_cons_self, List.mem_cons_of_mem d hc⟩
    · exact ⟨piece, List.mem_cons_of_mem _ hpiece, hc⟩

theorem exists_mem_commaPieces (hcomma : c ≠ ',') {s : List Char} (hc : c ∈ s) (depth : Nat)
    (before : Option Char) : ∃ piece ∈ commaPieces depth before s, c ∈ piece := by
  induction s generalizing depth before with
  | nil => cases hc
  | cons d s ih =>
    simp only [commaPieces]
    split_ifs with hsplit
    · rcases List.mem_cons.1 hc with rfl | hc
      · exact absurd hsplit.1 hcomma
      · obtain ⟨piece, hpiece, hmem⟩ := ih hc _ (some d)
        exact ⟨piece, List.mem_cons_of_mem _ hpiece, hmem⟩
    · exact exists_mem_consFirst ((List.mem_cons.1 hc).imp_right fun hc => ih hc _ _)

include hblank

/-- A parameter list loses blanks and commas only. -/
theorem exists_mem_parameters (hcomma : c ≠ ',') {s : List Char} (hc : c ∈ s) :
    ∃ p ∈ parameters s, c ∈ p :=
  exists_mem_trimmed hblank (exists_mem_commaPieces hcomma hc 0 none)

end Pieces

end Source

end DesignLint
