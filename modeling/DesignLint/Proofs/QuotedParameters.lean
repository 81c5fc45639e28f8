import DesignLint.Proofs.LeadingBlanks
import DesignLint.Proofs.ParameterPieces

/-! Literals in a parameter list. Their contents are split like the rest of the list: a comma in a literal can end
a parameter, and a bracket in it can hide the commas behind it. Two contents are interchangeable exactly when they
split off as many parameters and leave the same bracket depth. -/

namespace DesignLint.Source

/-- The parameters that the content of a literal adds to the one in which the literal begins. -/
def splitOff : List (List Char) → Nat
  | _ :: next :: more => (kept (next :: more).dropLast).length + 1
  | _ => 0

section Count

theorem isBlank_of_isQuote {q : Char} (h : isQuote q = true) : Text.isBlank q = false := by
  by_contra hblank
  have hplain := isPlain_of_isBlank (by simpa using hblank)
  simp [isPlain, h] at hplain

/-- What stands between two parts is one parameter, if it is not blank. -/
theorem length_kept_glue {pieces : List (List Char)} (hpieces : pieces ≠ []) {c : Char}
    (hc : Text.isBlank c = false) {first : List Char} (hfirst : c ∈ first) (more : List (List Char)) :
    (kept (glue pieces (first :: more))).length = (kept pieces.dropLast).length + 1 + (kept more).length := by
  induction pieces with
  | nil => exact absurd rfl hpieces
  | cons piece pieces ih =>
    cases pieces with
    | nil =>
      have htrim : Text.trim (piece ++ first) ≠ [] :=
        List.ne_nil_of_mem (Text.mem_trim (List.mem_append_right piece hfirst) hc)
      rw [glue, List.modifyHead_cons, kept_cons htrim, List.length_cons, List.dropLast_singleton, kept_nil,
        List.length_nil]
      omega
    | cons next pieces =>
      have hrest := ih (List.cons_ne_nil _ _)
      have hhead := kept_append [piece] (glue (next :: pieces) (first :: more))
      have hhead' := kept_append [piece] (next :: pieces).dropLast
      rw [List.singleton_append] at hhead hhead'
      rw [glue, hhead, List.dropLast_cons_cons, hhead', List.length_append, List.length_append, hrest]
      omega

theorem exists_consFirst (c : Char) {pieces : List (List Char)} (h : pieces ≠ []) :
    ∃ first, consFirst c pieces = (c :: first) :: pieces.tail := by
  obtain ⟨first, more, rfl⟩ := List.exists_cons_of_ne_nil h
  exact ⟨first, rfl⟩

variable {q : Char} (hq : isQuote q = true)

include hq

theorem commaPieces_quote (depth : Nat) (before : Option Char) (s : List Char) :
    commaPieces depth before (q :: s) = consFirst q (commaPieces depth (some q) s) := by
  have hplain := not_mem_separators (by decide) hq
  have hcomma : q ≠ ',' := by
    rintro rfl
    cases hq
  rw [commaPieces, bracketDepth_eq hplain, if_neg fun h => hcomma h.1]

/-- The parameters of a list with a literal: those before it, the one in which it begins, those that its content
splits off, and those behind it at the depth that the content leaves. -/
theorem length_parameters_literal (a s b : List Char) :
    (parameters (a ++ q :: (s ++ q :: b))).length =
      (kept (commaPieces 0 none a).dropLast).length + 1 +
        splitOff (commaPieces (depthBehind 0 none a) (some q) s) +
        (kept (commaPieces (depthBehind (depthBehind 0 none a) (some q) s) (some q) b).tail).length := by
  have hblank := isBlank_of_isQuote hq
  rw [parameters_eq, commaPieces_append, commaPieces_quote hq, commaPieces_append, commaPieces_quote hq]
  generalize depthBehind 0 none a = depth
  obtain ⟨last, hlast⟩ := exists_consFirst q (commaPieces_ne_nil (depthBehind depth (some q) s) (some q) b)
  rw [hlast]
  generalize hs : commaPieces depth (some q) s = pieces
  have hpieces : pieces ≠ [] := hs ▸ commaPieces_ne_nil _ _ _
  obtain ⟨piece, more, rfl⟩ := List.exists_cons_of_ne_nil hpieces
  cases more with
  | nil =>
    rw [glue, List.modifyHead_cons, consFirst, length_kept_glue (commaPieces_ne_nil _ _ _) hblank List.mem_cons_self]
    rfl
  | cons next more =>
    rw [glue, consFirst, length_kept_glue (commaPieces_ne_nil _ _ _) hblank List.mem_cons_self,
      length_kept_glue (List.cons_ne_nil _ _) hblank List.mem_cons_self, splitOff]
    omega

end Count

section Depth

/-- A comma behind closing brackets tells whether they bring the depth down to zero. -/
theorem length_kept_closers (n depth : Nat) (before : Option Char) :
    (kept (commaPieces depth before (List.replicate n ')' ++ ",x".toList)).tail).length =
      if depth ≤ n then 1 else 0 := by
  induction n generalizing depth before with
  | zero =>
    cases depth with
    | zero => rfl
    | succ depth => rfl
  | succ n ih =>
    have hdepth : bracketDepth depth before ')' = depth - 1 := by simp [bracketDepth, opensBracket, closesBracket]
    obtain ⟨first, hfirst⟩ := exists_consFirst ')'
      (commaPieces_ne_nil (depth - 1) (some ')') (List.replicate n ')' ++ ",x".toList))
    rw [List.replicate_succ, List.cons_append, commaPieces, hdepth, if_neg (by simp), hfirst, List.tail_cons, ih]
    simp only [Nat.sub_le_iff_le_add]

/-- Of two contents that leave different depths, one hides a comma that the other does not. -/
theorem eq_of_length_kept {depth depth' : Nat} (before : Option Char)
    (h : ∀ b, (kept (commaPieces depth before b).tail).length = (kept (commaPieces depth' before b).tail).length) :
    depth = depth' := by
  have hle := h (List.replicate depth ')' ++ ",x".toList)
  have hge := h (List.replicate depth' ')' ++ ",x".toList)
  rw [length_kept_closers, length_kept_closers] at hle hge
  split_ifs at hle hge <;> omega

/-- A content without commas and brackets is one piece and leaves the depth as it is. -/
theorem commaPieces_plain {s : List Char} (h : ∀ c ∈ s, c ∉ separators) (depth : Nat) (before : Option Char) :
    commaPieces depth before s = [s] ∧ depthBehind depth before s = depth := by
  induction s generalizing before with
  | nil => exact ⟨rfl, rfl⟩
  | cons c s ih =>
    obtain ⟨hc, hs⟩ := List.forall_mem_cons.1 h
    have hcomma : c ≠ ',' := by
      rintro rfl
      exact hc (by decide)
    obtain ⟨hpieces, hdepth⟩ := ih hs (some c)
    rw [commaPieces, depthBehind, bracketDepth_eq hc, if_neg fun h => hcomma h.1, hpieces]
    exact ⟨rfl, hdepth⟩

end Depth

/-- Behind a text two contents of a literal are interchangeable, whatever follows, exactly when they split off as
many parameters and leave the same bracket depth. Contents without commas and brackets always are. -/
theorem interchangeable_contents (q : Char) (hq : isQuote q = true) (a s t : List Char) :
    ((∀ b, (parameters (a ++ q :: (s ++ q :: b))).length = (parameters (a ++ q :: (t ++ q :: b))).length) ↔
      splitOff (commaPieces (depthBehind 0 none a) (some q) s) =
          splitOff (commaPieces (depthBehind 0 none a) (some q) t) ∧
        depthBehind (depthBehind 0 none a) (some q) s = depthBehind (depthBehind 0 none a) (some q) t) ∧
    ((∀ c ∈ s ++ t, c ∉ separators) →
      ∀ b, (parameters (a ++ q :: (s ++ q :: b))).length = (parameters (a ++ q :: (t ++ q :: b))).length) := by
  simp only [length_parameters_literal hq]
  generalize depthBehind 0 none a = depth
  refine ⟨⟨fun h => ?_, ?_⟩, fun hplain b => ?_⟩
  · have hsplit : splitOff (commaPieces depth (some q) s) = splitOff (commaPieces depth (some q) t) :=
      Nat.add_left_cancel (Nat.add_right_cancel (h []))
    refine ⟨hsplit, eq_of_length_kept (some q) fun b => ?_⟩
    have hb := h b
    rw [hsplit] at hb
    exact Nat.add_left_cancel hb
  · rintro ⟨hsplit, hdepth⟩ b
    rw [hsplit, hdepth]
  · obtain ⟨hs, ht⟩ := List.forall_mem_append.1 hplain
    obtain ⟨hpieces, hdepth⟩ := commaPieces_plain hs depth (some q)
    obtain ⟨hpieces', hdepth'⟩ := commaPieces_plain ht depth (some q)
    rw [hpieces, hpieces', hdepth, hdepth']
    rfl

/-- Brackets that match, with a comma between them, change nothing; nor does a content without either. -/
theorem interchangeable_contents_default :
    let a := "a, sep=".toList
    let q := '\x27'
    isQuote q = true ∧ (∀ c ∈ ";".toList ++ "-".toList, c ∉ separators) ∧
      (∀ b, (parameters (a ++ q :: ("(,)".toList ++ q :: b))).length =
        (parameters (a ++ q :: ("".toList ++ q :: b))).length) ∧
      ∀ b, (parameters (a ++ q :: (";".toList ++ q :: b))).length =
        (parameters (a ++ q :: ("-".toList ++ q :: b))).length := by
  intro a q
  have hq : isQuote q = true := by decide
  have hplain : ∀ c ∈ ";".toList ++ "-".toList, c ∉ separators := by simp [separators]
  exact ⟨hq, hplain, (interchangeable_contents q hq a "(,)".toList "".toList).1.2 ⟨by decide, by decide⟩,
    (interchangeable_contents q hq a ";".toList "-".toList).2 hplain⟩

/-- All quotes close, and still a comma in a default value splits it in two. -/
theorem comma_in_literal_splits :
    let a := "a, sep=".toList
    let b := ", b".toList
    quotesClose none a = true ∧ quotesClose none b = true ∧
      parameters (a ++ '\x27' :: (",".toList ++ '\x27' :: b)) =
        ["a".toList, "sep=\x27".toList, "\x27".toList, "b".toList] ∧
      parameters (a ++ '\x27' :: (";".toList ++ '\x27' :: b)) =
        ["a".toList, "sep=\x27;\x27".toList, "b".toList] := by
  decide +kernel

end DesignLint.Source
