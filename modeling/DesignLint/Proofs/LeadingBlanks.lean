import DesignLint.Proofs.LongerLines
import DesignLint.Proofs.Signatures

/-! Blanks at the start of a line. They are trimmed, they hold neither quotes nor parentheses nor names, and a
group loses them at the ends of its pieces; so a line says the same behind other blanks, and a blank line
says nothing. -/

namespace DesignLint

namespace Text

section Lead

variable {lead : List Char} (hlead : ∀ c ∈ lead, isBlank c = true)

include hlead

/-- What starts with no blank is found behind the blanks. -/
theorem find?_behind_blanks {c : Char} (hc : isBlank c = false) (part s : List Char) :
    find? (c :: part) (lead ++ s) = (find? (c :: part) s).map (· + lead.length) := by
  induction lead with
  | nil => simp
  | cons d lead ih =>
    obtain ⟨hd, hlead⟩ := List.forall_mem_cons.1 hlead
    have hne : c ≠ d := by
      rintro rfl
      rw [hc] at hd
      cases hd
    rw [List.cons_append, find?, if_neg (by simp [hne]), ih hlead, Option.map_map]
    rfl

end Lead

end Text

namespace Pattern

theorem go_congr {α : Type} (p : Pattern α) {starts : Option Char → Bool} {before before' : Option Char}
    (h : starts before = starts before') (s : List Char) :
    findAll.go p starts before 0 s = findAll.go p starts before' 0 s := by
  cases s with
  | nil => rfl
  | cons c s => simp only [findAll.go, h]

end Pattern

namespace Source

open Pattern

section Plain

variable {t : List Char} (ht : ∀ c ∈ t, isPlain c = true) (s : List Char)

include ht

theorem parenBalance_behind_plain : parenBalance (t ++ s) = parenBalance s := by
  have hquotes : quotesClose none t = true := by
    have hclose := quotesClose_behind_plain ht []
    rwa [List.append_nil] at hclose
  have hparens := parens_behind_plain ht []
  rw [List.append_nil] at hparens
  rw [parenBalance_append hquotes, parenBalance_of_quotesClose hquotes, hparens]
  exact zero_add _

theorem readInside_behind_plain (depth : Nat) : readInside depth none false (t ++ s) =
    (t ++ (readInside depth none false s).1, (readInside depth none false s).2) := by
  induction t with
  | nil => rfl
  | cons c t ih =>
    obtain ⟨hc, ht⟩ := List.forall_mem_cons.1 ht
    simp only [isPlain, Bool.and_eq_true, Bool.not_eq_true', bne_iff_ne] at hc
    simp only [List.cons_append, readInside, hc, Bool.false_eq_true, if_false, ih ht]

end Plain

theorem isPlain_of_isBlank {c : Char} (h : Text.isBlank c = true) : isPlain c = true := isPlain_of (by decide) h

section Mentions

variable {q : String} (hq : (q ++ ".").toList.head?.any Text.isBlank = false)

include hq

/-- Blanks before a text mention nothing, and a name may start behind them. -/
theorem references_behind_blanks {lead : List Char} (hlead : ∀ c ∈ lead, Text.isBlank c = true) (s : List Char) :
    references q (lead ++ s) = references q s := by
  suffices hall : (reference q).findAll atWord (lead ++ s) = (reference q).findAll atWord s by
    simp only [references, hall]
  induction lead with
  | nil => rfl
  | cons c lead ih =>
    obtain ⟨hc, hlead⟩ := List.forall_mem_cons.1 hlead
    have hnone : (reference q).match? (c :: (lead ++ s)) = none := by
      refine match?_bind_none (match?_text_none fun hprefix => ?_)
      cases hchars : (q ++ ".").toList with
      | nil => simp at hchars
      | cons d chars =>
        rw [hchars] at hprefix hq
        rw [(List.cons_prefix_cons.1 hprefix).1, List.head?_cons, Option.any_some, hc] at hq
        cases hq
    have hstart : atWord (some c) = atWord none := by
      simp [atWord, Text.isWord_of_isBlank hc]
    rw [findAll, List.cons_append, findAll.go, hnone, ite_self]
    exact (go_congr _ hstart _).trans (ih hlead)

theorem references_of_blanks {line : Line} (h : ∀ c ∈ line, Text.isBlank c = true) : references q line = [] := by
  have hrefs := references_behind_blanks hq h []
  rwa [List.append_nil] at hrefs

end Mentions

section Groups

def kept (pieces : List (List Char)) : List (List Char) := (pieces.map Text.trim).filter (!·.isEmpty)

theorem joinPieces_eq (pieces : List (List Char)) : joinPieces pieces = [' '].intercalate (kept pieces) := rfl

theorem parameters_eq (s : List Char) : parameters s = kept (commaPieces 0 none s) := rfl

@[simp] theorem kept_nil : kept [] = [] := rfl

theorem kept_append (pieces more : List (List Char)) : kept (pieces ++ more) = kept pieces ++ kept more := by
  rw [kept, List.map_append, List.filter_append]
  rfl

theorem kept_blank {piece : List Char} (h : Text.trim piece = []) (pieces : List (List Char)) :
    kept (piece :: pieces) = kept pieces := by
  rw [kept, List.map_cons, h, List.filter_cons_of_neg (by simp)]
  rfl

theorem kept_cons {piece : List Char} (h : Text.trim piece ≠ []) (pieces : List (List Char)) :
    kept (piece :: pieces) = Text.trim piece :: kept pieces := by
  rw [kept, List.map_cons, List.filter_cons_of_pos (by simpa using h)]
  rfl

theorem kept_cons_congr {piece piece' : List Char} {pieces pieces' : List (List Char)}
    (hpiece : Text.trim piece' = Text.trim piece) (h : kept pieces' = kept pieces) :
    kept (piece' :: pieces') = kept (piece :: pieces) := by
  by_cases hblank : Text.trim piece = []
  · rw [kept_blank (hpiece.trans hblank), kept_blank hblank, h]
  · rw [kept_cons (by rwa [hpiece]), kept_cons hblank, hpiece, h]

/-- The piece of a row, and then the pieces of the rows behind it if the group goes on. -/
theorem groupPieces_cons (depth : Nat) (row : Line) (rows : List Line) :
    (groupPieces depth (row :: rows)).1 = (readInside depth none false row).1 ::
      ((readInside depth none false row).2.elim [] fun d => (groupPieces d rows).1) := by
  rw [groupPieces]
  cases readInside depth none false row with
  | mk piece d =>
    cases d with
    | none => rfl
    | some d => rfl

/-- The rows of a group may differ in what is trimmed away, as long as they leave it at the same depth. -/
theorem kept_row_congr {depth : Nat} {row row' : Line} {rows rows' : List Line}
    (hpiece : Text.trim (readInside depth none false row').1 = Text.trim (readInside depth none false row).1)
    (hdepth : (readInside depth none false row').2 = (readInside depth none false row).2)
    (hrows : ∀ d, kept (groupPieces d rows').1 = kept (groupPieces d rows).1) :
    kept (groupPieces depth (row' :: rows')).1 = kept (groupPieces depth (row :: rows)).1 := by
  rw [groupPieces_cons, groupPieces_cons, hdepth]
  refine kept_cons_congr hpiece ?_
  cases (readInside depth none false row).2 with
  | none => rfl
  | some d => exact hrows d

/-- A group is told by what stands behind its parenthesis and by the rows that follow. -/
theorem Group.text_read (row : List Char) (rows : List Line) : (Group.read row rows).text =
    match row.dropWhile (· != '(') with
    | [] => []
    | _ :: s => [' '].intercalate (kept (groupPieces 1 (s :: rows)).1) := by
  rw [Group.read]
  cases row.dropWhile (· != '(') with
  | nil => rfl
  | cons c s =>
    dsimp only
    cases hpieces : groupPieces 1 (s :: rows) with
    | mk pieces k =>
      cases k with
      | none => rfl
      | some k => rfl

theorem Group.text_read_congr {row row' : List Char} {rows rows' : List Line}
    (hrow : row'.dropWhile (· != '(') = row.dropWhile (· != '('))
    (hrows : ∀ d, kept (groupPieces d rows').1 = kept (groupPieces d rows).1) :
    (Group.read row' rows').text = (Group.read row rows).text := by
  rw [Group.text_read, Group.text_read, hrow]
  cases row.dropWhile (· != '(') with
  | nil => rfl
  | cons c s => exact congrArg [' '].intercalate (kept_row_congr rfl rfl hrows)

variable {lead : List Char} (hlead : ∀ c ∈ lead, Text.isBlank c = true)

include hlead

theorem readInside_behind_blanks (depth : Nat) (s : List Char) : readInside depth none false (lead ++ s) =
    (lead ++ (readInside depth none false s).1, (readInside depth none false s).2) :=
  readInside_behind_plain (fun c hc => isPlain_of_isBlank (hlead c hc)) s depth

/-- A blank row adds nothing to a group. -/
theorem kept_blank_row (depth : Nat) (rows : List Line) :
    kept (groupPieces depth (lead :: rows)).1 = kept (groupPieces depth rows).1 := by
  have hread := readInside_behind_blanks hlead depth []
  rw [List.append_nil] at hread
  rw [groupPieces_cons, hread, kept_blank (by simpa [readInside] using Text.trim_of_blanks hlead)]
  rfl

theorem kept_insert_blank (depth : Nat) (above below : List Line) :
    kept (groupPieces depth (above ++ lead :: below)).1 = kept (groupPieces depth (above ++ below)).1 := by
  induction above generalizing depth with
  | nil => exact kept_blank_row hlead depth below
  | cons row above ih => exact kept_row_congr rfl rfl ih

/-- The parenthesis that is found behind a name is the same behind other blanks. -/
theorem dropWhile_behind_blanks {c : Char} (hc : Text.isBlank c = false) (part s : List Char) :
    ((lead ++ s).drop ((Text.find? (c :: part) (lead ++ s)).getD 0)).dropWhile (· != '(') =
      (s.drop ((Text.find? (c :: part) s).getD 0)).dropWhile (· != '(') := by
  rw [Text.find?_behind_blanks hlead hc]
  cases Text.find? (c :: part) s with
  | none =>
    refine List.dropWhile_append_of_pos fun d hd => ?_
    rw [bne_iff_ne]
    rintro rfl
    cases hlead _ hd
  | some p =>
    rw [Option.map_some, Option.getD_some, Option.getD_some, Nat.add_comm, ← List.drop_drop, List.drop_left]

end Groups

end Source

namespace Indented

theorem references_behind_blanks {lead : List Char} (hlead : ∀ c ∈ lead, Text.isBlank c = true) (s : List Char) :
    references (lead ++ s) = references s := by
  rw [references, Source.references_behind_blanks (by decide) hlead]
  rfl

end Indented

end DesignLint
