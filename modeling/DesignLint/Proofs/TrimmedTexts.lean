import DesignLint.Text.Blank
import DesignLint.Text.Word
import Mathlib.Data.List.TakeWhile
import Mathlib.Tactic

/-! Texts without the blanks at their ends. No character of a word is blank, so a text that starts and ends with
words is kept as it is; and only blanks are lost. -/

namespace DesignLint

namespace Text

section Blank

def blankCodes : List Nat := [
  0x9, 0xA, 0xB, 0xC, 0xD, 0x1C, 0x1D, 0x1E, 0x1F, 0x20, 0x85, 0xA0, 0x1680, 0x2000, 0x2001, 0x2002,
  0x2003, 0x2004, 0x2005, 0x2006, 0x2007, 0x2008, 0x2009, 0x200A, 0x2028, 0x2029, 0x202F, 0x205F, 0x3000]

theorem toNat_mem_blankCodes {c : Char} (h : isBlank c = true) : c.toNat ∈ blankCodes := by
  simp only [isBlank, Bool.or_eq_true, Bool.and_eq_true, decide_eq_true_eq, beq_iff_eq] at h
  simp only [blankCodes, List.mem_cons, List.not_mem_nil, or_false]
  omega

theorem isWord_of_isBlank {c : Char} (h : isBlank c = true) : isWord c = false := by
  have hall : blankCodes.all (fun n => !isWord (Char.ofNat n)) = true := by decide +kernel
  have hmem := List.all_eq_true.1 hall _ (toNat_mem_blankCodes h)
  rw [Char.ofNat_toNat] at hmem
  simpa using hmem

theorem isBlank_of_isWord {c : Char} (h : isWord c = true) : isBlank c = false := by
  by_contra hc
  rw [isWord_of_isBlank (by simpa using hc)] at h
  cases h

end Blank

section End

theorem trimEnd_of_blanks {s : List Char} (h : ∀ c ∈ s, isBlank c = true) : trimEnd s = [] := by
  rw [trimEnd, List.reverse_eq_nil_iff, List.dropWhile_eq_nil_iff]
  intro c hc
  exact h c (List.mem_reverse.1 hc)

theorem trimEnd_append_cons {c : Char} (hc : isBlank c = false) (u w : List Char) :
    trimEnd (u ++ c :: w) = u ++ c :: trimEnd w := by
  have hstop : ∀ l : List Char, List.dropWhile isBlank (l ++ c :: u.reverse) =
      List.dropWhile isBlank l ++ c :: u.reverse := by
    intro l
    induction l with
    | nil => simp [hc]
    | cons d l ih => by_cases hd : isBlank d <;> simp [hd, ih]
  simp [trimEnd, hstop]

end End

section Lead

variable {lead s : List Char} (hlead : ∀ c ∈ lead, isBlank c = true)

include hlead

theorem trim_append_blanks (s : List Char) : trim (lead ++ s) = trim s := by
  rw [trim, trimStart, List.dropWhile_append_of_pos hlead]
  rfl

theorem trim_of_blanks : trim lead = [] := by
  have htrim := trim_append_blanks hlead []
  rwa [List.append_nil] at htrim

section Start

variable (hs : ∀ c ∈ s.head?, isBlank c = false)

include hs

theorem indent_eq : indent (lead ++ s) = lead.length := by
  rw [indent, List.takeWhile_append_of_pos hlead]
  cases s with
  | nil => simp
  | cons c s => simp [hs c rfl]

theorem trim_eq : trim (lead ++ s) = trimEnd s := by
  rw [trim_append_blanks hlead, trim, trimStart]
  cases s with
  | nil => rfl
  | cons c s => simp [hs c rfl]

end Start

theorem trim_behind_blanks {c : Char} (hc : isBlank c = false) (rest : List Char) :
    trim (lead ++ c :: rest) = c :: trimEnd rest := by
  have hfirst : ∀ d ∈ (c :: rest).head?, isBlank d = false := by
    rintro d ⟨⟩
    exact hc
  rw [trim_eq hlead hfirst]
  exact trimEnd_append_cons hc [] rest

end Lead

variable {s : List Char}

theorem trim_of_ends {c : Char} (hs : ∀ d ∈ (s ++ [c]).head?, isBlank d = false) (hc : isBlank c = false) :
    trim (s ++ [c]) = s ++ [c] := by
  have htrim : trim ([] ++ (s ++ [c])) = trimEnd (s ++ [c]) := trim_eq (by simp) hs
  exact htrim.trans (trimEnd_append_cons hc s [])

theorem exists_trim (s : List Char) :
    ∃ lead trail, s = lead ++ (trim s ++ trail) ∧ ∀ c ∈ lead, isBlank c = true := by
  refine ⟨s.takeWhile isBlank, ((trimStart s).reverse.takeWhile isBlank).reverse, ?_, ?_⟩
  · rw [trim, trimEnd, ← List.reverse_append, List.takeWhile_append_dropWhile, List.reverse_reverse,
      trimStart, List.takeWhile_append_dropWhile]
  · exact fun c hc => List.mem_takeWhile_imp hc

theorem trim_infix (s : List Char) : trim s <:+: s := by
  obtain ⟨lead, trail, hs, -⟩ := exists_trim s
  exact ⟨lead, trail, by rw [List.append_assoc, ← hs]⟩

/-- A text that is not blank, from its first character that is not blank on. -/
theorem exists_first (h : trim s ≠ []) :
    ∃ lead c rest, s = lead ++ c :: rest ∧ (∀ d ∈ lead, isBlank d = true) ∧ isBlank c = false := by
  have hne : s.dropWhile isBlank ≠ [] := by
    intro hnil
    rw [trim, trimStart, hnil] at h
    exact h rfl
  obtain ⟨c, rest, hrest⟩ := List.exists_cons_of_ne_nil hne
  have hc : isBlank c = false := by
    have hhead := List.head?_dropWhile_not isBlank s
    rw [hrest] at hhead
    simpa using hhead
  refine ⟨s.takeWhile isBlank, c, rest, ?_, fun d hd => List.mem_takeWhile_imp hd, hc⟩
  rw [← hrest, List.takeWhile_append_dropWhile]

/-- Only blanks are trimmed. -/
theorem mem_trim {c : Char} (hc : c ∈ s) (hblank : isBlank c = false) : c ∈ trim s := by
  have hdrop : ∀ s : List Char, c ∈ s → c ∈ s.dropWhile isBlank := by
    intro s hc
    rw [← List.takeWhile_append_dropWhile (p := isBlank) (l := s)] at hc
    rcases List.mem_append.1 hc with hc | hc
    · rw [List.mem_takeWhile_imp hc] at hblank
      cases hblank
    · exact hc
  rw [trim, trimEnd, List.mem_reverse]
  exact hdrop _ (List.mem_reverse.2 (hdrop s hc))

end Text

end DesignLint
