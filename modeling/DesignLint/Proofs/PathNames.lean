import DesignLint.File.Path
import Mathlib.Tactic

/-! Paths by their names. Reading a path loses no character but slashes and dots, and what lies below a
path is written as the names behind it, with slashes between them. -/

namespace DesignLint.Path

section Reading

theorem mem_intercalate {α : Type} {a sep : α} (ha : a ≠ sep) (pieces : List (List α)) :
    a ∈ [sep].intercalate pieces ↔ ∃ piece ∈ pieces, a ∈ piece := by
  induction pieces with
  | nil => simp
  | cons piece pieces ih =>
    cases pieces with
    | nil => simp
    | cons next pieces =>
      rw [List.intercalate_cons_cons, List.append_assoc, List.mem_append, List.mem_append, ih, List.mem_singleton]
      simp [ha]

/-- A path can be used if its text can. -/
theorem isUsable_ofString (s : String) : (ofString s).isUsable = true ↔ '\x00' ∉ s.toList := by
  have hpieces := mem_intercalate (show '\x00' ≠ '/' by decide) (s.toList.splitOn '/')
  rw [List.intercalate_splitOn] at hpieces
  simp only [hpieces, isUsable, ofString, List.all_filter, List.all_map, List.all_eq_true, Function.comp_apply,
    Bool.or_eq_true, Bool.not_eq_true', Bool.and_eq_false_iff, bne_eq_false_iff_eq, String.toList_ofList,
    not_exists, not_and]
  refine forall₂_congr fun piece _ => ⟨?_, fun h => .inr (by simpa using h)⟩
  -- the pieces that are left out hold no such character either
  rintro ((hempty | hdot) | hnot)
  · obtain rfl : piece = [] := by simpa using congrArg String.toList hempty
    exact List.not_mem_nil
  · obtain rfl : piece = ['.'] := by simpa using congrArg String.toList hdot
    decide
  · simpa using hnot

theorem isUsable_join {cwd p : Path} (h : cwd.isUsable = true) : (cwd.join p).isUsable = p.isUsable := by
  unfold join
  split_ifs with habs
  · rfl
  · unfold isUsable at h ⊢
    rw [List.all_append, h, Bool.true_and]

end Reading

section Below

structure IsName (name : String) : Prop where
  ne_empty : name ≠ ""
  ne_dot : name ≠ "."
  no_slash : '/' ∉ name.toList

def below (p : Path) (names : List String) : Path :=
  { p with parts := p.parts ++ names }

def LiesBelow (q p : Path) : Prop :=
  ∃ names, names ≠ [] ∧ q = p.below names

theorem below_below (p : Path) (names more : List String) : (p.below names).below more = p.below (names ++ more) := by
  simp [below]

theorem relativeTo?_below (p : Path) (names : List String) :
    (p.below names).relativeTo? p = some ⟨.relative, names⟩ := by
  simp [relativeTo?, below]

def text (names : List String) : List Char :=
  ("/".intercalate names).toList

theorem toString_relative {names : List String} (h : names ≠ []) :
    (⟨.relative, names⟩ : Path).toString.toList = text names := by
  simp [Path.toString, text, h]

theorem text_singleton (name : String) : text [name] = name.toList := by
  simp [text]

theorem text_append {names more : List String} (h : names ≠ []) (hmore : more ≠ []) :
    text (names ++ more) = text names ++ '/' :: text more := by
  simp [text, String.intercalate_append_of_ne_nil h hmore]

/-- The text of names starts with a character of the first. -/
theorem exists_text_eq_cons {names : List String} (h : names ≠ []) (hnames : ∀ name ∈ names, IsName name) :
    ∃ c s, text names = c :: s ∧ c ≠ '/' := by
  obtain ⟨name, more, rfl⟩ := List.exists_cons_of_ne_nil h
  have hname := hnames name List.mem_cons_self
  obtain ⟨c, s, hs⟩ : ∃ c s, name.toList = c :: s :=
    List.exists_cons_of_ne_nil fun hnil => hname.ne_empty (String.toList_eq_nil_iff.1 hnil)
  have hc : c ≠ '/' := fun hslash => hname.no_slash (by rw [hs, hslash]; exact List.mem_cons_self)
  cases more with
  | nil => exact ⟨c, s, by rw [text_singleton, hs], hc⟩
  | cons next more =>
    refine ⟨c, s ++ '/' :: text (next :: more), ?_, hc⟩
    rw [← List.singleton_append, text_append (List.cons_ne_nil _ _) (List.cons_ne_nil _ _), text_singleton, hs]
    rfl

end Below

end DesignLint.Path
