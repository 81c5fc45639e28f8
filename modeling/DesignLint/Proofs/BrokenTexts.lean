import DesignLint.Proofs.PathNames
import DesignLint.Scan.Scanner

/-! Texts in which a surrogate stands alone. Nothing of a text is lost when it is taken apart and put
together again, so such a text is never taken for one with another character in its place. It is the name
of a file if every surrogate in it stands for a byte, and two such names are told apart by their paths. -/

namespace DesignLint

namespace RawText

theorem glyphs_eq_nil_iff {t : RawText} : t.glyphs = [] ↔ t = "" := by
  cases t with
  | proper s => simp [glyphs]
  | broken t =>
    refine ⟨fun hnil => ?_, nofun⟩
    have hbroken := t.isBroken
    rw [show t.glyphs = [] from hnil] at hbroken
    cases hbroken

theorem map_char_filterMap {glyphs : List Glyph} (h : glyphs.any Glyph.isLone = false) :
    (glyphs.filterMap Glyph.char?).map Glyph.char = glyphs := by
  induction glyphs with
  | nil => rfl
  | cons g glyphs ih =>
    rw [List.any_cons, Bool.or_eq_false_iff] at h
    cases g with
    | char c =>
      have hkept : (Glyph.char c :: glyphs).filterMap Glyph.char? = c :: glyphs.filterMap Glyph.char? := rfl
      rw [hkept, List.map_cons, ih h.2]
    | lone s => cases h.1

theorem glyphs_ofGlyphs (glyphs : List Glyph) : (ofGlyphs glyphs).glyphs = glyphs := by
  unfold ofGlyphs
  split_ifs with hbroken
  · rfl
  · rw [RawText.glyphs, String.toList_ofList, map_char_filterMap (Bool.not_eq_true _ ▸ hbroken)]

theorem ofGlyphs_glyphs (t : RawText) : ofGlyphs t.glyphs = t := by
  cases t with
  | broken t => exact dif_pos t.isBroken
  | proper s =>
    have hproper : ¬ (s.toList.map Glyph.char).any Glyph.isLone = true := by
      simp [Glyph.isLone]
    have hchars : (s.toList.map Glyph.char).filterMap Glyph.char? = s.toList := by
      rw [List.filterMap_map]
      exact List.filterMap_some
    rw [glyphs, ofGlyphs, dif_neg hproper, hchars, String.ofList_toList]

end RawText

namespace Scanner

def IsNamable (g : Glyph) : Prop := g.isEncodable = true ∧ g ≠ .char '\x00'

theorem forall_isNamable_proper (s : String) :
    (∀ g ∈ (RawText.proper s).glyphs, IsNamable g) ↔ '\x00' ∉ s.toList := by
  simp only [RawText.glyphs, List.forall_mem_map, IsNamable, Glyph.isEncodable, true_and, ne_eq,
    Glyph.char.injEq]
  exact ⟨fun h hzero => h _ hzero rfl, fun h c hc hzero => h (hzero ▸ hc)⟩

theorem nameFault?_eq_none {name : List Glyph} : nameFault? name = none ↔ ∀ g ∈ name, IsNamable g := by
  unfold nameFault? IsNamable
  split_ifs with hlost hzero
  · refine iff_of_false nofun fun h => ?_
    obtain ⟨g, hg, hnot⟩ := List.all_eq_false.1 (Bool.eq_false_of_not_eq_true' hlost)
    exact hnot (h g hg).1
  · exact iff_of_false nofun fun h => (h _ (List.contains_iff_mem.1 hzero)).2 rfl
  · have hencodable : ∀ g ∈ name, g.isEncodable = true := by simpa using hlost
    refine iff_of_true rfl fun g hg => ⟨hencodable g hg, ?_⟩
    rintro rfl
    exact hzero (List.contains_iff_mem.2 hg)

/-- The names of a path have no fault if its text has none: a slash is no fault. -/
theorem findSome?_nameFault? (glyphs : List Glyph) :
    (glyphs.splitOn (.char '/')).findSome? nameFault? = none ↔ ∀ g ∈ glyphs, IsNamable g := by
  have hslash : IsNamable (.char '/') := ⟨rfl, by decide⟩
  have hmem : ∀ g ≠ .char '/', (g ∈ glyphs ↔ ∃ name ∈ glyphs.splitOn (.char '/'), g ∈ name) := by
    intro g hg
    rw [← Path.mem_intercalate hg, List.intercalate_splitOn]
  simp only [List.findSome?_eq_none_iff, nameFault?_eq_none]
  constructor
  · intro h g hg
    by_cases hsep : g = .char '/'
    · exact hsep ▸ hslash
    · obtain ⟨name, hname, hg⟩ := (hmem g hsep).1 hg
      exact h name hname g hg
  · intro h name hname g hg
    by_cases hsep : g = .char '/'
    · exact hsep ▸ hslash
    · exact h g ((hmem g hsep).2 ⟨name, hname, hg⟩)

theorem exists_brokenFile_iff {s : Scanner} (hcwd : s.cwd.isUsable = true) (t : BrokenText) :
    (∃ file, s.brokenFile t = .ok file) ↔ ∀ g ∈ t.glyphs, IsNamable g := by
  unfold brokenFile
  simp only [hcwd, Bool.not_true, Bool.and_false, Bool.false_eq_true, if_false]
  rw [← findSome?_nameFault?]
  cases (t.glyphs.splitOn (.char '/')).findSome? nameFault? with
  | none => exact iff_of_true ⟨_, rfl⟩ rfl
  | some m => exact iff_of_false nofun nofun

/-- A byte is told by the character that stands for it. -/
theorem byteChar_inj {s s' : Surrogate} (h : s.isByte = true) (h' : s'.isByte = true)
    (heq : Char.ofNat (s.code - 0xDC00) = Char.ofNat (s'.code - 0xDC00)) : s = s' := by
  simp only [Surrogate.isByte, Bool.and_eq_true, decide_eq_true_eq] at h h'
  have hvalid : ∀ n, n ≤ 0xFF → (Char.ofNat n).toNat = n := by
    intro n hn
    have hchar : n.isValidChar := Or.inl (by omega)
    rw [Char.ofNat, dif_pos hchar]
    rfl
  have hnat := congrArg Char.toNat heq
  rw [hvalid _ (by omega), hvalid _ (by omega)] at hnat
  have hcode : s.code = s'.code := by omega
  cases s
  cases s'
  cases hcode
  rfl

/-- Names are told apart by their characters: only a byte has the character of code zero. -/
theorem flatMap_nameChars_inj {xs ys : List Glyph} (hx : ∀ g ∈ xs, IsNamable g) (hy : ∀ g ∈ ys, IsNamable g)
    (h : xs.flatMap nameChars = ys.flatMap nameChars) : xs = ys := by
  induction xs generalizing ys with
  | nil =>
    cases ys with
    | nil => rfl
    | cons y ys => cases y <;> cases h
  | cons x xs ih =>
    obtain ⟨hfirst, hxs⟩ := List.forall_mem_cons.1 hx
    cases ys with
    | nil => cases x <;> cases h
    | cons y ys =>
      obtain ⟨hfirst', hys⟩ := List.forall_mem_cons.1 hy
      rw [List.flatMap_cons, List.flatMap_cons] at h
      cases x with
      | char c =>
        cases y with
        | char c' =>
          obtain ⟨rfl, hrest⟩ := List.cons.inj h
          rw [ih hxs hys hrest]
        | lone s => exact absurd (congrArg Glyph.char (List.cons.inj h).1) hfirst.2
      | lone s =>
        cases y with
        | char c => exact absurd (congrArg Glyph.char (List.cons.inj h).1.symm) hfirst'.2
        | lone s' =>
          obtain ⟨hbyte, hrest⟩ := List.cons.inj (List.cons.inj h).2
          rw [byteChar_inj hfirst.1 hfirst'.1 hbyte, ih hxs hys hrest]

end Scanner

end DesignLint
