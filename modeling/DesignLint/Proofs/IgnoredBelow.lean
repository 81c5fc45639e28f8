import DesignLint.File.Discovery
import DesignLint.Proofs.GlobTexts
import DesignLint.Proofs.PathNames
import DesignLint.Proofs.Results

/-! Whatever lies below a path that is left out is left out too. A pattern matches a path by one of its names,
or by its text up to some slash or to the end, and further names take away neither. -/

namespace DesignLint

namespace Ignore

/-- The pattern admits the text, or the part of it before some slash. -/
def Covers (pattern text : List Char) : Prop :=
  Glob.admits pattern text = true ∨ ∃ a b, text = a ++ '/' :: b ∧ Glob.admits pattern a = true

def Form.isWhole (f : Form) : Bool :=
  f.anchored || f.body.contains '/'

theorem Covers.append {pattern text : List Char} (h : Covers pattern text) (more : List Char) :
    Covers pattern (text ++ '/' :: more) := by
  rcases h with h | ⟨a, b, rfl, h⟩
  · exact .inr ⟨text, more, rfl, h⟩
  · exact .inr ⟨a, b ++ '/' :: more, by simp, h⟩

namespace Form

variable {f : Form} {path : List Char}

theorem holds_whole (hf : f.isWhole = true) : f.holds path = true ↔ f.body ≠ [] ∧ Covers f.body path := by
  unfold isWhole at hf
  unfold holds Covers
  rw [hf, if_pos rfl, ← Glob.admits_append]
  cases f.body with
  | nil => simp
  | cons c body => simp

theorem holds_named (hf : f.isWhole = false) :
    f.holds path = true ↔ f.body ≠ [] ∧ ∃ name ∈ path.splitOn '/', Glob.admits f.body name = true := by
  unfold isWhole at hf
  unfold holds
  rw [hf, if_neg Bool.false_ne_true]
  cases f.body with
  | nil => simp
  | cons c body => simp

/-- A pattern that matches a path matches what lies below it. -/
theorem holds_append (h : f.holds path = true) (more : List Char) : f.holds (path ++ '/' :: more) = true := by
  cases hf : f.isWhole with
  | true =>
    obtain ⟨hbody, hcovers⟩ := (holds_whole hf).1 h
    exact (holds_whole hf).2 ⟨hbody, hcovers.append more⟩
  | false =>
    obtain ⟨hbody, name, hname, hadmits⟩ := (holds_named hf).1 h
    refine (holds_named hf).2 ⟨hbody, name, ?_, hadmits⟩
    rw [List.splitOn_append_cons_self]
    exact List.mem_append_left _ hname

end Form

theorem matchesPattern_below (base : Path) {names : List String} (h : names ≠ []) (pattern : String) :
    matchesPattern (base.below names) pattern base = (form pattern).holds (Path.text names) := by
  simp only [matchesPattern, Path.relativeTo?_below, Path.toString_relative h]

/-- A pattern that matches a path below its directory matches everything below that path. -/
theorem matchesPattern_of_liesBelow {p q base : Path} {pattern : String} (hp : p.LiesBelow base) (hq : q.LiesBelow p)
    (h : matchesPattern p pattern base = true) : matchesPattern q pattern base = true := by
  obtain ⟨names, hnames, rfl⟩ := hp
  obtain ⟨more, hmore, rfl⟩ := hq
  rw [matchesPattern_below base hnames] at h
  rw [Path.below_below, matchesPattern_below base (List.append_ne_nil_of_left_ne_nil hnames more),
    Path.text_append hnames hmore]
  exact Form.holds_append h _

theorem isIgnored_iff {p root : Path} {patterns : List String} {rules : List IgnoreRule} :
    isIgnored p root patterns rules = true ↔
      (∃ pattern ∈ patterns, matchesPattern p pattern root = true) ∨
        ∃ r ∈ rules, matchesPattern p r.pattern r.base = true := by
  simp [isIgnored]

/-- A path that is left out by patterns from above leaves out what lies below. -/
theorem isIgnored_of_liesBelow {p q root : Path} {patterns : List String} {rules : List IgnoreRule}
    (hroot : p.LiesBelow root) (hrules : ∀ r ∈ rules, p.LiesBelow r.base) (hq : q.LiesBelow p)
    (h : isIgnored p root patterns rules = true) : isIgnored q root patterns rules = true := by
  rw [isIgnored_iff] at h ⊢
  rcases h with ⟨pattern, hpattern, h⟩ | ⟨r, hr, h⟩
  · exact .inl ⟨pattern, hpattern, matchesPattern_of_liesBelow hroot hq h⟩
  · exact .inr ⟨r, hr, matchesPattern_of_liesBelow (hrules r hr) hq h⟩

end Ignore

namespace Discovery

open Ignore

variable {t : FileTree} {directory root : Path} {suffixes ignored : List String} {rules : List IgnoreRule}

theorem exists_below_of_mem_upwards {d directory : Path} (h : d ∈ upwards directory) :
    ∃ names, directory = d.below names := by
  obtain ⟨k, -, rfl⟩ := List.mem_map.1 h
  exact ⟨directory.parts.drop (directory.parts.length - k), by simp [Path.below]⟩

theorem base_of_mem_rulesOf {rules : List IgnoreRule} (h : rulesOf t directory = .ok rules) {r : IgnoreRule}
    (hr : r ∈ rules) : r.base = directory := by
  simp only [rulesOf, Result.bind_eq_ok] at h
  obtain ⟨isFile, -, h⟩ := h
  cases isFile with
  | false =>
    obtain rfl : [] = rules := Result.pure_eq_ok.1 h
    cases hr
  | true =>
    simp only [if_true, Result.bind_eq_ok, Result.pure_eq_ok] at h
    obtain ⟨text, -, rfl⟩ := h
    obtain ⟨pattern, -, rfl⟩ := List.mem_map.1 hr
    rfl

/-- The rules that count in a directory belong to it or to a directory above it. -/
theorem exists_below_of_mem_rules (h : Discovery.rules t root = .ok rules) {r : IgnoreRule} (hr : r ∈ rules) :
    ∃ names, root = r.base.below names := by
  simp only [Discovery.rules, Result.bind_eq_ok, Result.pure_eq_ok] at h
  obtain ⟨found, hfound, rfl⟩ := h
  obtain ⟨some, hsome, hr⟩ := List.mem_flatten.1 hr
  obtain ⟨d, hd, hrules⟩ := Result.exists_of_mem_mapM hfound hsome
  rw [base_of_mem_rulesOf hrules hr]
  exact exists_below_of_mem_upwards hd

theorem liesBelow_of_mem_rules (h : Discovery.rules t root = .ok rules) {r : IgnoreRule} (hr : r ∈ rules) {d : Path}
    (hd : d.LiesBelow root) : d.LiesBelow r.base := by
  obtain ⟨names, rfl⟩ := exists_below_of_mem_rules h hr
  obtain ⟨more, hmore, rfl⟩ := hd
  exact ⟨names ++ more, List.append_ne_nil_of_right_ne_nil names hmore, Path.below_below ..⟩

theorem sourceFiles_eq (hroot : t.resolve directory = .ok root) (hrules : Discovery.rules t root = .ok rules) :
    sourceFiles t directory suffixes ignored = .ok ((t.filesBelow root).filter fun p =>
      (suffixes.map Text.lower).contains (Text.lower p.suffix) && !isIgnored p root ignored rules) := by
  simp only [sourceFiles, Result.bind_eq_ok, Result.pure_eq_ok]
  exact ⟨root, hroot, rules, hrules, rfl⟩

/-- A source file that is found is left out by no rule. -/
theorem not_isIgnored_of_mem_sourceFiles {files : List Path} (hroot : t.resolve directory = .ok root)
    (hrules : Discovery.rules t root = .ok rules) (h : sourceFiles t directory suffixes ignored = .ok files)
    {file : Path} (hfile : file ∈ files) : isIgnored file root ignored rules = false := by
  rw [sourceFiles_eq hroot hrules] at h
  obtain rfl := Except.ok.inj h
  have hkept := (List.mem_filter.1 hfile).2
  rw [Bool.and_eq_true] at hkept
  simpa using hkept.2

end Discovery

namespace Ignore

/-- What a pattern matches below its directory, it matches with everything below. So what is left out by patterns
from above is left out with everything below, and no source file is found below a directory that is left out. -/
theorem left_out_with_all_below :
    (∀ (pattern : String) (base p q : Path), p.LiesBelow base → q.LiesBelow p →
      matchesPattern p pattern base = true → matchesPattern q pattern base = true) ∧
    (∀ (patterns : List String) (rules : List IgnoreRule) (root p q : Path), p.LiesBelow root →
      (∀ r ∈ rules, p.LiesBelow r.base) → q.LiesBelow p →
      isIgnored p root patterns rules = true → isIgnored q root patterns rules = true) ∧
    ∀ (t : FileTree) (directory root : Path) (suffixes ignored : List String) (rules : List IgnoreRule)
      (files : List Path), t.resolve directory = .ok root → Discovery.rules t root = .ok rules →
      Discovery.sourceFiles t directory suffixes ignored = .ok files → ∀ d : Path,
      (d.LiesBelow root ∧ isIgnored d root ignored rules = true ∨
        ∃ r ∈ rules, d.LiesBelow r.base ∧ matchesPattern d r.pattern r.base = true) →
      ∀ file ∈ files, ¬ file.LiesBelow d := by
  refine ⟨fun _ _ _ _ => matchesPattern_of_liesBelow, fun _ _ _ _ _ => isIgnored_of_liesBelow, ?_⟩
  intro t directory root suffixes ignored rules files hroot hrules hfiles d hd file hfile hbelow
  have hkept := Discovery.not_isIgnored_of_mem_sourceFiles hroot hrules hfiles hfile
  have hignored : isIgnored file root ignored rules = true := by
    rcases hd with ⟨hd, hignored⟩ | ⟨r, hr, hd, hmatches⟩
    · exact isIgnored_of_liesBelow hd (fun r hr => Discovery.liesBelow_of_mem_rules hrules hr hd) hbelow hignored
    · exact isIgnored_iff.2 (.inr ⟨r, hr, matchesPattern_of_liesBelow hd hbelow hmatches⟩)
  rw [hkept] at hignored
  exact Bool.false_ne_true hignored

/-- A pattern with an open bracket, and a directory that the ignore file of the root names. -/
theorem left_out_with_all_below_build :
    let w : Path := .ofString "/w"
    let t : FileTree :=
      { cwd := w
        files := [(["w", ".gitignore"], "build\n".toUTF8), (["w", "build", "a.py"], "".toUTF8),
          (["w", "src", "b.py"], "".toUTF8)] }
    let p : Path := w.below ["src", "[b", "c"]
    let d : Path := w.below ["build"]
    let rules : List IgnoreRule := [⟨"build", w⟩]
    (matchesPattern p "src/[b/*" w = true ∧ matchesPattern (p.below ["d.py"]) "src/[b/*" w = true) ∧
    (isIgnored d w ["venv"] rules = true ∧ isIgnored (d.below ["lib", "a.py"]) w ["venv"] rules = true) ∧
    t.resolve (.ofString ".") = .ok w ∧ Discovery.rules t w = .ok rules ∧
    ∃ files, Discovery.sourceFiles t (.ofString ".") [".py"] ["venv"] = .ok files ∧
      w.below ["src", "b.py"] ∈ files ∧ ∀ file ∈ files, ¬ file.LiesBelow d := by
  intro w t p d rules
  have hp : p.LiesBelow w := ⟨_, List.cons_ne_nil _ _, rfl⟩
  have hd : d.LiesBelow w := ⟨_, List.cons_ne_nil _ _, rfl⟩
  have hmatches : matchesPattern p "src/[b/*" w = true := by decide +kernel
  have hignored : isIgnored d w ["venv"] rules = true := by decide +kernel
  have hroot : t.resolve (.ofString ".") = .ok w := by decide +kernel
  have hrules : Discovery.rules t w = .ok rules := by decide +kernel
  have hfiles := @Discovery.sourceFiles_eq t (.ofString ".") w [".py"] ["venv"] rules hroot hrules
  have hfile : w.below ["src", "b.py"] ∈ t.filesBelow w :=
    List.mem_mergeSort.2 (by decide +kernel)
  obtain ⟨hpattern, hpath, hsources⟩ := left_out_with_all_below
  refine ⟨⟨hmatches, ?_⟩, ⟨hignored, ?_⟩, hroot, hrules, _, hfiles, ?_, ?_⟩
  · exact hpattern _ w p _ hp ⟨_, List.cons_ne_nil _ _, rfl⟩ hmatches
  · exact hpath _ rules w d _ hd (List.forall_mem_singleton.2 hd) ⟨_, List.cons_ne_nil _ _, rfl⟩ hignored
  · exact List.mem_filter.2 ⟨hfile, by decide +kernel⟩
  · exact hsources t _ w _ _ rules _ hroot hrules hfiles d (.inl ⟨hd, hignored⟩)

end Ignore

end DesignLint
