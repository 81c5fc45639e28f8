import DesignLint.Analysis.Inversion
import DesignLint.Analysis.Openness
import DesignLint.Proofs.SourceSpans
import DesignLint.Proofs.TrimmedTexts

/-! The evidence of the two analyses that look at single lines. Every type test and every instantiation
that a result shows stands on a line of the method or constructor it is charged to, and quotes that
line. Spans of declarations are disjoint, so that no line is charged twice: all that is found on it
goes into one result. -/

namespace DesignLint

namespace Pattern

variable {α : Type} {p : Pattern α} {starts : Option Char → Bool}

theorem code_infix_of_mem_go {s : List Char} {before : Option Char} {skip : Nat} {x : Found α}
    (hx : x ∈ findAll.go p starts before skip s) : x.code <:+: s := by
  induction s generalizing before skip with
  | nil => simp [findAll.go] at hx
  | cons c s ih =>
    have hlater : ∀ {before skip}, x ∈ findAll.go p starts before skip s → x.code <:+: c :: s :=
      fun h => (ih h).trans (List.suffix_cons c s).isInfix
    cases skip with
    | succ skip => exact hlater (by simpa [findAll.go] using hx)
    | zero =>
      rw [findAll.go] at hx
      split at hx
      · rcases List.mem_cons.1 hx with rfl | hx
        · exact (List.take_prefix _ _).isInfix
        · exact hlater hx
      · exact hlater hx

/-- What is found in a text is a part of it. -/
theorem code_infix_of_mem_findAll {s : List Char} {x : Found α} (hx : x ∈ p.findAll starts s) :
    x.code <:+: s :=
  code_infix_of_mem_go hx

end Pattern

namespace Source

theorem getElem?_between {α : Type} (xs : List α) (first last k : Nat) :
    (between xs first last)[k]? = if first + k ≤ last then xs[first + k]? else none := by
  rw [between, List.getElem?_drop, List.getElem?_take]
  simp only [Nat.lt_succ_iff]

theorem TypeTestForms.onLine_quotes {forms : TypeTestForms} {before : List Line} {line : Line}
    {number : Int} {t : TypeTest} (ht : t ∈ forms.onLine before line number) :
    t.line = number ∧ t.code.toList <:+: line := by
  rcases List.mem_append.1 ht with ht | ht
  · obtain ⟨form, -, ht⟩ := List.mem_flatMap.1 ht
    obtain ⟨found, hfound, ht⟩ := List.mem_filterMap.1 ht
    split_ifs at ht with htag
    obtain rfl := Option.some.inj ht
    exact ⟨rfl, by simpa using Pattern.code_infix_of_mem_findAll hfound⟩
  · split_ifs at ht with hcase
    · obtain rfl := List.mem_singleton.1 ht
      exact ⟨rfl, by simpa using Text.trim_infix line⟩
    · cases ht

theorem TypeTestForms.find_quotes {forms : TypeTestForms} {lines : List Line} {start : Int}
    {t : TypeTest} (ht : t ∈ forms.find lines start) : ∃ (k : Nat) (line : Line),
      lines[k]? = some line ∧ t.line = start + k ∧ t.code.toList <:+: line := by
  obtain ⟨⟨line, k⟩, hline, ht⟩ := List.mem_flatMap.1 ht
  obtain ⟨hnumber, hcode⟩ := onLine_quotes ht
  exact ⟨k, line, List.mk_mem_zipIdx_iff_getElem?.1 hline, hnumber, hcode⟩

end Source

theorem Family.typeTests_quotes {f : Family} {lines : List Line} {start : Int} {t : TypeTest}
    (ht : t ∈ f.typeTests lines start) : ∃ (k : Nat) (line : Line),
      lines[k]? = some line ∧ t.line = start + k ∧ t.code.toList <:+: line := by
  cases f with
  | indented => exact Source.TypeTestForms.find_quotes ht
  | braced => exact Source.TypeTestForms.find_quotes ht

/-- The type test stands on a line of the method, and its code is a part of that line. -/
def TypeTest.StandsIn (t : TypeTest) (lines : List Line) (m : MethodDecl) : Prop :=
  ∃ (n : Nat) (line : Line), t.line = n ∧ m.startLine ≤ n ∧ n ≤ m.endLine ∧
    lines[n]? = some line ∧ t.code.toList <:+: line

namespace Openness

variable {threshold : Float} {f : Family} {lines : List Line} {className : String} {m : MethodDecl}
  {r : OpennessResult}

theorem analyze?_spec (h : analyze? threshold f lines className m = some r) :
    r.className = className ∧ r.methodName = m.name ∧ r.startLine = m.startLine ∧
      ∀ t ∈ r.tests, t.StandsIn lines m := by
  simp only [analyze?] at h
  split_ifs at h with hnone
  obtain rfl := Option.some.inj h
  refine ⟨rfl, rfl, rfl, fun t ht => ?_⟩
  obtain ⟨k, line, hline, hnumber, hcode⟩ := Family.typeTests_quotes ht
  rw [Source.getElem?_between] at hline
  split_ifs at hline with hlast
  exact ⟨m.startLine + k, line, by rw [hnumber]; push_cast; rfl, by omega, hlast, hline, hcode⟩

/-- No result means no tests. -/
theorem tests_analyze? : (analyze? threshold f lines className m).toList.flatMap (·.tests) =
    f.typeTests (Source.between lines m.startLine m.endLine) m.startLine := by
  simp only [analyze?]
  split_ifs with hnone
  · simpa using (List.isEmpty_iff.1 hnone).symm
  · simp

/-- Tests in methods that follow one another stand on different lines. -/
theorem lines_ne {a b : OpennessResult} {m m' : MethodDecl} (ha : ∀ t ∈ a.tests, t.StandsIn lines m)
    (hb : ∀ t ∈ b.tests, t.StandsIn lines m') (hmm : m.endLine < m'.startLine) :
    ∀ s ∈ a.tests, ∀ t ∈ b.tests, s.line ≠ t.line := by
  intro s hs t ht
  obtain ⟨i, -, hi, -, hlast, -⟩ := ha s hs
  obtain ⟨j, -, hj, hfirst, -⟩ := hb t ht
  omega

theorem ofClasses_apart (threshold : Float) (f : Family) (lines : List Line) :
    ((f.classes lines).flatMap fun c => c.methods.filterMap (analyze? threshold f lines c.name)).Pairwise
      fun a b => ∀ s ∈ a.tests, ∀ t ∈ b.tests, s.line ≠ t.line := by
  refine List.pairwise_flatMap.2 ⟨fun c hc => ?_, ?_⟩
  · refine List.pairwise_filterMap.2 ((f.classes_wellFormed hc).ordered.imp ?_)
    intro m m' hmm a ha b hb
    exact lines_ne (analyze?_spec ha).2.2.2 (analyze?_spec hb).2.2.2 hmm
  · refine f.classes_ordered.imp_of_mem ?_
    intro c d hc hd hcd a ha b hb
    obtain ⟨m, hm, ha⟩ := List.mem_filterMap.1 ha
    obtain ⟨m', hm', hb⟩ := List.mem_filterMap.1 hb
    have hlast := ((f.classes_wellFormed hc).methods m hm).2.2.2
    have hfirst := ((f.classes_wellFormed hd).methods m' hm').1
    exact lines_ne (analyze?_spec ha).2.2.2 (analyze?_spec hb).2.2.2 (by omega)

end Openness

section Single

variable {α β : Type} {g : α → List β} {l : List α}

/-- If at most one element gives anything, then all together give what one of them gives. -/
theorem flatMap_eq_nil_or (h : l.Pairwise fun x y => g x = [] ∨ g y = []) :
    l.flatMap g = [] ∨ ∃ a ∈ l, l.flatMap g = g a := by
  induction l with
  | nil => exact .inl rfl
  | cons x l ih =>
    rw [List.pairwise_cons] at h
    rw [List.flatMap_cons]
    by_cases hx : g x = []
    · rw [hx, List.nil_append]
      rcases ih h.2 with hnil | ⟨a, ha, hsame⟩
      · exact .inl hnil
      · exact .inr ⟨a, List.mem_cons_of_mem x ha, hsame⟩
    · have hrest : l.flatMap g = [] :=
        List.flatMap_eq_nil_iff.2 fun y hy => (h.1 y hy).resolve_left hx
      rw [hrest, List.append_nil]
      exact .inr ⟨x, List.mem_cons_self, rfl⟩

/-- As soon as one element gives all that any of them may give, all together give this. -/
theorem flatMap_eq_of_mem (h : l.Pairwise fun x y => g x = [] ∨ g y = []) {a : α} (ha : a ∈ l)
    (hsame : ∀ b ∈ l, g b = [] ∨ g b = g a) : l.flatMap g = g a := by
  have hnil : l.flatMap g = [] → l.flatMap g = g a := by
    intro hnil
    rw [hnil, List.flatMap_eq_nil_iff.1 hnil a ha]
  rcases flatMap_eq_nil_or h with hflat | ⟨b, hb, hflat⟩
  · exact hnil hflat
  · rcases hsame b hb with hb | hb
    · exact hnil (hflat.trans hb)
    · exact hflat.trans hb

end Single

/-- The constructor and another method share no line. -/
theorem Family.constructor_apart (f : Family) {lines : List Line} {c : ClassDecl}
    (hc : c ∈ f.classes lines) {k : ConstructorDecl} (hk : k ∈ c.constructor?) {m : MethodDecl}
    (hm : m ∈ c.methods) (hname : m.name ≠ f.constructorName) :
    k.endLine < m.startLine ∨ m.endLine < k.startLine := by
  have hplaces := f.classes_places hc hk
  have hwell := f.classes_wellFormed hc
  cases f with
  | braced => exact hplaces m hm
  | indented =>
    -- the constructor is a method itself, and two methods that share a line are the same
    obtain ⟨before, own, after, hsplit, hown, -, hstart, hend⟩ := hplaces
    have hmem : own ∈ c.methods := by simp [hsplit]
    have hle : ∀ a ∈ c.methods, a.startLine ≤ a.endLine := fun a ha =>
      (hwell.methods a ha).2.1.trans (hwell.methods a ha).2.2.1
    have h1 := hle own hmem
    have h2 := hle m hm
    by_contra hshared
    have hsame : own = m := by
      refine eq_of_shared_line (j := max own.startLine m.startLine) hle hwell.ordered hmem hm ?_ ?_ ?_ ?_
      · omega
      · omega
      · omega
      · omega
    exact hname (hsame ▸ hown)

namespace Inversion

def Scans (f : Family) (c : ClassDecl) (n : Nat) : SiteKind → Prop
  | .inConstructor => ∃ k ∈ c.constructor?, k.startLine ≤ n ∧ n ≤ k.endLine
  | .inMethod => ∃ m ∈ c.methods, m.name ≠ f.constructorName ∧ m.startLine ≤ n ∧ n ≤ m.endLine
  | .other _ => False

end Inversion

/-- The site stands on a line of the class where its kind belongs, shows that line, and names one of the
types of which the line makes values. -/
def Site.StandsIn (s : Site) (f : Family) (lines : List Line) (c : ClassDecl) : Prop :=
  ∃ (n : Nat) (line : Line), s.line = n ∧ lines[n]? = some line ∧ Inversion.Scans f c n s.kind ∧
    s.code = String.ofList (Text.trim line) ∧ s.className ∈ f.instantiations line

namespace Inversion

def onLine (sites : List Site) (n : Nat) : List Site := sites.filter (·.line = n)

structure Grounded (f : Family) (lines : List Line) (classes : List ClassDecl)
    (results : List InversionResult) : Prop where
  sites : ∀ r ∈ results, ∃ c ∈ classes, r.className = c.name ∧ r.startLine = c.startLine ∧
    ∀ s ∈ r.sites, s.StandsIn f lines c
  counts : ∀ r ∈ results, r.constructorSites = r.sites.countP (·.kind = .inConstructor) ∧
    r.methodSites = r.sites.countP (·.kind = .inMethod)
  /-- The values made on a line are counted once or not at all. -/
  once : ∀ (n : Nat) (line : Line), lines[n]? = some line →
    (onLine (results.flatMap (·.sites)) n).length = 0 ∨
      (onLine (results.flatMap (·.sites)) n).length = (f.instantiations line).length
  oneResult : results.Pairwise fun a b => ∀ s ∈ a.sites, ∀ t ∈ b.sites, s.line ≠ t.line
  oneKind : ∀ r ∈ results, ∀ s ∈ r.sites, ∀ t ∈ r.sites, s.line = t.line → s.kind = t.kind

variable {f : Family} {lines : List Line} {c : ClassDecl} {n : Nat} {line : Line} {kind : SiteKind}

def sitesOf (f : Family) (kind : SiteKind) (n : Nat) (line : Line) : List Site :=
  (f.instantiations line).map fun t => ⟨n, kind, String.ofList (Text.trim line), t⟩

theorem map_className_sitesOf : (sitesOf f kind n line).map (·.className) = f.instantiations line := by
  rw [sitesOf, List.map_map]
  exact List.map_id _

theorem onLine_append (a b : List Site) (n : Nat) : onLine (a ++ b) n = onLine a n ++ onLine b n :=
  List.filter_append ..

theorem onLine_flatMap {α : Type} (l : List α) (g : α → List Site) (n : Nat) :
    onLine (l.flatMap g) n = l.flatMap fun a => onLine (g a) n :=
  List.filter_flatMap ..

theorem mem_onLine {sites : List Site} {s : Site} : s ∈ onLine sites n ↔ s ∈ sites ∧ s.line = n := by
  rw [onLine, List.mem_filter, decide_eq_true_eq]

theorem onLine_sitesOf (k : Nat) :
    onLine (sitesOf f kind k line) n = if k = n then sitesOf f kind k line else [] := by
  unfold onLine
  split_ifs with hk
  · refine List.filter_eq_self.2 fun s hs => ?_
    obtain ⟨t, -, rfl⟩ := List.mem_map.1 hs
    simpa using hk
  · refine List.filter_eq_nil_iff.2 fun s hs => ?_
    obtain ⟨t, -, rfl⟩ := List.mem_map.1 hs
    simpa using hk

theorem onLine_zipIdx (rows : List Line) (i : Nat) :
    onLine ((rows.zipIdx i).flatMap fun x => sitesOf f kind x.2 x.1) n =
      if i ≤ n then rows[n - i]?.toList.flatMap (sitesOf f kind n) else [] := by
  induction rows generalizing i with
  | nil => simp [onLine]
  | cons row rows ih =>
    rw [List.zipIdx_cons, List.flatMap_cons, onLine_append, onLine_sitesOf, ih]
    rcases Nat.lt_trichotomy i n with hlt | rfl | hlt
    · obtain ⟨d, rfl⟩ : ∃ d, n = i + (d + 1) := ⟨n - i - 1, by omega⟩
      have h1 : i + (d + 1) - (i + 1) = d := by omega
      have h2 : i + (d + 1) - i = d + 1 := by omega
      simp [h1, h2]
    · simp
    · have h1 : i ≠ n := by omega
      have h2 : ¬ i + 1 ≤ n := by omega
      have h3 : ¬ i ≤ n := by omega
      simp [h1, h2, h3]

/-- A span gives the sites of each of its lines. -/
theorem onLine_sitesIn (hline : lines[n]? = some line) (kind : SiteKind) (first last : Nat) :
    onLine (sitesIn f lines kind first last) n =
      if first ≤ n ∧ n ≤ last then sitesOf f kind n line else [] := by
  have hsites : sitesIn f lines kind first last =
      ((Source.between lines first last).zipIdx first).flatMap fun x => sitesOf f kind x.2 x.1 := rfl
  rw [hsites, onLine_zipIdx]
  by_cases hfirst : first ≤ n
  · rw [if_pos hfirst, Source.getElem?_between, Nat.add_sub_cancel' hfirst, hline]
    by_cases hlast : n ≤ last
    · simp [hfirst, hlast]
    · simp [hlast]
  · rw [if_neg hfirst, if_neg fun h => hfirst h.1]

/-- A site of a span stands on one of its lines. -/
theorem mem_sitesIn {s : Site} {first last : Nat} (hs : s ∈ sitesIn f lines kind first last) :
    s.kind = kind ∧ ∃ (n : Nat) (line : Line), s.line = n ∧ lines[n]? = some line ∧
      (first ≤ n ∧ n ≤ last) ∧ s.code = String.ofList (Text.trim line) ∧
      s.className ∈ f.instantiations line := by
  obtain ⟨⟨line, n⟩, hline, hs⟩ := List.mem_flatMap.1 hs
  obtain ⟨hfirst, hline⟩ := List.mk_mem_zipIdx_iff_le_and_getElem?_sub.1 hline
  rw [Source.getElem?_between, Nat.add_sub_cancel' hfirst] at hline
  split_ifs at hline with hlast
  obtain ⟨t, ht, rfl⟩ := List.mem_map.1 hs
  exact ⟨rfl, n, line, rfl, hline, ⟨hfirst, hlast⟩, rfl, ht⟩

theorem mem_constructorSites {s : Site} (hs : s ∈ constructorSites f lines c) :
    s.kind = .inConstructor ∧ s.StandsIn f lines c := by
  unfold constructorSites at hs
  split at hs
  next k hk =>
    obtain ⟨hkind, n, line, hn, hline, hspan, hcode, hname⟩ := mem_sitesIn hs
    exact ⟨hkind, n, line, hn, hline, hkind ▸ ⟨k, hk, hspan⟩, hcode, hname⟩
  next => cases hs

theorem mem_methodSites {s : Site} (hs : s ∈ methodSites f lines c) :
    s.kind = .inMethod ∧ s.StandsIn f lines c := by
  obtain ⟨m, hm, hs⟩ := List.mem_flatMap.1 hs
  obtain ⟨hm, hother⟩ := List.mem_filter.1 hm
  obtain ⟨hkind, n, line, hn, hline, hspan, hcode, hname⟩ := mem_sitesIn hs
  exact ⟨hkind, n, line, hn, hline, hkind ▸ ⟨m, hm, by simpa using hother, hspan⟩, hcode, hname⟩

theorem mem_sites {s : Site} (hs : s ∈ (analyze f lines c).sites) : s.StandsIn f lines c := by
  rcases List.mem_append.1 hs with hs | hs
  · exact (mem_constructorSites hs).2
  · exact (mem_methodSites hs).2

/-- A line where the kinds of the sites do not belong has none of them. -/
theorem onLine_eq_nil {sites : List Site} (hsites : ∀ s ∈ sites, s.StandsIn f lines c)
    (h : ∀ s ∈ sites, ¬ Scans f c n s.kind) : onLine sites n = [] := by
  refine List.filter_eq_nil_iff.2 fun s hs => ?_
  obtain ⟨k, line, hk, -, hscans, -⟩ := hsites s hs
  rw [decide_eq_true_eq, hk, Nat.cast_inj]
  rintro rfl
  exact h s hs hscans

theorem Scans.bounds {size : Nat} (h : Scans f c n kind) (hc : c.WellFormed size) :
    c.startLine < n ∧ n ≤ c.endLine := by
  cases kind with
  | inConstructor =>
    obtain ⟨k, hk, hfirst, hlast⟩ := h
    obtain ⟨h1, -, h3⟩ := hc.constructor k hk
    exact ⟨by omega, by omega⟩
  | inMethod =>
    obtain ⟨m, hm, -, hfirst, hlast⟩ := h
    obtain ⟨h1, -, -, h4⟩ := hc.methods m hm
    exact ⟨by omega, by omega⟩
  | other => exact h.elim

theorem not_scans_both (hc : c ∈ f.classes lines) (hk : Scans f c n .inConstructor) :
    ¬ Scans f c n .inMethod := by
  obtain ⟨k, hk, hfirst, hlast⟩ := hk
  rintro ⟨m, hm, hname, hfirst', hlast'⟩
  have hapart := f.constructor_apart hc hk hm hname
  omega

theorem onLine_constructorSites (hline : lines[n]? = some line) (h : Scans f c n .inConstructor) :
    onLine (constructorSites f lines c) n = sitesOf f .inConstructor n line := by
  obtain ⟨k, hk, hspan⟩ := h
  rw [constructorSites, hk]
  exact (onLine_sitesIn hline .inConstructor _ _).trans (if_pos hspan)

theorem onLine_methodSites (hc : c.WellFormed lines.length) (hline : lines[n]? = some line)
    (h : Scans f c n .inMethod) : onLine (methodSites f lines c) n = sitesOf f .inMethod n line := by
  obtain ⟨m, hm, hname, hspan⟩ := h
  have hm : m ∈ c.methods.filter (·.name != f.constructorName) :=
    List.mem_filter.2 ⟨hm, by simpa using hname⟩
  simp only [methodSites, onLine_flatMap, onLine_sitesIn hline]
  refine (flatMap_eq_of_mem ?_ hm fun b _ => ?_).trans (if_pos hspan)
  · -- the methods follow one another, so that line `n` is in one of them at most
    refine (hc.ordered.filter _).imp ?_
    intro a b hab
    by_cases ha : n ≤ a.endLine
    · exact .inr (if_neg (by omega))
    · exact .inl (if_neg fun h => ha h.2)
  · rw [if_pos hspan]
    split_ifs with hb
    · exact .inr rfl
    · exact .inl rfl

/-- A line in which a class is searched gives the class all its sites, each once. -/
theorem onLine_sites (hc : c ∈ f.classes lines) (hline : lines[n]? = some line)
    (h : Scans f c n kind) : onLine (analyze f lines c).sites n = sitesOf f kind n line := by
  have hsplit : (analyze f lines c).sites = constructorSites f lines c ++ methodSites f lines c := rfl
  rw [hsplit, onLine_append]
  cases kind with
  | inConstructor =>
    have hmethods : onLine (methodSites f lines c) n = [] :=
      onLine_eq_nil (fun s hs => (mem_methodSites hs).2)
        fun s hs => (mem_methodSites hs).1 ▸ not_scans_both hc h
    rw [onLine_constructorSites hline h, hmethods, List.append_nil]
  | inMethod =>
    have hconstructor : onLine (constructorSites f lines c) n = [] :=
      onLine_eq_nil (fun s hs => (mem_constructorSites hs).2)
        fun s hs => (mem_constructorSites hs).1 ▸ fun hk => not_scans_both hc hk h
    rw [hconstructor, onLine_methodSites (f.classes_wellFormed hc) hline h, List.nil_append]
  | other => exact h.elim

theorem onLine_sites_cases (hc : c ∈ f.classes lines) (hline : lines[n]? = some line) :
    onLine (analyze f lines c).sites n = [] ∨
      ∃ kind, onLine (analyze f lines c).sites n = sitesOf f kind n line := by
  by_cases h : ∃ kind, Scans f c n kind
  · obtain ⟨kind, h⟩ := h
    exact .inr ⟨kind, onLine_sites hc hline h⟩
  · exact .inl (onLine_eq_nil (fun s => mem_sites) fun s _ hs => h ⟨s.kind, hs⟩)

/-- No line has sites of two classes. -/
theorem classes_apart {cs : List ClassDecl} (hcs : cs.Sublist (f.classes lines)) :
    cs.Pairwise fun a b => ∀ s ∈ (analyze f lines a).sites, ∀ t ∈ (analyze f lines b).sites,
      s.line ≠ t.line := by
  refine (f.classes_ordered.sublist hcs).imp_of_mem ?_
  intro a b ha hb hab s hs t ht
  obtain ⟨i, -, hi, -, hscans, -⟩ := mem_sites hs
  obtain ⟨j, -, hj, -, hscans', -⟩ := mem_sites ht
  have hlast := (hscans.bounds (f.classes_wellFormed (hcs.subset ha))).2
  have hfirst := (hscans'.bounds (f.classes_wellFormed (hcs.subset hb))).1
  omega

theorem onLine_apart {cs : List ClassDecl} (hcs : cs.Sublist (f.classes lines)) (n : Nat) :
    cs.Pairwise fun a b =>
      onLine (analyze f lines a).sites n = [] ∨ onLine (analyze f lines b).sites n = [] := by
  refine (classes_apart hcs).imp ?_
  intro a b hab
  by_contra hboth
  rw [not_or] at hboth
  obtain ⟨s, hs⟩ := List.exists_mem_of_ne_nil _ hboth.1
  obtain ⟨t, ht⟩ := List.exists_mem_of_ne_nil _ hboth.2
  obtain ⟨hs, hsn⟩ := mem_onLine.1 hs
  obtain ⟨ht, htn⟩ := mem_onLine.1 ht
  exact hab s hs t ht (hsn.trans htn.symm)

theorem onLine_results (cs : List ClassDecl) (n : Nat) :
    onLine ((cs.map (analyze f lines)).flatMap (·.sites)) n =
      cs.flatMap fun c => onLine (analyze f lines c).sites n := by
  rw [onLine_flatMap, List.flatMap_map]

theorem countP_sites (c : ClassDecl) :
    (analyze f lines c).constructorSites =
        (analyze f lines c).sites.countP (·.kind = .inConstructor) ∧
      (analyze f lines c).methodSites = (analyze f lines c).sites.countP (·.kind = .inMethod) := by
  have hk : ∀ s ∈ constructorSites f lines c, s.kind = .inConstructor := fun s hs =>
    (mem_constructorSites hs).1
  have hm : ∀ s ∈ methodSites f lines c, s.kind = .inMethod := fun s hs => (mem_methodSites hs).1
  have hsplit : (analyze f lines c).sites = constructorSites f lines c ++ methodSites f lines c := rfl
  rw [hsplit, List.countP_append, List.countP_append]
  constructor
  · rw [List.countP_eq_length.2 fun s hs => by simp [hk s hs],
      List.countP_eq_zero.2 fun s hs => by simp [hm s hs]]
    rfl
  · rw [List.countP_eq_zero.2 fun s hs => by simp [hk s hs],
      List.countP_eq_length.2 fun s hs => by simp [hm s hs], Nat.zero_add]
    rfl

/-- The results for any of the classes of a source, in their order. -/
theorem grounded_of_sublist {cs : List ClassDecl} (hcs : cs.Sublist (f.classes lines)) :
    Grounded f lines (f.classes lines) (cs.map (analyze f lines)) where
  sites := by
    intro r hr
    obtain ⟨c, hc, rfl⟩ := List.mem_map.1 hr
    exact ⟨c, hcs.subset hc, rfl, rfl, fun s => mem_sites⟩
  counts := by
    intro r hr
    obtain ⟨c, -, rfl⟩ := List.mem_map.1 hr
    exact countP_sites c
  once := by
    intro n line hline
    rw [onLine_results]
    rcases flatMap_eq_nil_or (onLine_apart hcs n) with hnil | ⟨c, hc, hsame⟩
    · exact .inl (by rw [hnil, List.length_nil])
    · rw [hsame]
      rcases onLine_sites_cases (hcs.subset hc) hline with hnil | ⟨kind, hfull⟩
      · exact .inl (by rw [hnil, List.length_nil])
      · exact .inr (by rw [hfull, sitesOf, List.length_map])
  oneResult := List.pairwise_map.2 (classes_apart hcs)
  oneKind := by
    intro r hr s hs t ht hst
    obtain ⟨c, hc, rfl⟩ := List.mem_map.1 hr
    obtain ⟨n, line, hn, hline, hscans, -⟩ := mem_sites hs
    have hfull := onLine_sites (hcs.subset hc) hline hscans
    have ht : t ∈ sitesOf f s.kind n line := hfull ▸ mem_onLine.2 ⟨ht, hst ▸ hn⟩
    obtain ⟨-, -, rfl⟩ := List.mem_map.1 ht
    rfl

/-- Nothing that is made in a line of a constructor or method is left out. -/
theorem onLine_classes (hc : c ∈ f.classes lines) (hline : lines[n]? = some line)
    (h : Scans f c n kind) :
    (onLine (((f.classes lines).map (analyze f lines)).flatMap (·.sites)) n).map (·.className) =
      f.instantiations line := by
  rw [onLine_results, List.map_flatMap]
  have hown : (onLine (analyze f lines c).sites n).map (·.className) = f.instantiations line := by
    rw [onLine_sites hc hline h, map_className_sitesOf]
  refine (flatMap_eq_of_mem ?_ hc fun d hd => ?_).trans hown
  · refine (onLine_apart (List.Sublist.refl _) n).imp ?_
    intro a b hab
    simpa only [List.map_eq_nil_iff] using hab
  · rw [hown]
    rcases onLine_sites_cases hd hline with hnil | ⟨kind, hfull⟩
    · exact .inl (by rw [hnil, List.map_nil])
    · exact .inr (by rw [hfull, map_className_sitesOf])

end Inversion

namespace SourceModel

/-- In any text and language: a result about type tests belongs to a method, its tests stand on lines of
the method and quote them, no two results share a line, and no test of a method is left out. A result
about instantiations belongs to a class, its sites stand on lines of the constructor or of another
method and show them, a line has all its instantiations in one result and of one kind or none at all,
and both kinds are counted right; before results are dropped for their score, every line of a
constructor or another method has all of them. -/
theorem evidence_grounded (text : String) (l : Language) (threshold : Float) :
    let m := ofText text (some l.name)
    let f := l.family
    (∀ r ∈ Openness.ofModel threshold m, ∃ c ∈ m.classes, ∃ k ∈ c.methods, r.className = c.name ∧
      r.methodName = k.name ∧ r.startLine = k.startLine ∧ ∀ t ∈ r.tests, t.StandsIn m.lines k) ∧
    ((Openness.ofModel threshold m).Pairwise fun a b =>
      ∀ s ∈ a.tests, ∀ t ∈ b.tests, s.line ≠ t.line) ∧
    ((Openness.ofModel threshold m).flatMap (·.tests) = m.classes.flatMap fun c =>
      c.methods.flatMap fun k =>
        f.typeTests (Source.between m.lines k.startLine k.endLine) k.startLine) ∧
    Inversion.Grounded f m.lines m.classes (Inversion.allOfModel m) ∧
    Inversion.Grounded f m.lines m.classes (Inversion.ofModel m) ∧
    ∀ c ∈ m.classes, ∀ (n : Nat) (line : Line) (kind : SiteKind), m.lines[n]? = some line →
      Inversion.Scans f c n kind →
      (Inversion.onLine ((Inversion.allOfModel m).flatMap (·.sites)) n).map (·.className) =
        f.instantiations line := by
  rw [ofText_name]
  refine ⟨?_, Openness.ofClasses_apart threshold l.family (Text.lines text), ?_,
    Inversion.grounded_of_sublist (List.Sublist.refl _), ?_, ?_⟩
  · intro r hr
    obtain ⟨c, hc, hr⟩ := List.mem_flatMap.1 hr
    obtain ⟨k, hk, hr⟩ := List.mem_filterMap.1 hr
    exact ⟨c, hc, k, hk, Openness.analyze?_spec hr⟩
  · simp only [Openness.ofModel, ofLines, List.flatMap_assoc, List.filterMap_eq_flatMap_toList,
      Openness.tests_analyze?]
  · have hkept : Inversion.ofModel (ofLines l (Text.lines text)) =
        ((l.family.classes (Text.lines text)).filter _).map
          (Inversion.analyze l.family (Text.lines text)) := List.filter_map ..
    rw [hkept]
    exact Inversion.grounded_of_sublist List.filter_sublist
  · intro c hc n line kind hline hscans
    exact Inversion.onLine_classes hc hline hscans

end SourceModel

end DesignLint
