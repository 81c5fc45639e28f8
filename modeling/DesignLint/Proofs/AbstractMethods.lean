import DesignLint.Proofs.Headers
import DesignLint.Proofs.IndentedDeclarations
import DesignLint.Proofs.SourceSpans
import Mathlib.Data.List.Sort

/-! The interfaces of an indentation-delimited source beside its classes. Two walks find them, and only the walk over
the classes knows where methods end. The walk over the interfaces finds what the lines alone say: behind each abstract
decorator in an interface, the header of a method. A header that starts an interface starts a class of that name
unless it lies in a method, and the headers of methods behind the decorators start methods of this class unless they
lie in another method or behind its end. -/

namespace DesignLint.Indented

open Pattern

/-- The bases stand behind the whole name of the class. -/
theorem classHeader_of_bases {s rest : List Char} {name bases : Taken}
    (h : classWithBases.match? s = some ((name, bases), rest)) :
    ∃ rest', classHeader.match? s = some (name, rest') := by
  obtain ⟨x, s₁, hclass, h₁⟩ := mem_run_bind.1 (mem_run_of_match? h)
  obtain ⟨_, s₂, hblanks, h₂⟩ := mem_run_bind.1 h₁
  obtain ⟨_, s₃, hparen, h₃⟩ := mem_run_bind.1 h₂
  obtain ⟨_, s₄, -, h₄⟩ := mem_run_bind.1 h₃
  obtain ⟨_, s₅, -, h₅⟩ := mem_run_bind.1 h₄
  obtain ⟨hpair, -⟩ := Prod.mk.inj (List.mem_singleton.1 h₅)
  obtain ⟨rfl, -⟩ := Prod.mk.inj hpair
  obtain ⟨_, t₁, htext, h₁⟩ := mem_run_bind.1 hclass
  obtain ⟨_, t₂, hgap, hword⟩ := mem_run_bind.1 h₁
  obtain rfl := of_mem_text htext
  obtain ⟨gap, rfl, hne, hblank⟩ := of_mem_blanks1 hgap
  obtain ⟨n, rfl, rfl⟩ := Name.of_mem_word hword
  obtain ⟨behind, rfl, hbehind⟩ := of_mem_blanks hblanks
  obtain rfl := of_mem_char hparen
  refine ⟨_, match?_classHeader n hne hblank fun c hc => ?_⟩
  cases behind with
  | nil =>
    obtain rfl : '(' = c := by simpa using hc
    decide
  | cons d behind =>
    obtain rfl : d = c := by simpa using hc
    exact Text.isWord_of_isBlank (hbehind d List.mem_cons_self)

section Decorated

def isDecoration (line : Line) : Bool :=
  (Text.trim line).isEmpty || (Text.trim line).head? == some '@'

/-- The method behind the decorator on line `j`, with the line of its header. -/
def decorated? (lines : List Line) (j : Nat) : Option (Nat × String) :=
  (decoratedMethod? (lines.drop (j + 1))).map fun name =>
    (j + 1 + ((lines.drop (j + 1)).takeWhile isDecoration).length, String.ofList name)

theorem decoratedMethod?_cons (line : Line) (rest : List Line) : decoratedMethod? (line :: rest) =
    if isDecoration line then decoratedMethod? rest
    else (methodHeader.match? (Text.trim line)).map (·.1.chars) := rfl

theorem of_decoratedMethod? {rest : List Line} {name : List Char} (h : decoratedMethod? rest = some name) :
    (∃ line, rest[(rest.takeWhile isDecoration).length]? = some line ∧ isDecoration line = false ∧
      ∃ found, methodHeader.match? (Text.trim line) = some found ∧ found.1.chars = name) ∧
    ∀ k < (rest.takeWhile isDecoration).length, ∀ line ∈ rest[k]?, isDecoration line = true := by
  induction rest with
  | nil => cases h
  | cons line rest ih =>
    rw [decoratedMethod?_cons] at h
    by_cases hline : isDecoration line = true
    · rw [if_pos hline] at h
      obtain ⟨hfound, hbefore⟩ := ih h
      rw [List.takeWhile_cons_of_pos hline, List.length_cons]
      refine ⟨hfound, fun k hk row hrow => ?_⟩
      cases k with
      | zero =>
        obtain rfl : line = row := Option.some.inj hrow
        exact hline
      | succ k => exact hbefore k (Nat.lt_of_succ_lt_succ hk) row hrow
    · rw [if_neg hline] at h
      obtain ⟨found, hmatch, rfl⟩ := Option.map_eq_some_iff.1 h
      rw [List.takeWhile_cons_of_neg hline]
      exact ⟨⟨line, rfl, by simpa using hline, found, hmatch, rfl⟩, by simp⟩

variable {lines : List Line} {j : Nat} {x : Nat × String}

structure Decorates (lines : List Line) (j : Nat) (x : Nat × String) : Prop where
  lt : j < x.1
  heads : Heads methodHeader lines x.1 x.2
  stops : ∀ line ∈ lines[x.1]?, isDecoration line = false
  between : ∀ k, j < k → k < x.1 → ∀ line ∈ lines[k]?, isDecoration line = true

theorem decorates_of_decorated? (h : decorated? lines j = some x) : Decorates lines j x := by
  obtain ⟨name, hname, rfl⟩ := Option.map_eq_some_iff.1 h
  obtain ⟨⟨line, hline, hstop, found, hmatch, rfl⟩, hbefore⟩ := of_decoratedMethod? hname
  rw [List.getElem?_drop] at hline
  refine ⟨by omega, heads_of_match hline hmatch, ?_, ?_⟩
  · intro row hrow
    rwa [Option.mem_unique hrow hline]
  · intro k hjk hk row hrow
    refine hbefore (k - (j + 1)) (by omega) row ?_
    rwa [List.getElem?_drop, Nat.add_sub_cancel' hjk]

/-- The method behind a later decorator is not above. -/
theorem Decorates.le {k : Nat} {y : Nat × String} (hx : Decorates lines j x) (hy : Decorates lines k y)
    (hjk : j < k) : x.1 ≤ y.1 := by
  by_contra hlt
  obtain ⟨line, hline, -⟩ := hy.heads
  have hskip := hx.between y.1 (hjk.trans hy.lt) (by omega) line hline
  rw [hy.stops line hline] at hskip
  cases hskip

end Decorated

section Marked

/-- Line `j` ends the interface that starts on line `i`: it is the header of a class or stands no deeper. -/
def endsInterface (lines : List Line) (i j : Nat) : Bool :=
  lines[j]?.any fun line => classHeader.accepts (Text.trim line) ||
    (!(Text.trim line).isEmpty && lines[i]?.any fun header => Text.indent line ≤ Text.indent header)

def marksIn (lines : List Line) (i j : Nat) : Bool :=
  i < j && (lines[j]?.any fun line => abstractMark.isPrefixOf (Text.trim line)) &&
    (List.range (j + 1)).all fun k => k ≤ i || !endsInterface lines i k

def markedBefore (lines : List Line) (i stop : Nat) : List (Nat × String) :=
  ((List.range stop).filter (marksIn lines i)).filterMap (decorated? lines)

/-- The methods behind the abstract decorators of the interface that starts on line `i`: the lines of their headers
and their names, in order. -/
def abstractMethods (lines : List Line) (i : Nat) : List (Nat × String) :=
  markedBefore lines i lines.length

variable {lines : List Line} {i j stop : Nat}

theorem marksIn_iff : marksIn lines i j = true ↔ i < j ∧
    (∃ line ∈ lines[j]?, abstractMark.isPrefixOf (Text.trim line) = true) ∧
      ∀ k, i < k → k ≤ j → endsInterface lines i k = false := by
  simp only [marksIn, Bool.and_eq_true, decide_eq_true_eq, Option.any_eq_true, List.all_eq_true, List.mem_range,
    Bool.or_eq_true, Bool.not_eq_true', and_assoc]
  refine and_congr_right fun _ => and_congr_right fun _ => ⟨fun h k hik hkj => ?_, fun h k hk => ?_⟩
  · exact (h k (Nat.lt_succ_of_le hkj)).resolve_left (Nat.not_le.2 hik)
  · rcases Nat.lt_or_ge i k with hik | hki
    · exact Or.inr (h k hik (Nat.le_of_lt_succ hk))
    · exact Or.inl hki

theorem markedBefore_succ (lines : List Line) (i stop : Nat) : markedBefore lines i (stop + 1) =
    markedBefore lines i stop ++ (if marksIn lines i stop then (decorated? lines stop).toList else []) := by
  rw [markedBefore, List.range_succ, List.filter_append, List.filterMap_append, markedBefore]
  congr 1
  split_ifs with hmark
  · cases hx : decorated? lines stop <;> simp [hmark, hx]
  · simp [hmark]

/-- The decorators lie behind the header. -/
theorem markedBefore_header (lines : List Line) (i : Nat) : markedBefore lines i (i + 1) = [] := by
  have hnone : (List.range (i + 1)).filter (marksIn lines i) = [] := by
    refine List.filter_eq_nil_iff.2 fun j hj hmark => ?_
    have hij := (marksIn_iff.1 hmark).1
    have hji := List.mem_range.1 hj
    omega
  rw [markedBefore, hnone, List.filterMap_nil]

/-- Behind the end of the interface there is no decorator of it. -/
theorem markedBefore_of_ends {k : Nat} (hik : i < k) (hends : endsInterface lines i k = true) (hk : k ≤ stop) :
    markedBefore lines i stop = markedBefore lines i k := by
  induction stop, hk using Nat.le_induction with
  | base => rfl
  | succ stop hk ih =>
    have hmark : ¬ marksIn lines i stop = true := by
      intro hmark
      rw [(marksIn_iff.1 hmark).2.2 k hik hk] at hends
      cases hends
    rw [markedBefore_succ, if_neg hmark, List.append_nil, ih]

theorem of_mem_abstractMethods {x : Nat × String} (hx : x ∈ abstractMethods lines i) :
    ∃ j, i < j ∧ Decorates lines j x := by
  obtain ⟨j, hj, hdecorated⟩ := List.mem_filterMap.1 hx
  exact ⟨j, (marksIn_iff.1 (List.mem_filter.1 hj).2).1, decorates_of_decorated? hdecorated⟩

theorem abstractMethods_ordered (lines : List Line) (i : Nat) :
    (abstractMethods lines i).Pairwise fun a b => a.1 ≤ b.1 := by
  refine List.pairwise_filterMap.2 ((List.pairwise_lt_range.filter _).imp ?_)
  intro j k hjk x hx y hy
  exact (decorates_of_decorated? hx).le (decorates_of_decorated? hy) hjk

end Marked

section Found

structure OpenAt (lines : List Line) (i : Nat) (o : OpenInterface) : Prop where
  start_lt : o.decl.startLine < i
  heads : Heads classHeader lines o.decl.startLine o.decl.name
  indent : ∀ header ∈ lines[o.decl.startLine]?, Text.indent header = o.indent
  goes_on : ∀ k, o.decl.startLine < k → k < i → endsInterface lines o.decl.startLine k = false
  methods : o.decl.methods = (markedBefore lines o.decl.startLine i).map (·.2)
  count : o.decl.count = o.decl.methods.length

structure Described (lines : List Line) (d : InterfaceDecl) : Prop where
  heads : Heads classHeader lines d.startLine d.name
  methods : d.methods = (abstractMethods lines d.startLine).map (·.2)
  count : d.count = d.methods.length
  pos : 1 ≤ d.count

variable {lines : List Line} {i : Nat} {line : Line} {o : OpenInterface}

theorem OpenAt.begin (hline : lines[i]? = some line) (ho : OpenInterface.begin? i line = some o) :
    OpenAt lines (i + 1) o := by
  unfold OpenInterface.begin? at ho
  split at ho
  next name bases rest hmatch =>
    split_ifs at ho with hbase
    obtain rfl := Option.some.inj ho
    obtain ⟨rest', hclass⟩ := classHeader_of_bases hmatch
    refine ⟨Nat.lt_succ_self i, heads_of_match hline hclass, ?_, ?_, ?_, rfl⟩
    · intro header hheader
      rw [Option.mem_unique hheader hline]
    · intro k hik hki
      simp only [InterfaceDecl.begin] at hik
      omega
    · simp only [InterfaceDecl.begin, markedBefore_header, List.map_nil]
  next => cases ho

theorem OpenAt.close (h : OpenAt lines i o) (hi : i ≤ lines.length)
    (hends : i < lines.length → endsInterface lines o.decl.startLine i = true) :
    ∀ d ∈ OpenInterface.close (some o), Described lines d := by
  intro d hd
  simp only [OpenInterface.close] at hd
  split_ifs at hd with hpos
  · rw [List.mem_singleton.1 hd]
    refine ⟨h.heads, ?_, h.count, hpos⟩
    rw [h.methods, abstractMethods]
    rcases Nat.lt_or_eq_of_le hi with hlt | rfl
    · rw [markedBefore_of_ends h.start_lt (hends hlt) hi]
    · rfl
  · cases hd

theorem OpenAt.goes_on_succ (h : OpenAt lines i o) (hgoes : endsInterface lines o.decl.startLine i = false) :
    ∀ k, o.decl.startLine < k → k ≤ i → endsInterface lines o.decl.startLine k = false := by
  intro k hk hki
  rcases Nat.lt_or_eq_of_le hki with hki | rfl
  · exact h.goes_on k hk hki
  · exact hgoes

/-- A line that adds no method. -/
theorem OpenAt.pass (h : OpenAt lines i o) (hgoes : endsInterface lines o.decl.startLine i = false)
    (hsame : markedBefore lines o.decl.startLine (i + 1) = markedBefore lines o.decl.startLine i) :
    OpenAt lines (i + 1) o :=
  ⟨Nat.lt_succ_of_lt h.start_lt, h.heads, h.indent,
    fun k hk hki => h.goes_on_succ hgoes k hk (Nat.le_of_lt_succ hki), by rw [hsame, h.methods], h.count⟩

/-- A line in the interface adds the method behind it, if it is an abstract decorator. -/
theorem OpenAt.extend (h : OpenAt lines i o) (hline : lines[i]? = some line)
    (hgoes : endsInterface lines o.decl.startLine i = false) :
    OpenAt lines (i + 1) (o.extend line (lines.drop (i + 1))) := by
  have hadded := markedBefore_succ lines o.decl.startLine i
  unfold OpenInterface.extend
  split_ifs with hprefix
  · have hmark : marksIn lines o.decl.startLine i = true :=
      marksIn_iff.2 ⟨h.start_lt, ⟨line, hline, hprefix⟩, h.goes_on_succ hgoes⟩
    rw [if_pos hmark, decorated?] at hadded
    cases hname : decoratedMethod? (lines.drop (i + 1)) with
    | none =>
      rw [hname, Option.map_none, Option.toList_none, List.append_nil] at hadded
      exact h.pass hgoes hadded
    | some name =>
      rw [hname, Option.map_some, Option.toList_some] at hadded
      refine ⟨Nat.lt_succ_of_lt h.start_lt, h.heads, h.indent,
        fun k hk hki => h.goes_on_succ hgoes k hk (Nat.le_of_lt_succ hki), ?_, ?_⟩
      · simp only [InterfaceDecl.addMethod, hadded, List.map_append, List.map_cons, List.map_nil, h.methods]
      · simp [InterfaceDecl.addMethod, h.count]
  · have hmark : ¬ marksIn lines o.decl.startLine i = true := by
      intro hmark
      obtain ⟨-, ⟨row, hrow, hmarked⟩, -⟩ := marksIn_iff.1 hmark
      rw [Option.mem_unique hrow hline] at hmarked
      exact hprefix hmarked
    rw [if_neg hmark, List.append_nil] at hadded
    exact h.pass hgoes hadded

/-- A line keeps what is known of the open interface, and what it closes is as described. -/
theorem passLine_described {current : Option OpenInterface} (hline : lines[i]? = some line)
    (h : ∀ o ∈ current, OpenAt lines i o) :
    (∀ d ∈ (passLine i line (lines.drop (i + 1)) current).1, Described lines d) ∧
      ∀ o ∈ (passLine i line (lines.drop (i + 1)) current).2, OpenAt lines (i + 1) o := by
  have hi : i ≤ lines.length := (List.getElem?_eq_some_iff.1 hline).1.le
  unfold passLine
  by_cases hclass : classHeader.accepts (Text.trim line) = true
  · rw [if_pos hclass]
    refine ⟨?_, fun o ho => .begin hline ho⟩
    cases current with
    | none => simp [OpenInterface.close]
    | some o => exact (h o rfl).close hi fun _ => by simp [endsInterface, hline, hclass]
  rw [if_neg hclass]
  cases current with
  | none => simp
  | some o =>
    have ho := h o rfl
    obtain ⟨header, hheader, -⟩ := ho.heads
    have hends : endsInterface lines o.decl.startLine i =
        (!(Text.trim line).isEmpty && decide (Text.indent line ≤ o.indent)) := by
      simp [endsInterface, hline, hclass, Option.mem_def.1 hheader, ho.indent header hheader]
    dsimp only
    split_ifs with hblank hleave
    · have hgoes : endsInterface lines o.decl.startLine i = false := by simp [hends, hblank]
      have hsame : o.extend line (lines.drop (i + 1)) = o := by
        rw [OpenInterface.extend, List.isEmpty_iff.1 hblank]
        rfl
      have hextend := ho.extend hline hgoes
      rw [hsame] at hextend
      exact ⟨by simp, by simpa using hextend⟩
    · exact ⟨ho.close hi fun _ => by simp [hends, hblank, hleave], by simp⟩
    · have hgoes : endsInterface lines o.decl.startLine i = false := by simp [hends, hleave]
      refine ⟨by simp, ?_⟩
      rintro _ ⟨⟩
      exact ho.extend hline hgoes

theorem interfaces_described (lines : List Line) : ∀ d ∈ interfaces lines, Described lines d := by
  suffices run : ∀ (rest : List Line) (i : Nat) (current : Option OpenInterface), lines.drop i = rest →
      i + rest.length = lines.length → (∀ o ∈ current, OpenAt lines i o) →
      ∀ d ∈ interfacesFrom i current rest, Described lines d from
    run lines 0 none rfl (Nat.zero_add _) (by simp)
  intro rest
  induction rest with
  | nil =>
    intro i current _ hi h
    obtain rfl : i = lines.length := by simpa using hi
    cases current with
    | none => simp [interfacesFrom, OpenInterface.close]
    | some o => exact (h o rfl).close le_rfl fun hlt => absurd hlt (lt_irrefl _)
  | cons line rest ih =>
    intro i current hrest hi h
    obtain ⟨hline, hnext⟩ := of_drop_eq_cons hrest
    obtain ⟨hclosed, hopen⟩ := passLine_described hline h
    rw [hnext] at hclosed hopen
    intro d hd
    rw [interfacesFrom_cons] at hd
    rcases List.mem_append.1 hd with hd | hd
    · exact hclosed d hd
    · rw [List.length_cons] at hi
      exact ih (i + 1) _ hnext (by omega) hopen d hd

end Found

section Recorded

variable {lines : List Line} {c : ClassDecl}

/-- The header of a method that lies in the class and in none of its methods starts one of them. -/
theorem exists_method (hc : c ∈ classes lines) {x : Nat × String} (hstart : c.startLine < x.1)
    (hheads : Heads methodHeader lines x.1 x.2) (hlast : x.1 ≤ c.endLine)
    (hfree : ¬ ∃ m ∈ c.methods, m.Covers x.1) : ∃ m ∈ c.methods, (m.startLine, m.name) = x := by
  have hnames := (starts_method_iff hc hstart hlast hheads).2 hfree
  obtain ⟨m, hm, hname⟩ := List.mem_map.1 (hnames ▸ List.mem_singleton_self x.2)
  obtain ⟨hmem, hline⟩ := List.mem_filter.1 hm
  exact ⟨m, hmem, Prod.ext (of_decide_eq_true hline) hname⟩

theorem methods_ordered (hc : c ∈ classes lines) : c.methods.Pairwise fun a b => a.startLine < b.startLine := by
  have hw := classes_wellFormed hc
  refine hw.ordered.imp_of_mem fun {a b} ha _ hab => ?_
  obtain ⟨-, hheader, hbody, -⟩ := hw.methods a ha
  omega

/-- Headers of methods in order, each of which lies in the class and in none of its methods. -/
theorem names_sublist (hc : c ∈ classes lines) {marked : List (Nat × String)}
    (hordered : marked.Pairwise fun a b => a.1 < b.1)
    (hmarked : ∀ x ∈ marked, ∃ m ∈ c.methods, (m.startLine, m.name) = x) :
    (marked.map (·.2)).Sublist (c.methods.map (·.name)) := by
  have hantisymm : Std.Antisymm fun a b : Nat × String => a.1 < b.1 :=
    ⟨fun _ _ hab hba => absurd (hab.trans hba) (lt_irrefl _)⟩
  have hnodup : marked.Nodup := hordered.imp fun hab heq => absurd (heq ▸ hab) (lt_irrefl _)
  have hsubset : marked ⊆ c.methods.map fun m => (m.startLine, m.name) :=
    fun x hx => List.mem_map.2 (hmarked x hx)
  have hsublist := List.sublist_of_subperm_of_pairwise (List.subperm_of_subset hnodup hsubset) hordered
    (List.pairwise_map.2 (methods_ordered hc))
  have hnames := hsublist.map (·.2)
  rwa [List.map_map] at hnames

end Recorded

/-- Every interface of a text counts its methods, and has one. If its header lies in no method, then a class with its
name starts there. Among the methods of this class are those behind the abstract decorators of the interface, in their
order, as far as their headers are different ones that lie in the class and in no other of its methods. -/
theorem interface_methods_in_class (text : String) :
    let source := SourceModel.ofText text (some Language.python.name)
    ∀ d ∈ source.interfaces, d.count = d.methods.length ∧ 1 ≤ d.count ∧
      d.methods = (abstractMethods source.lines d.startLine).map (·.2) ∧
      ((¬ ∃ c ∈ source.classes, ∃ m ∈ c.methods, m.Covers d.startLine) →
        ∃ c ∈ source.classes, c.name = d.name ∧ c.startLine = d.startLine ∧
          ∀ marked : List (Nat × String), marked.Sublist (abstractMethods source.lines d.startLine) →
            (marked.map (·.1)).Nodup →
            (∀ x ∈ marked, x.1 ≤ c.endLine ∧ ¬ ∃ m ∈ c.methods, m.Covers x.1) →
            (marked.map (·.2)).Sublist (c.methods.map (·.name))) := by
  intro source d hd
  have hsource : source = SourceModel.ofLines .python (Text.lines text) := SourceModel.ofText_name text .python
  rw [hsource] at hd ⊢
  have hdescribed := interfaces_described (Text.lines text) d hd
  refine ⟨hdescribed.count, hdescribed.pos, hdescribed.methods, fun hfree => ?_⟩
  have hnames := (starts_class_iff hdescribed.heads).2 hfree
  obtain ⟨c, hc, hname⟩ := List.mem_map.1 (hnames ▸ List.mem_singleton_self d.name)
  obtain ⟨hc, hstart⟩ := List.mem_filter.1 hc
  have hstart : c.startLine = d.startLine := of_decide_eq_true hstart
  refine ⟨c, hc, hname, hstart, fun marked hmarked hnodup hrecorded => ?_⟩
  have hordered : marked.Pairwise fun a b => a.1 < b.1 := by
    have hle := (abstractMethods_ordered (Text.lines text) d.startLine).sublist hmarked
    exact (hle.and (List.pairwise_map.1 hnodup)).imp fun hab => lt_of_le_of_ne hab.1 hab.2
  refine names_sublist hc hordered fun x hx => ?_
  obtain ⟨j, hij, hdecorates⟩ := of_mem_abstractMethods (hmarked.subset hx)
  obtain ⟨hlast, hnone⟩ := hrecorded x hx
  exact exists_method hc (hstart ▸ hij.trans hdecorates.lt) hdecorates.heads hlast hnone

/-- Two abstract methods, with another decorator on one of them and a method between them. -/
theorem interface_methods_in_class_shape :
    let source := SourceModel.ofText ("class S(ABC):\n  @property\n  @abstractmethod\n  def f(self): ...\n" ++
      "  def g(self):\n    return 1\n  @abstractmethod\n  def h(self): ...") (some Language.python.name)
    let d : InterfaceDecl := ⟨"S", 0, 2, ["f", "h"]⟩
    d ∈ source.interfaces ∧ ∃ c ∈ source.classes, c.name = d.name ∧ c.startLine = d.startLine ∧
      d.methods.Sublist (c.methods.map (·.name)) := by
  intro source d
  obtain ⟨hd, hfree, hnodup, hrecorded⟩ : d ∈ source.interfaces ∧
      (¬ ∃ c ∈ source.classes, ∃ m ∈ c.methods, m.Covers d.startLine) ∧
      ((abstractMethods source.lines d.startLine).map (·.1)).Nodup ∧
      ∀ c ∈ source.classes, ∀ x ∈ abstractMethods source.lines d.startLine,
        x.1 ≤ c.endLine ∧ ¬ ∃ m ∈ c.methods, m.Covers x.1 := by
    unfold MethodDecl.Covers
    decide +kernel
  obtain ⟨-, -, hmethods, hclass⟩ := interface_methods_in_class _ d hd
  obtain ⟨c, hc, hname, hstart, hmarked⟩ := hclass hfree
  refine ⟨hd, c, hc, hname, hstart, ?_⟩
  rw [hmethods]
  exact hmarked _ (List.Sublist.refl _) hnodup (hrecorded c hc)

/-- Every interface has a class of its name on its line, with its methods among those of the class. -/
def InterfacesMatch (source : SourceModel) : Prop :=
  ∀ d ∈ source.interfaces, ∃ c ∈ source.classes, c.name = d.name ∧ c.startLine = d.startLine ∧
    d.methods.Sublist (c.methods.map (·.name))

/-- A class in the body of a method, a decorated method in the body of another one, a decorator above a function that
is no method of the class, and a decorator written twice. -/
theorem interface_without_class :
    let source := fun text => SourceModel.ofText text (some Language.python.name)
    ¬ InterfacesMatch (source
      "class A:\n  def f(self):\n    class X(ABC):\n      @abstractmethod\n      def g(self): ...") ∧
    ¬ InterfacesMatch (source "class X(ABC):\n  def f(self):\n    @abstractmethod\n    def g(self): ...") ∧
    ¬ InterfacesMatch (source "class X(ABC):\n  @abstractmethod\ndef f(): ...") ∧
    ¬ InterfacesMatch (source "class X(ABC):\n  @abstractmethod\n  @abstractmethod\n  def f(self): ...") := by
  unfold InterfacesMatch
  decide +kernel

end DesignLint.Indented
