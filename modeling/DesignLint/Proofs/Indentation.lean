import DesignLint.Indented.Interfaces
import DesignLint.Proofs.LeadingBlanks
import Mathlib.Order.Monotone.Basic

/-! Of the indentation of a source only the order matters. If the leading blanks of every line are replaced by
spaces, in a number that grows with theirs, then the same classes and the same interfaces are found. -/

namespace DesignLint

namespace Text

/-- The line with `g n` spaces in place of the `n` blanks at its start. A blank line stays as it is. -/
def reindent (g : Nat → Nat) (line : Line) : Line :=
  if (trim line).isEmpty then line else List.replicate (g (indent line)) ' ' ++ trimStart line

section Reindent

variable (g : Nat → Nat) (line : Line)

theorem reindent_of_blank {line : Line} (h : trim line = []) : reindent g line = line := by
  rw [reindent, if_pos (by simp [h])]

/-- Both lines are the same text behind blanks. -/
theorem exists_reindent : ∃ lead lead' s, line = lead ++ s ∧ reindent g line = lead' ++ s ∧
    (∀ c ∈ lead, isBlank c = true) ∧ ∀ c ∈ lead', isBlank c = true := by
  have hlead : ∀ c ∈ line.takeWhile isBlank, isBlank c = true := fun c hc => List.mem_takeWhile_imp hc
  have hline : line = line.takeWhile isBlank ++ trimStart line := List.takeWhile_append_dropWhile.symm
  by_cases hblank : trim line = []
  · exact ⟨_, _, _, hline, by rw [reindent_of_blank g hblank]; exact hline, hlead, hlead⟩
  · refine ⟨_, List.replicate (g (indent line)) ' ', _, hline, ?_, hlead, fun c hc => ?_⟩
    · rw [reindent, if_neg (by simpa using hblank)]
    · rw [(List.mem_replicate.1 hc).2]
      decide

@[simp] theorem trim_reindent : trim (reindent g line) = trim line := by
  obtain ⟨lead, lead', s, hline, hlines, hlead, hlead'⟩ := exists_reindent g line
  rw [hlines, hline, trim_append_blanks hlead, trim_append_blanks hlead']

theorem indent_reindent {line : Line} (h : trim line ≠ []) : indent (reindent g line) = g (indent line) := by
  obtain ⟨lead, c, rest, rfl, hlead, hc⟩ := exists_first h
  have hfirst : ∀ d ∈ (c :: rest).head?, isBlank d = false := by
    rintro d ⟨⟩
    exact hc
  have hspaces : ∀ d ∈ List.replicate (g lead.length) ' ', isBlank d = true := by
    intro d hd
    rw [(List.mem_replicate.1 hd).2]
    decide
  rw [reindent, if_neg (by simpa using h), indent_eq hlead hfirst, trimStart,
    List.dropWhile_append_of_pos hlead, List.dropWhile_cons_of_neg (by simp [hc]), indent_eq hspaces hfirst,
    List.length_replicate]

end Reindent

end Text

namespace Source

variable (g : Nat → Nat)

theorem parenBalance_reindent (line : Line) : parenBalance (Text.reindent g line) = parenBalance line := by
  obtain ⟨lead, lead', s, hline, hlines, hlead, hlead'⟩ := Text.exists_reindent g line
  rw [hlines, hline, parenBalance_behind_plain fun c hc => isPlain_of_isBlank (hlead c hc),
    parenBalance_behind_plain fun c hc => isPlain_of_isBlank (hlead' c hc)]

/-- A row of a group has the same piece but for the blanks at its start, and the group goes on in the same way. -/
theorem readInside_reindent (depth : Nat) (row : Line) :
    Text.trim (readInside depth none false (Text.reindent g row)).1 =
        Text.trim (readInside depth none false row).1 ∧
      (readInside depth none false (Text.reindent g row)).2 = (readInside depth none false row).2 := by
  obtain ⟨lead, lead', s, hrow, hrows, hlead, hlead'⟩ := Text.exists_reindent g row
  rw [hrows, hrow, readInside_behind_blanks hlead, readInside_behind_blanks hlead',
    Text.trim_append_blanks hlead, Text.trim_append_blanks hlead']
  exact ⟨rfl, rfl⟩

theorem kept_reindent (depth : Nat) (rows : List Line) :
    kept (groupPieces depth (rows.map (Text.reindent g))).1 = kept (groupPieces depth rows).1 := by
  induction rows generalizing depth with
  | nil => rfl
  | cons row rows ih =>
    obtain ⟨hpiece, hdepth⟩ := readInside_reindent g depth row
    exact kept_row_congr hpiece hdepth ih

end Source

namespace Indented

open Source

section Walk

variable (g : Nat → Nat)

def OpenClass.reindent (c : OpenClass) : OpenClass := { c with indent := g c.indent }

def OpenMethod.reindent (m : OpenMethod) : OpenMethod := { m with indent := g m.indent }

def State.reindent : State → State
  | .outside => .outside
  | .inClass c => .inClass (c.reindent g)
  | .inMethod c m => .inMethod (c.reindent g) (m.reindent g)

theorem references_reindent (line : Line) : references (Text.reindent g line) = references line := by
  obtain ⟨lead, lead', s, hline, hlines, hlead, hlead'⟩ := Text.exists_reindent g line
  rw [hlines, hline, references_behind_blanks hlead, references_behind_blanks hlead']

variable (st : State)

@[simp] theorem State.inHeader_reindent : (st.reindent g).inHeader = st.inHeader := by
  cases st <;> rfl

@[simp] theorem State.close_reindent (last : Nat) : (st.reindent g).close last = st.close last := by
  cases st <;> rfl

theorem member_reindent (c : OpenClass) (i : Nat) {line : Line} (h : Text.trim line ≠ []) :
    member (c.reindent g) i (Text.reindent g line) = (member c i line).reindent g := by
  unfold member
  rw [Text.trim_reindent]
  cases methodHeader.match? (Text.trim line) with
  | none => rfl
  | some found =>
    simp only [OpenMethod.begin, Text.indent_reindent g h, parenBalance_reindent]
    rfl

variable {g} (hg : StrictMono g)

include hg

theorem State.inBody_reindent (indent : Nat) : (st.reindent g).inBody (g indent) = st.inBody indent := by
  cases st with
  | outside => rfl
  | inClass c => rfl
  | inMethod c m => simp only [State.reindent, State.inBody, OpenMethod.reindent, hg.lt_iff_lt]

/-- A line does the same in both sources. -/
theorem State.step_reindent (i : Nat) (line : Line) : (st.reindent g).step i (Text.reindent g line) =
    ((st.step i line).1, (st.step i line).2.reindent g) := by
  unfold State.step
  simp only [State.inHeader_reindent, Text.trim_reindent]
  by_cases hheader : st.inHeader
  · rw [if_pos hheader, if_pos hheader]
    cases st with
    | outside => rfl
    | inClass c => rfl
    | inMethod c m =>
      simp only [State.reindent, OpenMethod.extendHeader, parenBalance_reindent]
      rfl
  by_cases hblank : (Text.trim line).isEmpty
  · rw [if_neg hheader, if_neg hheader, if_pos hblank, if_pos hblank]
  have hline : Text.trim line ≠ [] := by simpa using hblank
  rw [if_neg hheader, if_neg hheader, if_neg hblank, if_neg hblank]
  simp only [Text.indent_reindent g hline, State.inBody_reindent st hg]
  cases (if st.inBody (Text.indent line) then none else classHeader.match? (Text.trim line)) with
  | some found =>
    simp only [State.close_reindent, OpenClass.begin, Text.indent_reindent g hline]
    rfl
  | none =>
    cases st with
    | outside => rfl
    | inClass c =>
      have hindent : g (Text.indent line) ≤ (c.reindent g).indent ↔ Text.indent line ≤ c.indent :=
        hg.le_iff_le
      simp only [State.reindent, hindent, member_reindent g c i hline]
      split_ifs with hleave
      · rfl
      · rfl
    | inMethod c m =>
      have hindent : g (Text.indent line) ≤ (c.reindent g).indent ↔ Text.indent line ≤ c.indent :=
        hg.le_iff_le
      have hadd : (c.reindent g).addMethod (m.reindent g) = (c.addMethod m).reindent g := rfl
      simp only [State.reindent, hindent, hadd, member_reindent g _ i hline, references_reindent]
      split_ifs with hleave hbody
      · rfl
      · rfl
      · rfl

theorem State.walk_reindent (i : Nat) (lines : List Line) :
    (st.reindent g).walk i (lines.map (Text.reindent g)) = st.walk i lines := by
  induction lines generalizing st i with
  | nil => exact st.close_reindent g (i - 1)
  | cons line lines ih =>
    simp only [List.map_cons, State.walk, State.step_reindent st hg, ih]

end Walk

section Constructor

variable (g : Nat → Nat)

theorem signatureParams_reindent (lines : List Line) :
    signatureParams (lines.map (Text.reindent g)) = signatureParams lines := by
  cases lines with
  | nil => rfl
  | cons header rest =>
    obtain ⟨lead, lead', s, hheader, hheader', hlead, hlead'⟩ := Text.exists_reindent g header
    have hname : constructorName.toList = '_' :: "_init__".toList := rfl
    have hanchor := (dropWhile_behind_blanks hlead' (c := '_') (by decide) "_init__".toList s).trans
      (dropWhile_behind_blanks hlead (c := '_') (by decide) "_init__".toList s).symm
    rw [← hheader, ← hheader', ← hname] at hanchor
    simp only [List.map_cons, signatureParams,
      Group.text_read_congr hanchor fun d => kept_reindent g d rest]

theorem findConstructor_reindent (lines : List Line) (c : ClassDecl) :
    findConstructor (lines.map (Text.reindent g)) c = findConstructor lines c := by
  simp only [findConstructor, ← List.map_drop, signatureParams_reindent]

end Constructor

section Interfaces

variable (g : Nat → Nat)

def OpenInterface.reindent (o : OpenInterface) : OpenInterface := { o with indent := g o.indent }

@[simp] theorem OpenInterface.close_reindent (o : Option OpenInterface) :
    OpenInterface.close (o.map (·.reindent g)) = OpenInterface.close o := by
  cases o <;> rfl

theorem decoratedMethod?_reindent (lines : List Line) :
    decoratedMethod? (lines.map (Text.reindent g)) = decoratedMethod? lines := by
  induction lines with
  | nil => rfl
  | cons line lines ih => simp only [List.map_cons, decoratedMethod?, Text.trim_reindent, ih]

theorem OpenInterface.begin?_reindent (i : Nat) {line : Line} (h : Text.trim line ≠ []) :
    OpenInterface.begin? i (Text.reindent g line) = (OpenInterface.begin? i line).map (·.reindent g) := by
  unfold OpenInterface.begin?
  rw [Text.trim_reindent]
  cases classWithBases.match? (Text.trim line) with
  | none => rfl
  | some found =>
    obtain ⟨⟨name, bases⟩, rest⟩ := found
    simp only [Text.indent_reindent g h]
    split_ifs with hbase
    · rfl
    · rfl

theorem OpenInterface.extend_reindent (o : OpenInterface) (line : Line) (rest : List Line) :
    (o.reindent g).extend (Text.reindent g line) (rest.map (Text.reindent g)) = (o.extend line rest).reindent g := by
  unfold OpenInterface.extend
  rw [Text.trim_reindent, decoratedMethod?_reindent]
  split_ifs with hmark
  · cases decoratedMethod? rest with
    | none => rfl
    | some name => rfl
  · rfl

variable {g} (hg : StrictMono g)

include hg

theorem passLine_reindent (i : Nat) (line : Line) (rest : List Line) (current : Option OpenInterface) :
    passLine i (Text.reindent g line) (rest.map (Text.reindent g)) (current.map (·.reindent g)) =
      ((passLine i line rest current).1, (passLine i line rest current).2.map (·.reindent g)) := by
  unfold passLine
  rw [Text.trim_reindent]
  by_cases hclass : classHeader.accepts (Text.trim line)
  · have hline : Text.trim line ≠ [] := by
      intro hnil
      rw [hnil] at hclass
      cases hclass
    rw [if_pos hclass, if_pos hclass, OpenInterface.close_reindent, OpenInterface.begin?_reindent g i hline]
  rw [if_neg hclass, if_neg hclass]
  cases current with
  | none => rfl
  | some o =>
    by_cases hblank : (Text.trim line).isEmpty
    · simp only [Option.map_some, hblank, if_true]
    have hclose := OpenInterface.close_reindent g (some o)
    have hindent : Text.indent (Text.reindent g line) ≤ (o.reindent g).indent ↔ Text.indent line ≤ o.indent := by
      rw [Text.indent_reindent g (by simpa using hblank)]
      exact hg.le_iff_le
    simp only [Option.map_some, hblank, hindent, OpenInterface.extend_reindent, Bool.false_eq_true, if_false]
      at hclose ⊢
    split_ifs with hleave
    · rw [hclose]
      rfl
    · rfl

theorem interfacesFrom_reindent (i : Nat) (current : Option OpenInterface) (lines : List Line) :
    interfacesFrom i (current.map (·.reindent g)) (lines.map (Text.reindent g)) =
      interfacesFrom i current lines := by
  induction lines generalizing i current with
  | nil => exact OpenInterface.close_reindent g current
  | cons line lines ih =>
    rw [List.map_cons, interfacesFrom_cons, interfacesFrom_cons, passLine_reindent hg]
    exact congrArg _ (ih _ _)

end Interfaces

/-- Other indentations in the same order give the same classes and the same interfaces. -/
theorem reindent_keeps_declarations (g : Nat → Nat) (hg : StrictMono g) (lines : List Line) :
    classes (lines.map (Text.reindent g)) = classes lines ∧
      interfaces (lines.map (Text.reindent g)) = interfaces lines := by
  have hwalk : State.outside.walk 0 (lines.map (Text.reindent g)) = State.outside.walk 0 lines :=
    State.walk_reindent .outside hg 0 lines
  refine ⟨?_, interfacesFrom_reindent hg 0 none lines⟩
  rw [classes, hwalk]
  exact List.map_congr_left fun c _ => findConstructor_reindent g lines c

/-- Tabs become spaces and the margin moves, also in the rows of a parameter list. -/
theorem reindent_keeps_declarations_squares :
    let g : Nat → Nat := fun n => n * n + 1
    let lines : List Line := ["class Shape(ABC):".toList, "\tdef __init__(self, unit=\")\",".toList, "name):".toList,
      "\t  self.name = name".toList, "  ".toList, "\t@abstractmethod".toList, "\tdef area(self): ...".toList]
    let wide : List Line := [" class Shape(ABC):".toList, "  def __init__(self, unit=\")\",".toList, " name):".toList,
      "          self.name = name".toList, "  ".toList, "  @abstractmethod".toList, "  def area(self): ...".toList]
    StrictMono g ∧ lines.map (Text.reindent g) = wide ∧
      (classes wide).map (fun c => (c.name, c.methods.map (·.name), c.constructor?)) =
        [("Shape", ["__init__", "area"], some ⟨1, 3, ["unit=\")\"", "name"]⟩)] ∧
      classes wide = classes lines ∧ interfaces wide = interfaces lines := by
  intro g lines wide
  have hg : StrictMono g := fun a b hab => Nat.succ_lt_succ (Nat.mul_self_lt_mul_self hab)
  have hwide : lines.map (Text.reindent g) = wide := by decide +kernel
  have hsame := reindent_keeps_declarations g hg lines
  rw [hwide] at hsame
  exact ⟨hg, hwide, by decide +kernel, hsame⟩

end Indented

end DesignLint
