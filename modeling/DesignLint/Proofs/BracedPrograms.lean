import DesignLint.Proofs.BracedWalk
import DesignLint.Proofs.ProgramTexts

/-! Braced programs in a fixed layout: each class and each method opens a brace on its header and closes it
on a line of its own. Whatever blocks the bodies hold, such a program gives exactly its classes and
methods. -/

namespace DesignLint.Braced

open Pattern

def rise (rows : List Line) : Int :=
  (rows.map fun row => ((Text.braces row).1 : Int) - ((Text.braces row).2 : Int)).sum

/-- The text of a method. Its name is not reserved, and its body closes no brace that it has not opened and
leaves none open; only the ends of the lines count. -/
structure MethodText extends DesignLint.MethodText where
  unreserved : String.ofList name.chars ∉ reservedNames
  never_negative : ∀ n, 0 ≤ rise (body.take n)
  level : rise body = 0

def classLine (n : Name) : Line := "class ".toList ++ (n.chars ++ " \x7b".toList)

def classFoot : Line := "\x7d".toList

def methodLine (n : Name) : Line := "  ".toList ++ (n.chars ++ "() \x7b".toList)

def methodFoot : Line := "  \x7d".toList

def methodLines (m : MethodText) : List Line := methodLine m.name :: (m.body ++ [methodFoot])

def classLines (c : ClassText MethodText) : List Line :=
  classLine c.name :: (c.methods.flatMap methodLines ++ [classFoot])

def mentions (m : MethodText) : List Reference := (methodLines m).flatMap references

def methodDecl (i : Nat) (m : MethodText) : MethodDecl where
  name := String.ofList m.name.chars
  startLine := i
  endLine := i + m.body.length + 1
  headerEnd := i
  usedVariables := distinct (Reference.variables (mentions m))
  calledMethods := distinct (Reference.calls (mentions m))

def classDecl (i : Nat) (c : ClassText MethodText) : ClassDecl where
  name := String.ofList c.name.chars
  startLine := i
  endLine := i + (c.methods.flatMap methodLines).length + 1
  methods := inSequence methodLines methodDecl (i + 1) c.methods
  instanceVariables := distinct (c.methods.flatMap fun m => Reference.variables (mentions m))
  constructor? := none

section Lines

variable (n : Name)

theorem count_chars {c : Char} (h : Text.isWord c = false) : n.chars.count c = 0 := by
  refine List.count_eq_zero.2 fun hc => ?_
  rw [n.isWord c hc] at h
  cases h

theorem braces_classLine : Text.braces (classLine n) = (1, 0) := by
  simp [Text.braces, classLine, count_chars n (c := '\x7b') (by decide),
    count_chars n (c := '\x7d') (by decide)]

theorem braces_methodLine : Text.braces (methodLine n) = (1, 0) := by
  simp [Text.braces, methodLine, count_chars n (c := '\x7b') (by decide),
    count_chars n (c := '\x7d') (by decide)]

theorem trim_classLine :
    Text.trim (classLine n) = "class".toList ++ (" ".toList ++ (n.chars ++ " \x7b".toList)) := by
  have hline : classLine n = "class ".toList ++ (n.chars ++ " ".toList) ++ ['\x7b'] := by simp [classLine]
  rw [hline, Text.trim_of_ends ?_ (by decide)]
  · simp
  · rintro c ⟨⟩
    decide

theorem match?_classLine : classHeader.match? (Text.trim (classLine n)) = some (n.taken, " \x7b".toList) := by
  rw [trim_classLine]
  refine match?_classHeader n (by simp) (List.all_eq_true.1 (by decide)) ?_
  rintro c ⟨⟩
  decide

theorem trim_methodLine : Text.trim (methodLine n) = n.chars ++ '(' :: ") \x7b".toList := by
  have hend := Text.trimEnd_append_cons (c := '\x7b') (by decide) (n.chars ++ "() ".toList) []
  rw [methodLine, Text.trim_eq (List.all_eq_true.1 (by decide)) (n.isBlank_head _)]
  simpa [Text.trimEnd] using hend

variable {n} (h : String.ofList n.chars ∉ reservedNames)

include h

theorem startsMethod?_methodLine : startsMethod? (methodLine n) = some n.chars := by
  simp [startsMethod?, trim_methodLine, match?_methodHeader, h, isBodiless]

theorem constructorHeader_methodLine : constructorHeader.accepts (Text.trim (methodLine n)) = false := by
  rw [trim_methodLine]
  refine constructorHeader_accepts n _ fun hname => h ?_
  rw [hname]
  decide

end Lines

section Methods

theorem rise_cons (row : Line) (rows : List Line) :
    rise (row :: rows) = (Text.braces row).1 - (Text.braces row).2 + rise rows := by
  simp [rise]

/-- The lines of a body stay inside the method, and the last of them returns to where the first began. -/
theorem walk_body {rows : List Line} {depth : Nat} (hrises : ∀ n, 2 ≤ depth + rise (rows.take n))
    (hlevel : depth + rise rows = 2) (c : ClassDecl) {m : MethodDecl} {i : Nat} (hi : m.endLine = i)
    (rest : List Line) :
    State.walk (i + 1) ⟨depth, some ⟨c, .method m⟩⟩ (rows ++ rest) =
      State.walk (i + 1 + rows.length) ⟨2, some ⟨c.mention (rows.flatMap references),
        .method ({ m with endLine := i + rows.length }.mention (rows.flatMap references))⟩⟩ rest := by
  induction rows generalizing depth c m i with
  | nil =>
    subst hi
    have hdepth : depth = 2 := by
      rw [rise, List.map_nil, List.sum_nil] at hlevel
      omega
    rw [hdepth]
    rfl
  | cons row rows ih =>
    have hfirst := hrises 0
    have hsecond := hrises 1
    have hnil : rise [] = 0 := rfl
    simp only [List.take_zero, List.take_succ_cons, rise_cons] at hfirst hsecond hlevel
    have hdepth : (depthAfter depth row : Int) = depth + ((Text.braces row).1 - (Text.braces row).2) := by
      rw [depthAfter]
      omega
    have hreads : Reads (i + 1) row (rows ++ rest) ⟨depth, some ⟨c, .method m⟩⟩ _ _ :=
      .stay (.take rfl (fun h => by simp only at h; omega) .method) (.inr (by simp only; omega))
    have hnext : ∀ n, 2 ≤ (depthAfter depth row : Int) + rise (rows.take n) := by
      intro n
      have hn := hrises (n + 1)
      rw [List.take_succ_cons, rise_cons] at hn
      omega
    have hrows := ih hnext (by omega) (c.mention (references row)) (i := i + 1)
      (m := { m with endLine := i + 1 }.mention (references row)) (MethodDecl.mention_endLine _ _)
    rw [MethodDecl.mention_with_endLine, ← ClassDecl.mention_append, ← MethodDecl.mention_append] at hrows
    have hlength : i + 1 + rows.length = i + (row :: rows).length := by
      rw [List.length_cons]
      omega
    rw [List.flatMap_cons, Nat.add_right_comm, ← hlength, ← Nat.add_right_comm]
    exact hreads.walk_cons.trans hrows

def addText (c : ClassDecl) (i : Nat) (m : MethodText) : ClassDecl :=
  (c.mention (mentions m)).addMethod (methodDecl i m)

theorem walk_methodLine (c : ClassDecl) (i : Nat) {n : Name} (h : String.ofList n.chars ∉ reservedNames)
    (rest : List Line) :
    State.walk i ⟨1, some ⟨c, .none⟩⟩ (methodLine n :: rest) =
      State.walk (i + 1) ⟨2, some ⟨c.mention (references (methodLine n)),
        .method ((MethodDecl.begin n.chars i).mention (references (methodLine n)))⟩⟩ rest := by
  have hdepth : depthAfter 1 (methodLine n) = 2 := by simp [depthAfter, braces_methodLine]
  have hreads : Reads i (methodLine n) rest ⟨1, some ⟨c, .none⟩⟩ _ _ :=
    .stay (.take rfl (fun h => nomatch h) (.beginMethod rfl (constructorHeader_methodLine h)
      (startsMethod?_methodLine h))) (.inl (by rw [braces_methodLine]))
  rw [← hdepth]
  exact hreads.walk_cons

theorem walk_methodFoot (c : ClassDecl) (m : MethodDecl) (i : Nat) (rest : List Line) :
    State.walk i ⟨2, some ⟨c, .method m⟩⟩ (methodFoot :: rest) =
      State.walk (i + 1) ⟨1, some ⟨(c.mention (references methodFoot)).addMethod
        ({ m with endLine := i }.mention (references methodFoot)), .none⟩⟩ rest := by
  have hreads : Reads i methodFoot rest ⟨2, some ⟨c, .method m⟩⟩ _ _ :=
    .endMember (.take rfl (fun h => nomatch h) .method) (by decide) rfl
  exact hreads.walk_cons

theorem walk_method (c : ClassDecl) (i : Nat) (m : MethodText) (rest : List Line) :
    State.walk i ⟨1, some ⟨c, .none⟩⟩ (methodLines m ++ rest) =
      State.walk (i + (methodLines m).length) ⟨1, some ⟨addText c i m, .none⟩⟩ rest := by
  have hrises : ∀ n, 2 ≤ ((2 : Nat) : Int) + rise (m.body.take n) := by
    intro n
    have hn := m.never_negative n
    omega
  have hlevel : ((2 : Nat) : Int) + rise m.body = 2 := by
    rw [m.level]
    rfl
  have hlines : methodLines m ++ rest = methodLine m.name :: (m.body ++ methodFoot :: rest) := by
    simp [methodLines]
  have hmentions : mentions m =
      references (methodLine m.name) ++ (m.body.flatMap references ++ references methodFoot) := by
    simp [mentions, methodLines]
  have hlength : i + (methodLines m).length = i + 1 + m.body.length + 1 := by
    simp only [methodLines, List.length_cons, List.length_append, List.length_nil]
    omega
  have hdecl : methodDecl i m =
      { MethodDecl.begin m.name.chars i with endLine := i + 1 + m.body.length }.mention (mentions m) := by
    rw [MethodDecl.mention_eq, Nat.add_right_comm]
    rfl
  rw [hlines, hlength, walk_methodLine c i m.unreserved, walk_body hrises hlevel _ (i := i)
    (MethodDecl.mention_endLine _ _), walk_methodFoot, addText, hdecl, hmentions]
  simp only [MethodDecl.mention_with_endLine, MethodDecl.mention_append, ClassDecl.mention_append]

theorem walk_methods (c : ClassDecl) (i : Nat) (ms : List MethodText) (rest : List Line) :
    State.walk i ⟨1, some ⟨c, .none⟩⟩ (ms.flatMap methodLines ++ rest) =
      State.walk (i + (ms.flatMap methodLines).length) ⟨1, some ⟨{ c with
        methods := c.methods ++ inSequence methodLines methodDecl i ms
        instanceVariables := (ms.flatMap fun m => Reference.variables (mentions m)).foldl addName
          c.instanceVariables }, .none⟩⟩ rest := by
  induction ms generalizing c i with
  | nil => simp [inSequence]
  | cons m ms ih =>
    rw [List.flatMap_cons, List.append_assoc, walk_method, ih, List.length_append, ← Nat.add_assoc]
    simp [addText, ClassDecl.addMethod, ClassDecl.mention_eq_foldl, inSequence]

end Methods

section Classes

theorem walk_classLine (i : Nat) (n : Name) (rest : List Line) :
    State.walk i {} (classLine n :: rest) = State.walk (i + 1) ⟨1, some ⟨.begin n.chars i, .none⟩⟩ rest := by
  have hdepth : depthAfter ({} : State).depth (classLine n) = 1 := by simp [depthAfter, braces_classLine]
  have hreads : Reads i (classLine n) rest {} _ _ :=
    .stay (.begin rfl (match?_classLine n)) (.inl (by rw [braces_classLine]))
  refine hreads.walk_cons.trans ?_
  rw [hdepth, Name.taken_chars]
  rfl

theorem walk_classFoot (c : ClassDecl) (i : Nat) (rest : List Line) :
    State.walk i ⟨1, some ⟨c, .none⟩⟩ (classFoot :: rest) = c.endAt i :: State.walk (i + 1) {} rest := by
  have hreads : Reads i classFoot rest ⟨1, some ⟨c, .none⟩⟩ _ _ :=
    .endClass (.take rfl (fun h => nomatch h) (.idle fun _ => by decide)) (by decide) rfl
  exact hreads.walk_cons

theorem walk_class (i : Nat) (c : ClassText MethodText) (rest : List Line) :
    State.walk i {} (classLines c ++ rest) =
      classDecl i c :: State.walk (i + (classLines c).length) {} rest := by
  have hlines : classLines c ++ rest =
      classLine c.name :: (c.methods.flatMap methodLines ++ classFoot :: rest) := by simp [classLines]
  have hlength : i + (classLines c).length = i + 1 + (c.methods.flatMap methodLines).length + 1 := by
    simp only [classLines, List.length_cons, List.length_append, List.length_nil]
    omega
  have hlast : max i (i + 1 + (c.methods.flatMap methodLines).length) =
      i + (c.methods.flatMap methodLines).length + 1 := by omega
  rw [hlines, hlength, walk_classLine, walk_methods, walk_classFoot]
  simp only [ClassDecl.begin, ClassDecl.endAt, hlast, List.nil_append, classDecl, distinct]

/-- A program in this layout gives exactly its classes and methods, in order, each from its header to its
closing brace, and no constructor. -/
theorem classes_of_braced_program (program : List (ClassText MethodText)) :
    classes (program.flatMap classLines) = inSequence classLines classDecl 0 program := by
  suffices run : ∀ i, State.walk i {} (program.flatMap classLines) = inSequence classLines classDecl i program by
    exact run 0
  induction program with
  | nil => exact fun i => rfl
  | cons c program ih =>
    intro i
    rw [List.flatMap_cons, walk_class, ih, inSequence]

/-- A method with a block on which a class would begin elsewhere, and with two braces on one line. -/
def blockMethod : MethodText where
  name := ⟨"get".toList, by decide, List.all_eq_true.1 (by decide)⟩
  body := ["class A \x7b this.open()".toList, "\x7d else \x7b".toList, "    return this.x \x7d".toList]
  unreserved := by decide
  never_negative n := by
    rcases n with _ | _ | _ | n
    · decide
    · decide
    · decide
    · rw [List.take_of_length_le (by simp)]
      decide
  level := by decide

theorem classes_of_braced_program_block :
    classes ([⟨⟨"Box".toList, by decide, List.all_eq_true.1 (by decide)⟩, [blockMethod]⟩].flatMap classLines) =
      [{ name := "Box", startLine := 0, endLine := 6, instanceVariables := ["x"]
         methods := [{
          name := "get", startLine := 1, endLine := 5, headerEnd := 1, usedVariables := ["x"]
          calledMethods := ["open"] }] }] := by
  rw [classes_of_braced_program]
  decide +kernel

end Classes

end DesignLint.Braced
