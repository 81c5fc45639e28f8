import DesignLint.Text.Case
import DesignLint.Text.Line
import DesignLint.Text.Word

/-! Patterns over text. A pattern lists every way to match a start of the text in order of
preference, so the first entry is the match and the others are what is tried when the rest of a
larger pattern fails. Repetition prefers more, choice prefers its left side. -/

namespace DesignLint

/-- The ways to match a start of a text: the value read and the text left over, best first. What is
left over is always an end of the text. -/
structure Pattern (α : Type) where
  run : List Char → List (α × List Char)
  suffix : ∀ {s a r}, (a, r) ∈ run s → r <:+ s

namespace Pattern

variable {α β : Type}

instance : Monad Pattern where
  pure a := ⟨fun s => [(a, s)], by simp⟩
  bind p f := {
    run := fun s => (p.run s).flatMap fun x => (f x.1).run x.2
    suffix := by
      intro s b r h
      obtain ⟨⟨a, t⟩, hp, hf⟩ := List.mem_flatMap.1 h
      exact ((f a).suffix hf).trans (p.suffix hp) }

def one (ok : Char → Bool) : Pattern Char where
  run
    | [] => []
    | c :: s => if ok c then [(c, s)] else []
  suffix := by
    intro s a r h
    cases s with
    | nil => simp at h
    | cons c s => by_cases hc : ok c <;> simp_all

def chars (t : List Char) : Pattern Unit where
  run s := if t.isPrefixOf s then [((), s.drop t.length)] else []
  suffix := by
    intro s a r h
    split at h
    · simp only [List.mem_singleton, Prod.mk.injEq] at h
      exact h.2 ▸ List.drop_suffix _ _
    · simp at h

def text (t : String) : Pattern Unit :=
  chars t.toList

/-- A run of characters that was read. It is kept in reverse, so that all the runs that start at one place
have their characters in common. -/
structure Taken where
  reversed : List Char
  deriving Repr, DecidableEq

def Taken.chars (t : Taken) : List Char :=
  t.reversed.reverse

/-- The ways to split off a run of characters that pass a test behind what is already taken, the longest
run first, and then `shorter`. -/
def runs (ok : Char → Bool) (taken : List Char) (shorter : List (Taken × List Char)) :
    List Char → List (Taken × List Char)
  | [] => (⟨taken⟩, []) :: shorter
  | c :: s =>
    if ok c then runs ok (c :: taken) ((⟨taken⟩, c :: s) :: shorter) s
    else (⟨taken⟩, c :: s) :: shorter

theorem suffix_of_mem_runs {ok : Char → Bool} {taken : List Char}
    {shorter : List (Taken × List Char)} {s t : List Char} {x : Taken × List Char} (hs : s <:+ t)
    (hshorter : ∀ y ∈ shorter, y.2 <:+ t) (hx : x ∈ runs ok taken shorter s) : x.2 <:+ t := by
  induction s generalizing taken shorter with
  | nil =>
    rcases List.mem_cons.1 hx with rfl | h
    · exact hs
    · exact hshorter x h
  | cons c s ih =>
    unfold runs at hx
    split at hx
    · refine ih ((List.suffix_cons c s).trans hs) (fun y hy => ?_) hx
      rcases List.mem_cons.1 hy with rfl | h
      · exact hs
      · exact hshorter y h
    · rcases List.mem_cons.1 hx with rfl | h
      · exact hs
      · exact hshorter x h

/-- A run of characters that pass a test, with every shorter run behind the longest. -/
def many (ok : Char → Bool) : Pattern Taken where
  run := runs ok [] []
  suffix := fun h => suffix_of_mem_runs (List.suffix_refl _) (by simp) h

def many1 (ok : Char → Bool) : Pattern Taken where
  run
    | [] => []
    | c :: s => if ok c then runs ok [c] [] s else []
  suffix := by
    intro s a r h
    cases s with
    | nil => simp at h
    | cons c s =>
      by_cases hc : ok c
      · simp only [hc, if_true] at h
        exact suffix_of_mem_runs (List.suffix_cons c s) (by simp) h
      · simp [hc] at h

def or (p q : Pattern α) : Pattern α where
  run s := p.run s ++ q.run s
  suffix := by
    intro s a r h
    exact (List.mem_append.1 h).elim p.suffix q.suffix

def optional (p : Pattern α) : Pattern (Option α) :=
  (some <$> p).or (pure none)

def firstOf (ps : List (Pattern α)) : Pattern α where
  run s := ps.flatMap (·.run s)
  suffix := by
    intro s a r h
    obtain ⟨p, -, hp⟩ := List.mem_flatMap.1 h
    exact p.suffix hp

/-- The ways to match a pattern at most `n` times over, more repetitions first. A repetition takes
at least one character. -/
def repetitions (p : Pattern α) : Nat → List Char → List (Unit × List Char)
  | 0, s => [((), s)]
  | n + 1, s =>
    ((p.run s).filter fun x => x.2.length < s.length).flatMap (fun x => repetitions p n x.2)
      ++ [((), s)]

def repeated (p : Pattern α) : Pattern Unit where
  run s := repetitions p s.length s
  suffix := by
    intro s a r h
    generalize s.length = n at h
    induction n generalizing s with
    | zero => simp_all [repetitions]
    | succ n ih =>
      simp only [repetitions, List.mem_append, List.mem_flatMap, List.mem_filter,
        List.mem_singleton] at h
      rcases h with ⟨⟨b, t⟩, ⟨hb, -⟩, ht⟩ | h
      · exact (ih ht).trans (p.suffix hb)
      · simp_all

/-- Nothing is left, or a last line feed only. -/
def atEnd : Pattern Unit where
  run s := if s = [] ∨ s = ['\n'] then [((), s)] else []
  suffix := by
    intro s a r h
    split at h <;> simp_all

/-- A fixed text in small ASCII letters, in any letter case. -/
def textIgnoringCase (t : String) : Pattern Unit :=
  go t.toList
where
  go : List Char → Pattern Unit
    | [] => pure ()
    | c :: s => do
      let _ ← one (Text.sameIgnoringCase c)
      go s

def blanks : Pattern Unit := do
  let _ ← many Text.isBlank
  pure ()

def blanks1 : Pattern Unit := do
  let _ ← many1 Text.isBlank
  pure ()

def word : Pattern Taken :=
  many1 Text.isWord

def char (c : Char) : Pattern Unit := do
  let _ ← one (· == c)
  pure ()

def match? (p : Pattern α) (s : List Char) : Option (α × List Char) :=
  (p.run s).head?

def accepts (p : Pattern α) (s : List Char) : Bool :=
  (p.match? s).isSome

def acceptsAll (p : Pattern α) (s : List Char) : Bool :=
  (p.run s).any fun x => x.2.isEmpty

/-- The leftmost match: the value read at the first place where the pattern matches. -/
def search? (p : Pattern α) : List Char → Option α
  | [] => (p.match? []).map (·.1)
  | c :: s =>
    match p.match? (c :: s) with
    | some x => some x.1
    | none => search? p s

structure Found (α : Type) where
  value : α
  code : List Char

/-- The matches in a text from left to right, each starting behind the one before it. A match may
start only where `starts` admits the character before it. -/
def findAll (p : Pattern α) (starts : Option Char → Bool) (s : List Char) : List (Found α) :=
  go none 0 s
where
  /-- Reads on behind `before`; the next `skip` characters belong to the last match. -/
  go : Option Char → Nat → List Char → List (Found α)
    | _, _, [] => []
    | _, skip + 1, c :: s => go (some c) skip s
    | before, 0, c :: s =>
      match if starts before then p.match? (c :: s) else none with
      | some (a, r) =>
        let size := (c :: s).length - r.length
        ⟨a, (c :: s).take size⟩ :: go (some c) (size - 1) s
      | none => go (some c) 0 s

def anywhere (_ : Option Char) : Bool := true

/-- A match may start at the start of a word: not behind a word character. -/
def atWord (before : Option Char) : Bool :=
  before.all fun c => !Text.isWord c

end Pattern

end DesignLint
