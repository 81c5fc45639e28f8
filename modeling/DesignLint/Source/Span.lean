import DesignLint.Text.Line

/-! Parts of a list of lines. A position below zero counts from the end, and a span that reaches
beyond the lines is cut to them. -/

namespace DesignLint.Source

variable {α : Type}

/-- A position as a count from the start, within `0` and `size`. -/
def clampPosition (size : Nat) (i : Int) : Nat :=
  if i < 0 then (i + size).toNat else min i.toNat size

def slice (xs : List α) (first stop : Int) : List α :=
  (xs.take (clampPosition xs.length stop)).drop (clampPosition xs.length first)

def at? (xs : List α) (i : Int) : Option α :=
  if 0 ≤ i then xs[i.toNat]?
  else if 0 ≤ i + xs.length then xs[(i + xs.length).toNat]?
  else none

/-- The elements met when positions go up from `start` to the last one. From a position below zero
that is the end of the list and then all of it. -/
def onwards? (xs : List α) (start : Int) : Option (List α) :=
  if 0 ≤ start then some (xs.drop start.toNat)
  else if 0 ≤ start + xs.length then some (xs.drop (start + xs.length).toNat ++ xs)
  else none

def between (xs : List α) (first last : Nat) : List α :=
  (xs.take (last + 1)).drop first

end DesignLint.Source
