import DesignLint.Source.Parameter
import Mathlib.Data.List.Basic

/-! Parameter lists that are read in two parts. The second part starts at the bracket depth that the first one
leaves, and its first piece goes on with the last piece of the first part. -/

namespace DesignLint.Source

def depthBehind (depth : Nat) (before : Option Char) : List Char → Nat
  | [] => depth
  | c :: s => depthBehind (bracketDepth depth before c) (some c) s

def glue : List (List Char) → List (List Char) → List (List Char)
  | [], more => more
  | [piece], more => more.modifyHead (piece ++ ·)
  | piece :: next :: pieces, more => piece :: glue (next :: pieces) more

def separators : List Char := [',', '(', ')', '[', ']', '\x7b', '\x7d', '<', '>']

theorem not_mem_separators {ok : Char → Bool} (h : separators.any ok = false) {c : Char} (hc : ok c = true) :
    c ∉ separators := by
  intro hmem
  rw [List.any_eq_false] at h
  exact h c hmem hc

section Plain

variable {c : Char} (h : c ∉ separators) (before : Option Char)

include h

theorem opensBracket_eq_false : opensBracket before c = false := by
  simp only [separators, List.mem_cons, not_or] at h
  simp [opensBracket, h]

theorem closesBracket_eq_false : closesBracket before c = false := by
  simp only [separators, List.mem_cons, not_or] at h
  simp [closesBracket, h]

theorem bracketDepth_eq (depth : Nat) : bracketDepth depth before c = depth := by
  simp [bracketDepth, opensBracket_eq_false h, closesBracket_eq_false h]

end Plain

section Append

variable (depth : Nat) (before : Option Char)

theorem commaPieces_ne_nil (s : List Char) : commaPieces depth before s ≠ [] := by
  cases s with
  | nil => exact List.cons_ne_nil _ _
  | cons c s =>
    rw [commaPieces]
    split_ifs with hcomma
    · exact List.cons_ne_nil _ _
    · cases commaPieces (bracketDepth depth before c) (some c) s <;> exact List.cons_ne_nil _ _

theorem glue_cons (piece : List Char) {pieces : List (List Char)} (h : pieces ≠ []) (more : List (List Char)) :
    glue (piece :: pieces) more = piece :: glue pieces more := by
  obtain ⟨next, pieces, rfl⟩ := List.exists_cons_of_ne_nil h
  rfl

theorem glue_consFirst (c : Char) {pieces more : List (List Char)} (h : pieces ≠ []) (hmore : more ≠ []) :
    glue (consFirst c pieces) more = consFirst c (glue pieces more) := by
  obtain ⟨piece, pieces, rfl⟩ := List.exists_cons_of_ne_nil h
  obtain ⟨first, more, rfl⟩ := List.exists_cons_of_ne_nil hmore
  cases pieces with
  | nil => rfl
  | cons next pieces => rfl

theorem glue_nil_piece (more : List (List Char)) : glue [[]] more = more := by
  cases more <;> rfl

theorem getLast?_cons_or (c : Char) (s : List Char) : (c :: s).getLast?.or before = s.getLast?.or (some c) := by
  rw [List.getLast?_cons]
  cases s.getLast? <;> rfl

theorem commaPieces_append (s t : List Char) : commaPieces depth before (s ++ t) =
    glue (commaPieces depth before s) (commaPieces (depthBehind depth before s) (s.getLast?.or before) t) := by
  induction s generalizing depth before with
  | nil => exact (glue_nil_piece _).symm
  | cons c s ih =>
    rw [List.cons_append, commaPieces, commaPieces, depthBehind, getLast?_cons_or, ih]
    split_ifs with hcomma
    · rw [glue_cons _ (commaPieces_ne_nil _ _ _)]
    · rw [glue_consFirst _ (commaPieces_ne_nil _ _ _) (commaPieces_ne_nil _ _ _)]

end Append

end DesignLint.Source
