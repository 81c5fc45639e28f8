import DesignLint.Text.Line

/-! Glob patterns: `*` stands for any text, slashes included, `?` for one character, and a set in
square brackets for one of its characters, or with `!` for one of all others. A bracket that never
closes stands for itself. -/

namespace DesignLint

inductive GlobToken
  | anyText
  | anyChar
  | char (c : Char)
  /-- One character inside (or, if negated, outside) all of the ranges. -/
  | set (negated : Bool) (ranges : List (Char × Char))
  deriving Repr, DecidableEq

def GlobToken.holds (c : Char) : GlobToken → Bool
  | .anyText => false
  | .anyChar => true
  | .char d => c == d
  | .set negated ranges => (ranges.any fun r => r.1 ≤ c && c ≤ r.2) != negated

namespace Glob

/-- The text of a set up to its closing bracket; a bracket at its very start belongs to the set. -/
def setBody? (s : List Char) : Option (List Char) :=
  let mark := s.takeWhile (· == '!') |>.take 1
  let s := s.drop mark.length
  let first := s.takeWhile (· == ']') |>.take 1
  let s := s.drop first.length
  if s.contains ']' then some (mark ++ first ++ s.takeWhile (· != ']')) else none

/-- Cuts the text of a set at the hyphens that make ranges. The first `guarded` characters make none,
and neither do the two behind a hyphen that does. -/
def cutRanges (guarded : Nat) : List Char → List (List Char)
  | [] => [[]]
  | c :: s =>
    if c = '-' ∧ guarded = 0 then [] :: cutRanges 2 s
    else
      match cutRanges (guarded - 1) s with
      | [] => [[c]]
      | piece :: pieces => (c :: piece) :: pieces

def closeRanges : List (List Char) → List (List Char)
  | [] => []
  | [piece, []] => [piece ++ ['-']]
  | piece :: pieces => piece :: closeRanges pieces

def dropEmptyRanges : List (List Char) → List (List Char)
  | [] => []
  | piece :: pieces =>
    match dropEmptyRanges pieces with
    | [] => [piece]
    | next :: rest =>
      if (do pure ((← next.head?) < (← piece.getLast?)) : Option Bool) = some true then
        (piece.dropLast ++ next.drop 1) :: rest
      else piece :: next :: rest

def rangesBetween : List (List Char) → List (Char × Char)
  | piece :: next :: rest =>
    (do pure ((← piece.getLast?), (← next.head?)) : Option (Char × Char)).toList
      ++ rangesBetween (next :: rest)
  | _ => []

def setToken (body : List Char) : GlobToken :=
  let guarded := if body.head? = some '!' then 2 else 1
  let pieces := dropEmptyRanges (closeRanges (cutRanges guarded body))
  let negated := pieces.head?.any fun piece => piece.head? == some '!'
  let pieces := if negated then pieces.modifyHead (·.drop 1) else pieces
  .set negated (pieces.flatten.map (fun c => (c, c)) ++ rangesBetween pieces)

def tokens (s : List Char) : List GlobToken :=
  go 0 s
where
  /-- Reads on; the next `skip` characters belong to a set that was read. -/
  go : Nat → List Char → List GlobToken
    | _, [] => []
    | skip + 1, _ :: s => go skip s
    | 0, c :: s =>
      if c = '*' then .anyText :: go 0 s
      else if c = '?' then .anyChar :: go 0 s
      else if c = '[' then
        match setBody? s with
        | some body => setToken body :: go (body.length + 1) s
        | none => .char c :: go 0 s
      else .char c :: go 0 s

def ends : List Char → List (List Char)
  | [] => [[]]
  | c :: s => (c :: s) :: ends s

def accepts : List GlobToken → List Char → Bool
  | [], s => s.isEmpty
  | .anyText :: ts, s => (ends s).any fun t => accepts ts t
  | t :: ts, s =>
    match s with
    | [] => false
    | c :: s => t.holds c && accepts ts s

def admits (pattern text : List Char) : Bool :=
  accepts (tokens pattern) text

end Glob

end DesignLint
