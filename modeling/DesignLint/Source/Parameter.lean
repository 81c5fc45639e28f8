import DesignLint.Text.Line

/-! Parameter lists. They split at the commas outside all brackets; angle brackets count as brackets
except in the arrows `=>` and `=<`. -/

namespace DesignLint.Source

def opensBracket (before : Option Char) (c : Char) : Bool :=
  c == '(' || c == '[' || c == '\x7b' || (c == '<' && before != some '=')

def closesBracket (before : Option Char) (c : Char) : Bool :=
  c == ')' || c == ']' || c == '\x7d' || (c == '>' && before != some '=')

/-- The bracket depth behind `c`; a closing bracket too many is ignored. -/
def bracketDepth (depth : Nat) (before : Option Char) (c : Char) : Nat :=
  if opensBracket before c then depth + 1
  else if closesBracket before c then depth - 1
  else depth

def consFirst (c : Char) : List (List Char) → List (List Char)
  | [] => [[c]]
  | piece :: pieces => (c :: piece) :: pieces

/-- The pieces between the commas outside brackets. -/
def commaPieces (depth : Nat) (before : Option Char) : List Char → List (List Char)
  | [] => [[]]
  | c :: s =>
    let depth := bracketDepth depth before c
    if c = ',' ∧ depth = 0 then [] :: commaPieces depth (some c) s
    else consFirst c (commaPieces depth (some c) s)

def parameters (s : List Char) : List (List Char) :=
  ((commaPieces 0 none s).map Text.trim).filter (!·.isEmpty)

end DesignLint.Source
