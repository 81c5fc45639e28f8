import DesignLint.Text.Blank

/-! Lines of text, and a few questions about the characters of one line. -/

namespace DesignLint

/-- A line of source, without its line break. -/
abbrev Line := List Char

namespace Text

def dropReturn (s : List Char) : List Char :=
  if s.getLast? = some '\r' then s.dropLast else s

/-- The lines of a text. A line ends at a line feed, and a carriage return before it belongs to the
break. -/
def lines (text : String) : List Line :=
  (text.toList.splitOn '\n').map dropReturn

def contains (part : List Char) : List Char → Bool
  | [] => part.isEmpty
  | c :: s => part.isPrefixOf (c :: s) || contains part s

/-- The number of characters before the first occurrence of `part`. -/
def find? (part : List Char) : List Char → Option Nat
  | [] => if part.isEmpty then some 0 else none
  | c :: s => if part.isPrefixOf (c :: s) then some 0 else (find? part s).map (· + 1)

def braces (line : Line) : Nat × Nat :=
  (line.count '\x7b', line.count '\x7d')

end Text

end DesignLint
