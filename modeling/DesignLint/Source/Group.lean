import DesignLint.Source.Literal
import DesignLint.Source.Span

/-! The text between an opening parenthesis and the closing one that matches it, over several lines.
Quotes are read line by line: a literal that is open at the end of a line is forgotten there. -/

namespace DesignLint.Source

/-- Reads inside a group at parenthesis depth `depth`, in the literal with quote `quote` if any, just
behind a backslash if `escaped`. Gives the text read and the depth at the end of the line, or no depth
when the group closed. -/
def readInside (depth : Nat) (quote : Option Char) (escaped : Bool) :
    List Char → List Char × Option Nat
  | [] => ([], some depth)
  | c :: s =>
    let keep (x : List Char × Option Nat) := (c :: x.1, x.2)
    match quote with
    | some q =>
      if escaped then keep (readInside depth quote false s)
      else if c = '\\' then keep (readInside depth quote true s)
      else if c = q then keep (readInside depth none false s)
      else keep (readInside depth quote false s)
    | none =>
      if isQuote c then keep (readInside depth (some c) false s)
      else if c = '(' then keep (readInside (depth + 1) none false s)
      else if c = ')' then
        if depth ≤ 1 then ([], none) else keep (readInside (depth - 1) none false s)
      else keep (readInside depth none false s)

/-- The pieces of a group line by line, and how many lines further it closes. -/
def groupPieces (depth : Nat) : List Line → List (List Char) × Option Nat
  | [] => ([], none)
  | row :: rows =>
    match readInside depth none false row with
    | (piece, none) => ([piece], some 0)
    | (piece, some d) =>
      let (pieces, k) := groupPieces d rows
      (piece :: pieces, k.map (· + 1))

def joinPieces (pieces : List (List Char)) : List Char :=
  [' '].intercalate ((pieces.map Text.trim).filter (!·.isEmpty))

inductive Group
  /-- There is no opening parenthesis on the first row. -/
  | absent
  /-- The group closes so many rows further. -/
  | closed (text : List Char) (rows : Nat)
  /-- The group runs to the end of the source. -/
  | unclosed (text : List Char)

/-- The group of the first parenthesis in `row`, which the rows `rows` follow. -/
def Group.read (row : List Char) (rows : List Line) : Group :=
  match row.dropWhile (· != '(') with
  | [] => .absent
  | _ :: s =>
    match groupPieces 1 (s :: rows) with
    | (pieces, some k) => .closed (joinPieces pieces) k
    | (pieces, none) => .unclosed (joinPieces pieces)

def Group.text : Group → List Char
  | .absent => []
  | .closed t _ => t
  | .unclosed t => t

/-- The text of the group that opens on line `start` at or behind column `anchor`, and the line on
which it closes: the first line if it has no group, and the last of all if the group never closes.
There is none when `start` lies before the first line. -/
def groupAt? (lines : List Line) (start anchor : Int) : Option (List Char × Int) :=
  (onwards? lines start).map fun
    | [] => ([], lines.length - 1)
    | row :: rest =>
      match Group.read (row.drop (clampPosition row.length anchor)) rest with
      | .absent => ([], start)
      | .closed text rows => (text, start + rows)
      | .unclosed text => (text, lines.length - 1)

end DesignLint.Source
