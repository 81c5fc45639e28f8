/-! A place in the text of a YAML document, with its line and column. -/

namespace DesignLint.Yaml

inductive Fault
  /-- The text is no YAML, or not of the kind that is read. -/
  | malformed
  /-- What has the form of a number, a date or a character stands for none. -/
  | noValue
  /-- A number is expected where there are no characters. -/
  | emptyNumber
  /-- A switch is expected where another word stands. -/
  | unknownWord
  /-- A date is expected where the text has not the form of one. -/
  | noDate
  /-- A number is too large for what is done with it. -/
  | tooLarge
  /-- Nodes nest too deep. -/
  | tooDeep
  deriving Repr, DecidableEq

def isPrintable (c : Char) : Bool :=
  let n := c.toNat
  n == 0x9 || n == 0xA || n == 0xD || (0x20 ≤ n && n ≤ 0x7E) || n == 0x85
    || (0xA0 ≤ n && n ≤ 0xFFFD) || 0x10000 ≤ n

def isBreak (c : Char) : Bool :=
  c == '\n' || c == '\r' || c == '\x85' || c == '\u2028' || c == '\u2029'

def isSpaceOrTab (c : Char) : Bool :=
  c == ' ' || c == '\t'

def isGap (c : Char) : Bool :=
  isSpaceOrTab c || isBreak c

def isFlowMark (c : Char) : Bool :=
  c == ',' || c == '[' || c == ']' || c == '\x7b' || c == '\x7d'

def isNameChar (c : Char) : Bool :=
  c.isAlphanum || c == '-' || c == '_'

structure Cursor where
  rest : List Char
  /-- How many characters were passed. -/
  index : Nat := 0
  line : Nat := 0
  column : Nat := 0

namespace Cursor

def peek? (c : Cursor) : Option Char :=
  c.rest.head?

def sees (c : Cursor) (x : Char) : Bool :=
  c.peek? == some x

def meets (c : Cursor) (ok : Char → Bool) : Bool :=
  c.peek?.all ok

/-- Passes one character. A byte order mark takes no column. -/
def next (c : Cursor) : Cursor :=
  match c.rest with
  | [] => c
  | x :: rest =>
    if isBreak x && !(x == '\r' && rest.head? == some '\n') then
      { rest, index := c.index + 1, line := c.line + 1, column := 0 }
    else
      { rest, index := c.index + 1, line := c.line
        column := if x == '\uFEFF' then c.column else c.column + 1 }

def skip : Nat → Cursor → Cursor
  | 0, c => c
  | n + 1, c => skip n c.next

def takeWhile (ok : Char → Bool) (c : Cursor) : List Char × Cursor :=
  let taken := c.rest.takeWhile ok
  (taken, c.skip taken.length)

def skipWhile (ok : Char → Bool) (c : Cursor) : Cursor :=
  (c.takeWhile ok).2

def skipSpaces (c : Cursor) : Cursor :=
  c.skipWhile (· == ' ')

def skipSpacesTo (column : Nat) (c : Cursor) : Cursor :=
  c.skip (min (column - c.column) (c.rest.takeWhile (· == ' ')).length)

/-- Reads a line break. Those of ASCII and the next-line character count as a line feed. -/
def takeBreak? (c : Cursor) : Option (Char × Cursor) :=
  match c.rest with
  | [] => none
  | x :: rest =>
    if x == '\r' && rest.head? == some '\n' then some ('\n', c.skip 2)
    else if x == '\n' || x == '\r' || x == '\x85' then some ('\n', c.next)
    else if isBreak x then some (x, c.next)
    else none

def skipComment (c : Cursor) : Cursor :=
  if c.sees '#' then c.skipWhile (!isBreak ·) else c

/-- Passes what is left of a line on which nothing but a comment may stand. -/
def skipLine (c : Cursor) : Except Fault Cursor :=
  let c := c.skipSpaces.skipComment
  match c.takeBreak? with
  | some (_, c) => .ok c
  | none => if c.rest.isEmpty then .ok c else .error .malformed

def seesMark (c : Cursor) (mark : String) : Bool :=
  mark.toList.isPrefixOf c.rest && (c.rest[mark.length]?).all isGap

/-- Does a mark stand here that separates documents? It is the caller's part to be at the start of a
line. -/
def seesSeparator (c : Cursor) : Bool :=
  c.seesMark "---" || c.seesMark "..."

end Cursor

/-- What line breaks inside a scalar become: one alone a space, several all but the first. -/
def foldBreaks (first : Char) (more : List Char) : List Char :=
  (if first != '\n' then [first] else if more.isEmpty then [' '] else []) ++ more

end DesignLint.Yaml
