import DesignLint.Data.Value
import DesignLint.Decimal.Shortest

/-! Writing JSON: on one line, or with every item on a line of its own, two spaces further in than
what holds it. Only quotes, backslashes and control characters are escaped. -/

namespace DesignLint.Json

def hexDigit (n : Nat) : Char :=
  if n < 10 then Char.ofNat ('0'.toNat + n) else Char.ofNat ('a'.toNat + n - 10)

def escapeChar (c : Char) : List Char :=
  if c == '\x22' || c == '\\' then ['\\', c]
  else if c == '\n' then ['\\', 'n']
  else if c == '\r' then ['\\', 'r']
  else if c == '\t' then ['\\', 't']
  else if c == '\x08' then ['\\', 'b']
  else if c == '\x0c' then ['\\', 'f']
  else if c.toNat < 0x20 then
    ['\\', 'u', '0', '0', hexDigit (c.toNat / 16), hexDigit (c.toNat % 16)]
  else [c]

def hexDigits : Nat → Nat → List Char
  | 0, _ => []
  | width + 1, n => hexDigits width (n / 16) ++ [hexDigit (n % 16)]

/-- A surrogate that stands alone can only be written as an escape. -/
def loneEscape (s : Surrogate) : List Char :=
  '\\' :: 'u' :: hexDigits 4 s.code

def escapeGlyph : Glyph → List Char
  | .char c => escapeChar c
  | .lone s => loneEscape s

def quote (t : RawText) : String :=
  String.ofList ('\x22' :: t.glyphs.flatMap escapeGlyph ++ ['\x22'])

def floatText (x : Float) : String :=
  Decimal.text "NaN" "Infinity" x

def lineBreak (depth : Nat) : String :=
  String.ofList ('\n' :: List.replicate (2 * depth) ' ')

mutual

/-- The pieces of a value with its items on lines of their own, itself at depth `depth`, in front of
other pieces. -/
def prettyPieces (depth : Nat) (v : Value) (more : List String) : List String :=
  match v with
  | .null => "null" :: more
  | .bool b => (if b then "true" else "false") :: more
  | .int n => toString n :: more
  | .float x => floatText x :: more
  | .str t => quote t :: more
  | .moment text => quote text :: more
  | .list [] => "[]" :: more
  | .list (v :: vs) =>
    "[" :: lineBreak (depth + 1) :: prettyPieces (depth + 1) v
      (prettyItems (depth + 1) vs (lineBreak depth :: "]" :: more))
  | .object [] => "\x7b\x7d" :: more
  | .object ((name, v) :: fields) =>
    "\x7b" :: lineBreak (depth + 1) :: quote name :: ": " :: prettyPieces (depth + 1) v
      (prettyFields (depth + 1) fields (lineBreak depth :: "\x7d" :: more))

def prettyItems (depth : Nat) (items : List Value) (more : List String) : List String :=
  match items with
  | [] => more
  | v :: vs => "," :: lineBreak depth :: prettyPieces depth v (prettyItems depth vs more)

def prettyFields (depth : Nat) (fields : List (RawText × Value)) (more : List String) :
    List String :=
  match fields with
  | [] => more
  | (name, v) :: fields =>
    "," :: lineBreak depth :: quote name :: ": " :: prettyPieces depth v
      (prettyFields depth fields more)

end

def pretty (v : Value) : String :=
  String.join (prettyPieces 0 v [])

mutual

def compactPieces (v : Value) (more : List String) : List String :=
  match v with
  | .null => "null" :: more
  | .bool b => (if b then "true" else "false") :: more
  | .int n => toString n :: more
  | .float x => floatText x :: more
  | .str t => quote t :: more
  | .moment text => quote text :: more
  | .list [] => "[]" :: more
  | .list (v :: vs) => "[" :: compactPieces v (compactItems vs ("]" :: more))
  | .object [] => "\x7b\x7d" :: more
  | .object ((name, v) :: fields) =>
    "\x7b" :: quote name :: ":" :: compactPieces v (compactFields fields ("\x7d" :: more))

def compactItems (items : List Value) (more : List String) : List String :=
  match items with
  | [] => more
  | v :: vs => "," :: compactPieces v (compactItems vs more)

def compactFields (fields : List (RawText × Value)) (more : List String) : List String :=
  match fields with
  | [] => more
  | (name, v) :: fields => "," :: quote name :: ":" :: compactPieces v (compactFields fields more)

end

def compact (v : Value) : String :=
  String.join (compactPieces v [])

end DesignLint.Json
