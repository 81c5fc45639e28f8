import DesignLint.Data.Json.Writer
import DesignLint.Text.Visible

/-! Values in a line of output. A text stands for itself; inside a list or an object it is quoted, with
what cannot be seen escaped. -/

namespace DesignLint.Value

def displayChar (quote c : Char) : List Char :=
  if c == quote || c == '\\' then ['\\', c]
  else if c == '\n' then ['\\', 'n']
  else if c == '\r' then ['\\', 'r']
  else if c == '\t' then ['\\', 't']
  else if Text.isInvisible c then
    if c.toNat < 0x100 then '\\' :: 'x' :: Json.hexDigits 2 c.toNat
    else if c.toNat < 0x10000 then '\\' :: 'u' :: Json.hexDigits 4 c.toNat
    else '\\' :: 'U' :: Json.hexDigits 8 c.toNat
  else [c]

def displayGlyph (form : Char → List Char) : Glyph → List Char
  | .char c => form c
  | .lone s => Json.loneEscape s

/-- A quoted text. Single quotes are used unless the text has some and no double ones. -/
def quoted (t : RawText) : String :=
  let glyphs := t.glyphs
  let quote :=
    if glyphs.contains (.char '\x27') && !glyphs.contains (.char '\x22') then '\x22' else '\x27'
  String.ofList (quote :: glyphs.flatMap (displayGlyph (displayChar quote)) ++ [quote])

mutual

def displayInner : Value → String
  | .null => "None"
  | .bool b => if b then "True" else "False"
  | .int n => toString n
  | .float x => Decimal.text "nan" "inf" x
  | .str t => quoted t
  | .moment text => text
  | .list [] => "[]"
  | .list (v :: vs) => "[" ++ displayInner v ++ displayItems vs ++ "]"
  | .object [] => "\x7b\x7d"
  | .object ((name, v) :: fields) =>
    "\x7b" ++ quoted name ++ ": " ++ displayInner v ++ displayFields fields ++ "\x7d"

def displayItems : List Value → String
  | [] => ""
  | v :: vs => ", " ++ displayInner v ++ displayItems vs

def displayFields : List (RawText × Value) → String
  | [] => ""
  | (name, v) :: fields => ", " ++ quoted name ++ ": " ++ displayInner v ++ displayFields fields

end

def display : Value → String
  | .str (.proper s) => s
  | .str (.broken t) => String.ofList (t.glyphs.flatMap (displayGlyph fun c => [c]))
  | v => displayInner v

end DesignLint.Value
