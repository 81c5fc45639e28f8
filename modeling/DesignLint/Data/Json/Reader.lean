import DesignLint.Data.Assoc
import DesignLint.Data.Value
import DesignLint.Decimal.Nearest

/-! Reading JSON. Beside the standard's values there are `NaN`, `Infinity` and `-Infinity`; a number
too large for a double is infinite; the last of several fields with one name counts. -/

namespace DesignLint.Json

inductive ReadError
  /-- The text is no JSON. -/
  | malformed
  /-- An integer has more digits than are taken. -/
  | integerTooLong
  /-- Values nest deeper than is taken. -/
  | tooDeep
  deriving Repr, DecidableEq

/-- Reads a start of the text; what is left over comes back. -/
abbrev Reader (α : Type) := List Char → Except ReadError (α × List Char)

def isSpace (c : Char) : Bool :=
  c == ' ' || c == '\t' || c == '\n' || c == '\r'

def skipSpace (s : List Char) : List Char :=
  s.dropWhile isSpace

def hexValue? (c : Char) : Option Nat :=
  if c.isDigit then some (c.toNat - '0'.toNat)
  else if 'a' ≤ c ∧ c ≤ 'f' then some (c.toNat - 'a'.toNat + 10)
  else if 'A' ≤ c ∧ c ≤ 'F' then some (c.toNat - 'A'.toNat + 10)
  else none

def hex4? (a b c d : Char) : Option Nat := do
  let a ← hexValue? a
  let b ← hexValue? b
  let c ← hexValue? c
  let d ← hexValue? d
  pure (((a * 16 + b) * 16 + c) * 16 + d)

def shortEscape? (c : Char) : Option Char :=
  if c == '\x22' || c == '\\' || c == '/' then some c
  else if c == 'b' then some '\x08'
  else if c == 'f' then some '\x0c'
  else if c == 'n' then some '\n'
  else if c == 'r' then some '\r'
  else if c == 't' then some '\t'
  else none

/-- What was read of a string, in reverse, and a high surrogate that waits for its low one. -/
structure Partial where
  read : List Glyph := []
  high : Option Surrogate := none

/-- What was read if no low surrogate follows. -/
def Partial.settle (p : Partial) : List Glyph :=
  match p.high with
  | some s => .lone s :: p.read
  | none => p.read

def Partial.push (p : Partial) (g : Glyph) : Partial :=
  ⟨g :: p.settle, none⟩

/-- Takes a character, or half of one, that is given by its code. -/
def Partial.pushCode (p : Partial) (n : Nat) : Partial :=
  match Surrogate.ofCode? n with
  | none => p.push (.char (Char.ofNat n))
  | some s =>
    if s.isHigh then ⟨p.settle, some s⟩
    else
      match p.high with
      | some high => ⟨.char (high.pairChar s) :: p.read, none⟩
      | none => p.push (.lone s)

def readString (p : Partial) : Reader RawText
  | [] => .error .malformed
  | '\\' :: 'u' :: a :: b :: c :: d :: s =>
    match hex4? a b c d with
    | some n => readString (p.pushCode n) s
    | none => .error .malformed
  | '\\' :: c :: s =>
    match shortEscape? c with
    | some e => readString (p.push (.char e)) s
    | none => .error .malformed
  | c :: s =>
    if c == '\x22' then .ok (.ofGlyphs p.settle.reverse, s)
    else if c == '\\' || c.toNat < 0x20 then .error .malformed
    else readString (p.push (.char c)) s

def digitsValue (digits : List Char) : Nat :=
  digits.foldl (fun n c => 10 * n + (c.toNat - '0'.toNat)) 0

/-- `digits * 10 ^ exponent` as a double. Numbers far outside the range of doubles are settled by their
size. -/
def decimalFloat (digits : List Char) (exponent : Int) : Float :=
  let digits := digits.dropWhile (· == '0')
  let size : Int := digits.length + exponent
  if digits.isEmpty || size < -330 then 0.0
  else if 310 < size then Decimal.infinity
  else Decimal.ofScientific (digitsValue digits) exponent

def readFraction : List Char → List Char × List Char
  | '.' :: s =>
    let digits := s.takeWhile Char.isDigit
    if digits.isEmpty then ([], '.' :: s) else (digits, s.drop digits.length)
  | s => ([], s)

def readExponent (s : List Char) : Option Int × List Char :=
  match s with
  | c :: t =>
    if c == 'e' || c == 'E' then
      let (negative, t) : Bool × List Char :=
        match t with
        | '-' :: t => (true, t)
        | '+' :: t => (false, t)
        | t => (false, t)
      let digits := t.takeWhile Char.isDigit
      if digits.isEmpty then (none, s)
      else
        let n : Int := digitsValue digits
        (some (if negative then -n else n), t.drop digits.length)
    else (none, s)
  | [] => (none, s)

def maxDigits : Nat := 4300

def readNumber (negative : Bool) : Reader Value := fun s =>
  let digits := if s.head? == some '0' then ['0'] else s.takeWhile Char.isDigit
  if digits.isEmpty then .error .malformed
  else
    let (frac, rest) := readFraction (s.drop digits.length)
    let (exponent, rest) := readExponent rest
    if frac.isEmpty && exponent.isNone then
      if maxDigits < digits.length then .error .integerTooLong
      else
        let n : Int := digitsValue digits
        .ok (.int (if negative then -n else n), rest)
    else
      let x := decimalFloat (digits ++ frac) (exponent.getD 0 - frac.length)
      .ok (.float (if negative then -x else x), rest)

def wordValues : List (String × Value) := [
  ("null", .null), ("true", .bool true), ("false", .bool false), ("NaN", .float (0.0 / 0.0)),
  ("Infinity", .float (1.0 / 0.0)), ("-Infinity", .float (-1.0 / 0.0))]

def readScalar : Reader Value := fun s =>
  match wordValues.find? fun w => w.1.toList.isPrefixOf s with
  | some (w, v) => .ok (v, s.drop w.length)
  | none =>
    match s with
    | [] => .error .malformed
    | c :: t =>
      if c == '\x22' then do
        let (x, rest) ← readString {} t
        pure (.str x, rest)
      else if c == '-' then readNumber true t
      else readNumber false s

mutual

/-- Reads a value in which others may nest `room` deep; `fuel` bounds how many are read. -/
def readValue : Nat → Nat → Reader Value
  | 0, _, _ => .error .malformed
  | fuel + 1, room, s =>
    match s, room with
    | '[' :: _, 0 | '\x7b' :: _, 0 => .error .tooDeep
    | '[' :: t, room + 1 =>
      match skipSpace t with
      | ']' :: rest => .ok (.list [], rest)
      | t => do
        let (items, rest) ← readItems fuel room [] t
        pure (.list items, rest)
    | '\x7b' :: t, room + 1 =>
      match skipSpace t with
      | '\x7d' :: rest => .ok (.object [], rest)
      | t => do
        let (fields, rest) ← readFields fuel room [] t
        pure (.object fields, rest)
    | s, _ => readScalar s

def readItems : Nat → Nat → List Value → Reader (List Value)
  | 0, _, _, _ => .error .malformed
  | fuel + 1, room, acc, s => do
    let (v, rest) ← readValue fuel room s
    match skipSpace rest with
    | ']' :: rest => pure ((v :: acc).reverse, rest)
    | ',' :: rest => readItems fuel room (v :: acc) (skipSpace rest)
    | _ => throw .malformed

def readFields : Nat → Nat → List (RawText × Value) → Reader (List (RawText × Value))
  | 0, _, _, _ => .error .malformed
  | fuel + 1, room, acc, s => do
    match s with
    | c :: t =>
      if c == '\x22' then
        let (name, rest) ← readString {} t
        match skipSpace rest with
        | ':' :: rest =>
          let (v, rest) ← readValue fuel room (skipSpace rest)
          match skipSpace rest with
          | '\x7d' :: rest => pure (Assoc.set acc name v, rest)
          | ',' :: rest => readFields fuel room (Assoc.set acc name v) (skipSpace rest)
          | _ => throw .malformed
        | _ => throw .malformed
      else throw .malformed
    | [] => throw .malformed

end

/-- Reads a text that holds one value, in which others nest at most `depth` deep. -/
def parse (depth : Nat) (text : String) : Except ReadError Value := do
  let s := text.toList
  let (v, rest) ← readValue (s.length + 1) depth (skipSpace s)
  if (skipSpace rest).isEmpty then pure v else throw .malformed

/-- How deep values may nest in a report. This is what the stack leaves to a reader where reports are read,
and no part of the form of a text: a reader takes any limit. -/
def usualDepth : Nat := 985

end DesignLint.Json
