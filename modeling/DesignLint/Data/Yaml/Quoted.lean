import DesignLint.Data.Json.Reader
import DesignLint.Data.Yaml.Cursor

/-! Quoted scalars. Between single quotes a doubled quote stands for one; between double quotes a
backslash starts an escape. Line breaks are folded as in plain scalars. -/

namespace DesignLint.Yaml

def escape? (c : Char) : Option Char :=
  [('0', 0x0), ('a', 0x7), ('b', 0x8), ('t', 0x9), ('\t', 0x9), ('n', 0xA), ('v', 0xB), ('f', 0xC),
    ('r', 0xD), ('e', 0x1B), (' ', 0x20), ('\x22', 0x22), ('/', 0x2F), ('\\', 0x5C), ('N', 0x85),
    ('_', 0xA0), ('L', 0x2028), ('P', 0x2029)].lookup c |>.map Char.ofNat

def escapeWidth? (c : Char) : Option Nat :=
  [('x', 2), ('u', 4), ('U', 8)].lookup c

def hexNumber? (digits : List Char) : Option Nat :=
  digits.foldl (fun n c => do pure (16 * (← n) + (← Json.hexValue? c))) (some 0)

def maxCode : Nat := 0x10FFFF

/-- The largest number that is even asked for its character. -/
def maxAsked : Nat := 0x7FFFFFFF

/-- The character with a code; in place of half a character stands the replacement character. -/
def charOfCode (code : Nat) : Except Fault Char :=
  if maxAsked < code then .error .tooLarge
  else if maxCode < code then .error .noValue
  else if 0xD800 ≤ code ∧ code ≤ 0xDFFF then .ok '\uFFFD'
  else .ok (Char.ofNat code)

def quotedBreaks : Nat → List Char → Cursor → Except Fault (List Char × Cursor)
  | 0, _, _ => .error .malformed
  | n + 1, acc, c =>
    if c.seesSeparator then .error .malformed
    else
      let c := c.skipWhile isSpaceOrTab
      match c.takeBreak? with
      | some (b, c) => quotedBreaks n (b :: acc) c
      | none => .ok (acc.reverse, c)

def quotedGap (size : Nat) (c : Cursor) : Except Fault (List Char × Cursor) :=
  let (blanks, c) := c.takeWhile isSpaceOrTab
  match c.takeBreak? with
  | none => .ok (blanks, c)
  | some (b, c) => do
    let (more, c) ← quotedBreaks size [] c
    pure (foldBreaks b more, c)

/-- Reads an escape behind its backslash. An escaped line break is left out, with the gap behind it. -/
def quotedEscape (size : Nat) (c : Cursor) : Except Fault (List Char × Cursor) :=
  match c.peek? with
  | none => .error .malformed
  | some x =>
    match escape? x, escapeWidth? x with
    | some e, _ => .ok ([e], c.next)
    | none, some width =>
      let digits := c.next.rest.take width
      match if digits.length = width then hexNumber? digits else none with
      | some code => do pure ([← charOfCode code], c.next.skip width)
      | none => .error .malformed
    | none, none =>
      match c.takeBreak? with
      | some (_, c) => quotedBreaks size [] c
      | none => .error .malformed

def quotedFrom (size : Nat) (quote : Char) :
    Nat → List Char → Cursor → Except Fault (List Char × Cursor)
  | 0, _, _ => .error .malformed
  | n + 1, acc, c =>
    match c.rest with
    | [] => .error .malformed
    | x :: rest =>
      if x == quote then
        if quote == '\x27' && rest.head? == some quote then
          quotedFrom size quote n (quote :: acc) (c.skip 2)
        else .ok (acc.reverse, c.next)
      else if quote == '\x22' && x == '\\' then do
        let (text, c) ← quotedEscape size c.next
        quotedFrom size quote n (text.reverse ++ acc) c
      else if isGap x then do
        let (text, c) ← quotedGap size c
        quotedFrom size quote n (text.reverse ++ acc) c
      else quotedFrom size quote n (x :: acc) c.next

def quotedScalar (size : Nat) (c : Cursor) : Except Fault (List Char × Cursor) :=
  match c.peek? with
  | some quote => quotedFrom size quote (size + 1) [] c.next
  | none => .error .malformed

end DesignLint.Yaml
