import DesignLint.Data.Yaml.Cursor

/-! Block scalars: lines that are kept as they are or folded, behind a header that says how. -/

namespace DesignLint.Yaml

/-- What becomes of the line breaks at the end of a block scalar. -/
inductive Chomping
  | strip
  | clip
  | keep
  deriving Repr, DecidableEq

structure BlockHeader where
  chomping : Chomping := .clip
  indent : Option Nat := none

def chomping? (c : Option Char) : Option Chomping :=
  match c with
  | some '+' => some .keep
  | some '-' => some .strip
  | _ => none

def blockIndent? (c : Option Char) : Option Nat :=
  match c with
  | some d => if d.isDigit then some (d.toNat - '0'.toNat) else none
  | none => none

/-- Reads the header of a block scalar behind its mark: a chomping and an indentation in any order. -/
def blockHeader (c : Cursor) : Except Fault (BlockHeader × Cursor) := do
  let (header, c) : BlockHeader × Cursor :=
    match chomping? c.peek? with
    | some chomping =>
      match blockIndent? c.next.peek? with
      | some n => (⟨chomping, some n⟩, c.skip 2)
      | none => (⟨chomping, none⟩, c.next)
    | none =>
      match blockIndent? c.peek? with
      | some n =>
        match chomping? c.next.peek? with
        | some chomping => (⟨chomping, some n⟩, c.skip 2)
        | none => (⟨.clip, some n⟩, c.next)
      | none => ({}, c)
  if header.indent == some 0 || !c.meets (fun x => x == ' ' || isBreak x) then throw .malformed
  let c ← c.skipLine
  pure (header, c)

/-- Passes blank lines in front of a block scalar whose indentation is not given: their line breaks, and
the most columns that their spaces, or those of the first line, take. -/
def blockStart : Nat → List Char → Nat → Cursor → List Char × Nat × Cursor
  | 0, acc, deepest, c => (acc.reverse, deepest, c)
  | n + 1, acc, deepest, c =>
    let c := c.skipSpaces
    let deepest := max deepest c.column
    match c.takeBreak? with
    | some (b, c) => blockStart n (b :: acc) deepest c
    | none => (acc.reverse, deepest, c)

def blockBreaks (indent : Nat) : Nat → List Char → Cursor → List Char × Cursor
  | 0, acc, c => (acc.reverse, c)
  | n + 1, acc, c =>
    let c := c.skipSpacesTo indent
    match c.takeBreak? with
    | some (b, c) => blockBreaks indent n (b :: acc) c
    | none => (acc.reverse, c)

/-- Reads the lines of a block scalar from a line on that has its indentation; `acc` holds the pieces
before, the last first. Gives the pieces, the last line break, the breaks of the blank lines behind it, and
the place behind all. -/
def blockLines (folded : Bool) (indent size : Nat) :
    Nat → List (List Char) → List Char → Cursor → List (List Char) × List Char × List Char × Cursor
  | 0, acc, breaks, c => (acc, [], breaks, c)
  | n + 1, acc, breaks, c =>
    if c.column == indent && !c.rest.isEmpty then
      let isText (c : Cursor) : Bool := c.peek?.any fun x => !isSpaceOrTab x
      let startsText := isText c
      let (line, c) := c.takeWhile (!isBreak ·)
      let acc := line :: breaks :: acc
      let (lineBreak, c) : List Char × Cursor :=
        match c.takeBreak? with
        | some (b, c) => ([b], c)
        | none => ([], c)
      let (breaks, c) := blockBreaks indent size [] c
      if c.column == indent && !c.rest.isEmpty then
        let joint :=
          if folded && lineBreak == ['\n'] && startsText && isText c then
            if breaks.isEmpty then [' '] else []
          else lineBreak
        blockLines folded indent size n (joint :: acc) breaks c
      else (acc, lineBreak, breaks, c)
    else (acc, [], breaks, c)

def blockScalar (parent : Int) (size : Nat) (c : Cursor) : Except Fault (List Char × Cursor) := do
  let folded := c.sees '>'
  let (header, c) ← blockHeader c.next
  let least := max 1 (parent + 1).toNat
  let (indent, breaks, c) : Nat × List Char × Cursor :=
    match header.indent with
    | some n =>
      let indent := least + n - 1
      let (breaks, c) := blockBreaks indent size [] c
      (indent, breaks, c)
    | none =>
      let (breaks, deepest, c) := blockStart size [] 0 c
      (max least deepest, breaks, c)
  let (pieces, lineBreak, breaks, c) := blockLines folded indent size size [] breaks c
  let tail :=
    match header.chomping with
    | .strip => []
    | .clip => lineBreak
    | .keep => lineBreak ++ breaks
  pure (pieces.reverse.flatten ++ tail, c)

end DesignLint.Yaml
