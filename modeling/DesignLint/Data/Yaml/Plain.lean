import DesignLint.Data.Yaml.Cursor

/-! Plain scalars: text without quotes. A plain scalar may run over several lines, and ends at a comment,
at a colon with a gap behind it, and in a flow at the marks of the flow. -/

namespace DesignLint.Yaml

/-- Characters with which something else than a plain scalar starts. -/
def indicators : List Char := [
  '-', '?', ':', ',', '[', ']', '\x7b', '\x7d', '#', '&', '*', '!', '|', '>', '\x27', '\x22', '%', '@',
  '\x60']

/-- May a plain scalar start here? Three of the indicators start one when no gap follows, two of them
outside flows only. -/
def startsPlain (flow : Bool) (s : List Char) : Bool :=
  match s with
  | [] => false
  | c :: rest =>
    (!isGap c && !indicators.contains c)
      || ((rest.head?.any fun d => !isGap d) && (c == '-' || (!flow && (c == '?' || c == ':'))))

def endsPlain (flow : Bool) (c : Char) (rest : List Char) : Bool :=
  isGap c || (c == ':' && (rest.head?.all fun d => isGap d || (flow && isFlowMark d)))
    || (flow && (isFlowMark c || c == '?'))

def plainRun (flow : Bool) : List Char → List Char
  | [] => []
  | c :: s => if endsPlain flow c s then [] else c :: plainRun flow s

/-- What stands between two runs of a plain scalar: what it becomes, the place behind it, and whether it
has a line break. If it becomes nothing the scalar ends. -/
structure PlainGap where
  text : List Char
  next : Cursor
  hasBreak : Bool

def moreBreaks : Nat → List Char → Cursor → Option (List Char) × Cursor
  | 0, acc, c => (some acc.reverse, c)
  | n + 1, acc, c =>
    let c := c.skipSpaces
    match c.takeBreak? with
    | none => (some acc.reverse, c)
    | some (b, c) => if c.seesSeparator then (none, c) else moreBreaks n (b :: acc) c

def plainGap (size : Nat) (c : Cursor) : PlainGap :=
  let (spaces, c) := c.takeWhile (· == ' ')
  match c.takeBreak? with
  | none => ⟨spaces, c, false⟩
  | some (b, c) =>
    if c.seesSeparator then ⟨[], c, true⟩
    else
      match moreBreaks size [] c with
      | (some more, c) => ⟨foldBreaks b more, c, true⟩
      | (none, c) => ⟨[], c, true⟩

structure PlainScalar where
  text : List Char
  next : Cursor
  hasBreak : Bool

/-- Reads on in a plain scalar whose lines start at column `indent` or behind it. What was read comes in
pieces, the last first; `gap` is the gap behind it. -/
def plainFrom (flow : Bool) (indent : Int) (size : Nat) :
    Nat → List (List Char) → PlainGap → PlainScalar
  | 0, pieces, gap => ⟨pieces.reverse.flatten, gap.next, gap.hasBreak⟩
  | n + 1, pieces, gap =>
    let run := if gap.next.sees '#' then [] else plainRun flow gap.next.rest
    if run.isEmpty then ⟨pieces.reverse.flatten, gap.next, gap.hasBreak⟩
    else
      let pieces := run :: gap.text :: pieces
      let gap := plainGap size (gap.next.skip run.length)
      if gap.text.isEmpty || gap.next.sees '#' || (!flow && gap.next.column < indent) then
        ⟨pieces.reverse.flatten, gap.next, gap.hasBreak⟩
      else plainFrom flow indent size n pieces gap

def plainScalar (flow : Bool) (indent : Int) (size : Nat) (c : Cursor) : PlainScalar :=
  plainFrom flow indent size size [] ⟨[], c, false⟩

end DesignLint.Yaml
