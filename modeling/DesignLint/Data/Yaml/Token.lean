import DesignLint.Data.Yaml.Block
import DesignLint.Data.Yaml.Plain
import DesignLint.Data.Yaml.Property

/-! The tokens of a YAML text. Indentation becomes tokens too: a block opens where a line is indented
further and ends where one is indented less.

Whether something is a key shows only at the colon behind it. Until then its place is remembered, and the
token that says so is put in front of it afterwards. -/

namespace DesignLint.Yaml

inductive Token
  | directive (d : Directive)
  | documentStart
  | documentEnd
  | blockSequence
  | blockMapping
  | blockEnd
  | flowSequence
  | flowSequenceEnd
  | flowMapping
  | flowMappingEnd
  | flowEntry
  | blockEntry
  | key
  | value
  | alias (name : String)
  | anchor (name : String)
  | tag (name : TagName)
  | scalar (text : List Char) (plain : Bool)
  | textEnd
  /-- The text cannot be read any further. -/
  | broken (f : Fault)
  deriving Repr, DecidableEq

/-- A token with those that were put in front of it afterwards. -/
structure Slot where
  before : List Token := []
  token : Token

/-- The place of a token that may turn out to be a key. -/
structure KeyMark where
  /-- How many tokens stand before the token. -/
  slot : Nat
  /-- The block is indented as far as the token, so that nothing but a key can stand there. -/
  required : Bool
  index : Nat
  line : Nat
  column : Nat

structure Lexer where
  cursor : Cursor
  /-- The length of the text, which bounds every loop over it. -/
  size : Nat
  /-- The tokens so far, the last one first. -/
  slots : List Slot := []
  /-- How many there are. -/
  count : Nat := 0
  flowDepth : Nat := 0
  /-- The indentation of the innermost block; -1 outside all blocks. -/
  indent : Int := -1
  /-- The indentations of the blocks around it. -/
  outer : List Int := []
  /-- May a key start here? -/
  keyAllowed : Bool := true
  /-- The tokens that may turn out to be keys, one at most for each depth of flow. -/
  keys : List (Nat × KeyMark) := []

namespace Lexer

def inFlow (l : Lexer) : Bool :=
  0 < l.flowDepth

def push (l : Lexer) (t : Token) : Lexer :=
  { l with slots := { token := t } :: l.slots, count := l.count + 1 }

def pushMark (l : Lexer) (width : Nat) (t : Token) : Lexer :=
  { l.push t with cursor := l.cursor.skip width }

def insert (l : Lexer) (slot : Nat) (ts : List Token) : Lexer :=
  { l with slots := l.slots.modify (l.count - 1 - slot) fun s => { s with before := ts ++ s.before } }

def tokens (l : Lexer) : List Token :=
  l.slots.foldl (fun ts s => s.before ++ s.token :: ts) []

/-- Passes spaces, comments and line breaks. Behind a line break outside flows a key may start. -/
def skipGap : Nat → Lexer → Lexer
  | 0, l => l
  | n + 1, l =>
    let c := l.cursor.skipSpaces.skipComment
    match c.takeBreak? with
    | some (_, c) => skipGap n { l with cursor := c, keyAllowed := l.keyAllowed || !l.inFlow }
    | none => { l with cursor := c }

def maxKey : Nat := 1024

/-- A key must stand on one line with its colon and be short. -/
def isStale (l : Lexer) (k : KeyMark) : Bool :=
  k.line != l.cursor.line || maxKey < l.cursor.index - k.index

def dropStale (l : Lexer) : Except Fault Lexer :=
  if l.keys.any fun k => l.isStale k.2 && k.2.required then .error .malformed
  else .ok { l with keys := l.keys.filter fun k => !l.isStale k.2 }

def dropKey (l : Lexer) : Except Fault Lexer :=
  match l.keys.lookup l.flowDepth with
  | none => .ok l
  | some k =>
    if k.required then .error .malformed
    else .ok { l with keys := l.keys.filter (·.1 != l.flowDepth) }

def markKey (l : Lexer) : Except Fault Lexer :=
  if l.keyAllowed then do
    let l ← l.dropKey
    let k : KeyMark := {
      slot := l.count
      required := !l.inFlow && l.indent == l.cursor.column
      index := l.cursor.index
      line := l.cursor.line
      column := l.cursor.column }
    pure { l with keys := (l.flowDepth, k) :: l.keys }
  else .ok l

/-- Ends the blocks that are indented further than a column. Flows know no indentation. -/
def unwind (l : Lexer) (column : Int) : Lexer :=
  if l.inFlow then l
  else
    let indents := l.indent :: l.outer
    let ended := indents.takeWhile (column < ·)
    match indents.drop ended.length with
    | indent :: outer =>
      { ended.foldl (fun l _ => l.push .blockEnd) l with indent, outer }
    | [] => l

def opensBlock (l : Lexer) (column : Nat) : Bool :=
  !l.inFlow && l.indent < column

def openBlock (l : Lexer) (column : Nat) : Lexer :=
  { l with indent := column, outer := l.indent :: l.outer }

/-- Before a mark of a block, the token that starts the block, if this mark does. The mark may stand only
where a key may. -/
def beginBlock (l : Lexer) (start : Token) : Except Fault Lexer :=
  if l.inFlow then .ok l
  else if !l.keyAllowed then .error .malformed
  else if l.opensBlock l.cursor.column then .ok ((l.openBlock l.cursor.column).push start)
  else .ok l

def endBlocks (l : Lexer) : Except Fault Lexer := do
  let l ← (l.unwind (-1)).dropKey
  pure { l with keyAllowed := false }

def readEnd (l : Lexer) : Except Fault Lexer := do
  let l ← l.endBlocks
  pure (l.push .textEnd)

def readDirective (l : Lexer) : Except Fault Lexer := do
  let l ← l.endBlocks
  let (d, c) ← directive l.size l.cursor
  pure { l.push (.directive d) with cursor := c }

def readSeparator (l : Lexer) (t : Token) : Except Fault Lexer := do
  let l ← l.endBlocks
  pure (l.pushMark 3 t)

def readFlowStart (l : Lexer) (t : Token) : Except Fault Lexer := do
  let l ← l.markKey
  pure { l.pushMark 1 t with flowDepth := l.flowDepth + 1, keyAllowed := true }

def readFlowEnd (l : Lexer) (t : Token) : Except Fault Lexer := do
  if !l.inFlow then throw .malformed
  let l ← l.dropKey
  pure { l.pushMark 1 t with flowDepth := l.flowDepth - 1, keyAllowed := false }

def readFlowEntry (l : Lexer) : Except Fault Lexer := do
  let l ← l.dropKey
  pure { l.pushMark 1 .flowEntry with keyAllowed := true }

def readBlockEntry (l : Lexer) : Except Fault Lexer := do
  let l ← l.beginBlock .blockSequence
  let l ← l.dropKey
  pure { l.pushMark 1 .blockEntry with keyAllowed := true }

def readKey (l : Lexer) : Except Fault Lexer := do
  let l ← l.beginBlock .blockMapping
  let l ← l.dropKey
  pure { l.pushMark 1 .key with keyAllowed := !l.inFlow }

/-- Reads a colon: the token that was remembered is a key, or else a value without a short key starts. -/
def readValue (l : Lexer) : Except Fault Lexer :=
  match l.keys.lookup l.flowDepth with
  | some k =>
    let l := { l with keys := l.keys.filter (·.1 != l.flowDepth) }
    let opens := l.opensBlock k.column
    let l := l.insert k.slot (if opens then [.blockMapping, .key] else [.key])
    let l := if opens then l.openBlock k.column else l
    .ok { l.pushMark 1 .value with keyAllowed := false }
  | none => do
    let l ← l.beginBlock .blockMapping
    let l ← l.dropKey
    pure { l.pushMark 1 .value with keyAllowed := !l.inFlow }

def readPart (l : Lexer) (read : Cursor → Except Fault (Token × Cursor)) : Except Fault Lexer := do
  let l ← l.markKey
  let (t, c) ← read l.cursor
  pure { l.push t with cursor := c, keyAllowed := false }

def readPlain (l : Lexer) : Except Fault Lexer := do
  let l ← l.markKey
  let s := plainScalar l.inFlow (l.indent + 1) l.size l.cursor
  pure { l.push (.scalar s.text true) with cursor := s.next, keyAllowed := s.hasBreak }

def readBlockScalar (l : Lexer) : Except Fault Lexer := do
  let l ← l.dropKey
  let (text, c) ← blockScalar l.indent l.size l.cursor
  pure { l.push (.scalar text false) with cursor := c, keyAllowed := true }

/-- Is the mark at the cursor followed by a gap or by nothing? In flows two marks need none. -/
def isMark (l : Lexer) (freeInFlow : Bool) : Bool :=
  (freeInFlow && l.inFlow) || l.cursor.next.meets isGap

def readAt (l : Lexer) (x : Char) : Except Fault Lexer :=
  let atStart := l.cursor.column == 0
  if x == '%' && atStart then l.readDirective
  else if atStart && l.cursor.seesMark "---" then l.readSeparator .documentStart
  else if atStart && l.cursor.seesMark "..." then l.readSeparator .documentEnd
  else if x == '[' then l.readFlowStart .flowSequence
  else if x == '\x7b' then l.readFlowStart .flowMapping
  else if x == ']' then l.readFlowEnd .flowSequenceEnd
  else if x == '\x7d' then l.readFlowEnd .flowMappingEnd
  else if x == ',' then l.readFlowEntry
  else if x == '-' && l.isMark false then l.readBlockEntry
  else if x == '?' && l.isMark true then l.readKey
  else if x == ':' && l.isMark true then l.readValue
  else if x == '*' then l.readPart fun c => do
    let (name, c) ← anchorName c.next
    pure (.alias name, c)
  else if x == '&' then l.readPart fun c => do
    let (name, c) ← anchorName c.next
    pure (.anchor name, c)
  else if x == '!' then l.readPart fun c => do
    let (name, c) ← tagName l.size c
    pure (.tag name, c)
  else if (x == '|' || x == '>') && !l.inFlow then l.readBlockScalar
  else if x == '\x27' || x == '\x22' then l.readPart fun c => do
    let (text, c) ← quotedScalar l.size c
    pure (.scalar text false, c)
  else if startsPlain l.inFlow l.cursor.rest then l.readPlain
  else .error .malformed

def read (l : Lexer) : Except Fault Lexer := do
  let l ← (l.skipGap (l.size + 1)).dropStale
  let l := l.unwind l.cursor.column
  match l.cursor.peek? with
  | none => l.readEnd
  | some x => l.readAt x

def readAll : Nat → Lexer → List Token
  | 0, l => l.tokens
  | n + 1, l =>
    match l.read with
    | .error f => (l.push (.broken f)).tokens
    | .ok next =>
      if next.slots.head?.any (·.token == .textEnd) then next.tokens else readAll n next

end Lexer

/-- The tokens of a text, up to its end or to where it cannot be read any further. -/
def Token.ofText (text : String) : List Token :=
  let chars := text.toList
  let cursor : Cursor := { rest := chars }
  let cursor := if cursor.sees '\uFEFF' then cursor.next else cursor
  Lexer.readAll (chars.length + 2) { cursor, size := chars.length + 1 }

end DesignLint.Yaml
