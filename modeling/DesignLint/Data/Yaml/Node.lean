import DesignLint.Data.Yaml.Scalar
import DesignLint.Data.Yaml.Token

/-! The nodes of a YAML document, read from its tokens. A name given to a node stands for that node in all
that follows it. -/

namespace DesignLint.Yaml

inductive Node
  | scalar (tag : Tag) (text : List Char)
  | list (tag : Tag) (items : List Node)
  | map (tag : Tag) (entries : List (Node × Node))

namespace Node

def empty : Node := .scalar .null []

structure Known where
  tokens : List Token
  /-- The handles of tags and what they stand for. -/
  handles : List (String × String)
  /-- The nodes with names; those that are still being read have none yet. -/
  anchors : List (String × Option Node) := []

abbrev Reader := StateT Known (Except Fault)

def peek : Reader Token := do
  match (← get).tokens with
  | [] => throw .malformed
  | .broken f :: _ => throw f
  | t :: _ => pure t

def advance : Reader Unit :=
  modify fun k => { k with tokens := k.tokens.drop 1 }

def passes (t : Token) : Reader Bool := do
  if (← peek) == t then
    advance
    pure true
  else pure false

/-- The node that a name stands for. It cannot be one around the name. -/
def named (name : String) : Reader Node := do
  match (← get).anchors.lookup name with
  | some (some node) => pure node
  | some none => throw .noValue
  | none => throw .malformed

/-- Gives a name, which no other node may have, to the node that is read next. -/
def openAnchor (name : String) : Reader Unit := do
  if ((← get).anchors.lookup name).isSome then throw .malformed
  modify fun k => { k with anchors := (name, none) :: k.anchors }

def closeAnchor (name : String) (node : Node) : Reader Unit :=
  modify fun k => { k with anchors := (name, some node) :: k.anchors }

def fullName (t : TagName) : Reader String := do
  match t.handle with
  | none => pure t.suffix
  | some h =>
    match (← get).handles.lookup h with
    | some expansion => pure (expansion ++ t.suffix)
    | none => throw .malformed

def properties : Reader (Option String × Option String) := do
  match ← peek with
  | .anchor name =>
    advance
    match ← peek with
    | .tag t =>
      advance
      pure (some name, some (← fullName t))
    | _ => pure (some name, none)
  | .tag t =>
    advance
    match ← peek with
    | .anchor name =>
      advance
      pure (some name, some (← fullName t))
    | _ => pure (none, some (← fullName t))
  | _ => pure (none, none)

/-- The tag of a scalar: the one given, or what its form tells. A lone exclamation mark stands for what
the form tells, even of a quoted scalar. -/
def scalarTag (given : Option String) (text : List Char) (plain : Bool) : Tag :=
  match given with
  | some "!" => .ofPlain text
  | some name => .ofName name
  | none => if plain then .ofPlain text else .text

def collectionTag (given : Option String) (own : Tag) : Tag :=
  match given with
  | none | some "!" => own
  | some name => .ofName name

def enter : Nat → Reader Nat
  | 0 => throw .tooDeep
  | room + 1 => pure room

mutual

/-- Reads a node in which others may nest `room` deep. Blocks may stand only outside flows, and a list
without an indentation of its own only as part of a mapping. -/
def read : Nat → Nat → Bool → Bool → Reader Node
  | 0, _, _, _ => throw .malformed
  | fuel + 1, room, block, unindented => do
    match ← peek with
    | .alias name =>
      advance
      named name
    | _ =>
      let (name, tag) ← properties
      if let some name := name then openAnchor name
      let node ← readContent fuel room block unindented (name.isSome || tag.isSome) tag
      if let some name := name then closeAnchor name node
      pure node

/-- Reads a node behind its name and tag. With one of them it may be empty. -/
def readContent : Nat → Nat → Bool → Bool → Bool → Option String → Reader Node
  | 0, _, _, _, _, _ => throw .malformed
  | fuel + 1, room, block, unindented, mayBeEmpty, tag => do
    match ← peek, block, unindented with
    | .blockEntry, _, true =>
      let room ← enter room
      pure (.list (collectionTag tag .list) (← readUnindented fuel room []))
    | .scalar text plain, _, _ =>
      advance
      pure (.scalar (scalarTag tag text plain) text)
    | .flowSequence, _, _ =>
      advance
      let room ← enter room
      pure (.list (collectionTag tag .list) (← readFlowItems fuel room true []))
    | .flowMapping, _, _ =>
      advance
      let room ← enter room
      pure (.map (collectionTag tag .map) (← readFlowEntries fuel room true []))
    | .blockSequence, true, _ =>
      advance
      let room ← enter room
      pure (.list (collectionTag tag .list) (← readItems fuel room []))
    | .blockMapping, true, _ =>
      advance
      let room ← enter room
      pure (.map (collectionTag tag .map) (← readEntries fuel room []))
    | _, _, _ => if mayBeEmpty then pure (.scalar (scalarTag tag [] true) []) else throw .malformed

def readUnless : Nat → Nat → Bool → Bool → List Token → Reader Node
  | 0, _, _, _, _ => throw .malformed
  | fuel + 1, room, block, unindented, ends => do
    if ends.contains (← peek) then pure empty else read fuel room block unindented

def readItems : Nat → Nat → List Node → Reader (List Node)
  | 0, _, _ => throw .malformed
  | fuel + 1, room, acc => do
    if ← passes .blockEntry then
      let item ← readUnless fuel room true false [.blockEntry, .blockEnd]
      readItems fuel room (item :: acc)
    else if ← passes .blockEnd then pure acc.reverse
    else throw .malformed

def readUnindented : Nat → Nat → List Node → Reader (List Node)
  | 0, _, _ => throw .malformed
  | fuel + 1, room, acc => do
    if ← passes .blockEntry then
      let item ← readUnless fuel room true false [.blockEntry, .key, .value, .blockEnd]
      readUnindented fuel room (item :: acc)
    else pure acc.reverse

def readEntries : Nat → Nat → List (Node × Node) → Reader (List (Node × Node))
  | 0, _, _ => throw .malformed
  | fuel + 1, room, acc => do
    if ← passes .key then
      let key ← readUnless fuel room true true [.key, .value, .blockEnd]
      let value ←
        if ← passes .value then readUnless fuel room true true [.key, .value, .blockEnd]
        else pure empty
      readEntries fuel room ((key, value) :: acc)
    else if ← passes .blockEnd then pure acc.reverse
    else throw .malformed

def readFlowEntry : Nat → Nat → Token → Reader (Node × Node)
  | 0, _, _ => throw .malformed
  | fuel + 1, room, stop => do
    let key ← readUnless fuel room false false [.value, .flowEntry, stop]
    let value ←
      if ← passes .value then readUnless fuel room false false [.flowEntry, stop]
      else pure empty
    pure (key, value)

/-- Reads the items of a flow list, the first or a later one; `acc` holds those before, in reverse. An
item may be a mapping of one entry without braces. -/
def readFlowItems : Nat → Nat → Bool → List Node → Reader (List Node)
  | 0, _, _, _ => throw .malformed
  | fuel + 1, room, first, acc => do
    if ← passes .flowSequenceEnd then pure acc.reverse
    else if !first && !(← passes .flowEntry) then throw .malformed
    else if ← passes .key then
      let inner ← enter room
      let entry ← readFlowEntry fuel inner .flowSequenceEnd
      readFlowItems fuel room false (.map .map [entry] :: acc)
    else if ← passes .flowSequenceEnd then pure acc.reverse
    else
      let item ← read fuel room false false
      readFlowItems fuel room false (item :: acc)

/-- Reads the entries of a flow mapping, the first or a later one; `acc` holds those before, in reverse.
What is no key has no value. -/
def readFlowEntries : Nat → Nat → Bool → List (Node × Node) → Reader (List (Node × Node))
  | 0, _, _, _ => throw .malformed
  | fuel + 1, room, first, acc => do
    if ← passes .flowMappingEnd then pure acc.reverse
    else if !first && !(← passes .flowEntry) then throw .malformed
    else if ← passes .key then
      let entry ← readFlowEntry fuel room .flowMappingEnd
      readFlowEntries fuel room false (entry :: acc)
    else if ← passes .flowMappingEnd then pure acc.reverse
    else
      let key ← read fuel room false false
      readFlowEntries fuel room false ((key, empty) :: acc)

end

def defaultHandles : List (String × String) := [("!", "!"), ("!!", Tag.standard)]

/-- The handles that directives give, in front of those that need none. Only documents of the first
version are read. -/
def handlesOf : List Directive → Except Fault (List (String × String))
  | [] => .ok defaultHandles
  | .version major :: more => do
    let isVersion : Directive → Bool
      | .version _ => true
      | _ => false
    if major != 1 || more.any isVersion then throw .malformed
    handlesOf more
  | .handle handle expansion :: more => do
    let isSame : Directive → Bool
      | .handle h _ => h == handle
      | _ => false
    if more.any isSame then throw .malformed
    pure ((handle, expansion) :: (← handlesOf more))
  | .other :: more => handlesOf more

def takeDirectives : List Token → List Directive × List Token
  | .directive d :: tokens =>
    let (ds, rest) := takeDirectives tokens
    (d :: ds, rest)
  | tokens => ([], tokens)

def endsDocument : Token → Bool
  | .directive _ | .documentStart | .documentEnd | .textEnd => true
  | _ => false

/-- How deep nodes may nest in a settings file. As for reports, this is what the stack leaves to a reader
there, and a reader takes any limit. -/
def usualDepth : Nat := 488

/-- Reads the node of a document, in which others nest at most `depth` deep, and checks that no other
document follows. -/
def readDocument (depth : Nat) (explicit : Bool) (fuel : Nat) : Reader Node := do
  let node ← if explicit && endsDocument (← peek) then pure empty else read fuel depth true false
  modify fun k => { k with tokens := k.tokens.dropWhile (· == .documentEnd) }
  if (← peek) == .textEnd then pure node else throw .malformed

def ofTokens (depth : Nat) (tokens : List Token) : Except Fault (Option Node) := do
  match takeDirectives tokens with
  | ([], [.textEnd]) => pure none
  | ([], .documentStart :: rest) =>
    some <$> (readDocument depth true (4 * tokens.length)).run' ⟨rest, defaultHandles, []⟩
  | ([], tokens) =>
    some <$> (readDocument depth false (4 * tokens.length)).run' ⟨tokens, defaultHandles, []⟩
  | (directives, .documentStart :: rest) =>
    let handles ← handlesOf directives
    some <$> (readDocument depth true (4 * tokens.length)).run' ⟨rest, handles, []⟩
  | (_, .broken f :: _) => throw f
  | _ => throw .malformed

end Node

end DesignLint.Yaml
