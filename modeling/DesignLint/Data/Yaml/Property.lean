import DesignLint.Data.Yaml.Quoted

/-! What stands before a node or a document: anchors, tags, and directives. -/

namespace DesignLint.Yaml

/-- The name of a tag: a handle, if it has one, and what the handle is put before. -/
structure TagName where
  handle : Option String
  suffix : String
  deriving Repr, DecidableEq

inductive Directive
  | version (major : Nat)
  | handle (handle expansion : String)
  /-- A directive that is passed over. -/
  | other
  deriving Repr, DecidableEq

def atSpace (c : Cursor) : Bool :=
  c.meets fun x => x == ' ' || isBreak x

def anchorName (c : Cursor) : Except Fault (String × Cursor) :=
  let (name, c) := c.takeWhile isNameChar
  if name.isEmpty || !c.meets (fun x => isGap x || "?:,]\x7d%@\x60".toList.contains x) then
    .error .malformed
  else .ok (String.ofList name, c)

def isTagChar (c : Char) : Bool :=
  isNameChar c || ";/?:@&=+$,.!~*\x27()[]".toList.contains c

def escapedBytes : Nat → List UInt8 → Cursor → Except Fault (List UInt8 × Cursor)
  | 0, _, _ => .error .malformed
  | n + 1, acc, c =>
    if c.sees '%' then
      let digits := c.next.rest.take 2
      match if digits.length = 2 then hexNumber? digits else none with
      | some code => escapedBytes n (UInt8.ofNat code :: acc) (c.skip 3)
      | none => .error .malformed
    else .ok (acc.reverse, c)

/-- Reads the text of a tag's name, in which bytes may be escaped; `acc` holds the pieces before, the last
first. -/
def tagText (size : Nat) : Nat → List (List Char) → Cursor → Except Fault (List Char × Cursor)
  | 0, _, _ => .error .malformed
  | n + 1, acc, c => do
    let (plain, c) := c.takeWhile isTagChar
    let acc := plain :: acc
    if c.sees '%' then
      let (bytes, c) ← escapedBytes size [] c
      match String.fromUTF8? ⟨bytes.toArray⟩ with
      | some s => tagText size n (s.toList :: acc) c
      | none => throw .malformed
    else if acc.all (·.isEmpty) then throw .malformed
    else pure (acc.reverse.flatten, c)

/-- Reads a handle: a name between exclamation marks, or one such mark before a space. -/
def tagHandle (c : Cursor) : Except Fault (String × Cursor) :=
  if !c.sees '!' then .error .malformed
  else if c.next.sees ' ' then .ok ("!", c.next)
  else
    let (name, behind) := c.next.takeWhile isNameChar
    if behind.sees '!' then .ok (String.ofList ('!' :: name ++ ['!']), behind.next)
    else .error .malformed

def tagName (size : Nat) (c : Cursor) : Except Fault (TagName × Cursor) := do
  let (tag, c) : TagName × Cursor ←
    if c.next.sees '<' then do
      let (suffix, c) ← tagText size size [] (c.skip 2)
      if c.sees '>' then pure (⟨none, String.ofList suffix⟩, c.next) else throw .malformed
    else if c.next.meets isGap then pure (⟨none, "!"⟩, c.next)
    else do
      let word := c.next.rest.takeWhile fun x => !(x == ' ' || isBreak x)
      let (handle, c) ← if word.contains '!' then tagHandle c else pure ("!", c.next)
      let (suffix, c) ← tagText size size [] c
      pure (⟨some handle, String.ofList suffix⟩, c)
  if atSpace c then pure (tag, c) else throw .malformed

def versionNumber (c : Cursor) : Except Fault (Nat × Cursor) :=
  let (digits, c) := c.takeWhile Char.isDigit
  if digits.isEmpty then .error .malformed
  else if Json.maxDigits < digits.length then .error .noValue
  else .ok (Json.digitsValue digits, c)

def version (c : Cursor) : Except Fault (Directive × Cursor) := do
  let (major, c) ← versionNumber c.skipSpaces
  if !c.sees '.' then throw .malformed
  let (_, c) ← versionNumber c.next
  if atSpace c then pure (.version major, c) else throw .malformed

def handleExpansion (size : Nat) (c : Cursor) : Except Fault (Directive × Cursor) := do
  let (handle, c) ← tagHandle c.skipSpaces
  if !c.sees ' ' then throw .malformed
  let (expansion, c) ← tagText size size [] c.skipSpaces
  if atSpace c then pure (.handle handle (String.ofList expansion), c) else throw .malformed

def directive (size : Nat) (c : Cursor) : Except Fault (Directive × Cursor) := do
  let (name, c) := c.next.takeWhile isNameChar
  if name.isEmpty || !atSpace c then throw .malformed
  let (d, c) ←
    match String.ofList name with
    | "YAML" => version c
    | "TAG" => handleExpansion size c
    | _ => pure (.other, c.skipWhile (!isBreak ·))
  let c ← c.skipLine
  pure (d, c)

end DesignLint.Yaml
