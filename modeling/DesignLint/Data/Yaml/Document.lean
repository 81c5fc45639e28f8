import DesignLint.Data.Yaml.Node
import DesignLint.Decimal.Amount

/-! Documents: the values of nodes. Merged entries come in front of a mapping's own, and of two entries
with one key the later counts. What is wrong with the values of a document is found level by level, each
from left to right. -/

namespace DesignLint.Yaml

/-- The value of a node. Keys need not be text, but they are scalars. -/
inductive Datum
  | scalar (v : Value)
  | list (items : List Datum)
  | map (entries : List (Value × Datum))

namespace Node

/-- The entries of a mapping with those that it merges, whose mappings nest at most so deep. -/
def flatten : Nat → List (Node × Node) → Except Fault (List (Node × Node))
  | 0, _ => .error .malformed
  | n + 1, entries => do
    let merged ← entries.filterMapM fun
      | (.scalar .merge _, .map _ inner) => some <$> flatten n inner
      | (.scalar .merge _, .list _ items) => do
        let inner ← items.mapM fun
          | .map _ inner => flatten n inner
          | _ => throw .malformed
        pure (some inner.reverse.flatten)
      | (.scalar .merge _, _) => throw .malformed
      | _ => pure none
    let own := entries.filterMap fun
      | (.scalar .merge _, _) => none
      | (.scalar .value text, v) => some (.scalar .text text, v)
      | e => some e
    pure (merged.flatten ++ own)

def checkKey : Node → Except Fault Unit
  | .scalar tag text => (scalarValue tag text).map fun _ => ()
  | _ => .error .malformed

/-- What is wrong with a node itself, whatever it holds. That a list or mapping is none by its form shows
only when it is looked into. -/
def check : Node → Except Fault Unit
  | .scalar .list _ | .scalar .map _ => .ok ()
  | .list .list _ | .list .map _ | .map .list _ | .map .map _ => .ok ()
  | node => checkKey node

def checkInside (depth : Nat) : Node → Except Fault (List Node)
  | .scalar .list _ | .scalar .map _ | .list .map _ | .map .list _ => .error .malformed
  | .scalar _ _ => .ok []
  | .list _ items => do
    items.forM check
    pure items
  | .map _ entries => do
    let entries ← flatten depth entries
    entries.forM fun (key, value) => do
      checkKey key
      check value
    pure (entries.map (·.2))

def checkLevels (depth : Nat) : Nat → List Node → Except Fault Unit
  | _, [] => .ok ()
  | 0, _ => .ok ()
  | n + 1, nodes => do
    let inner ← nodes.mapM (checkInside depth)
    checkLevels depth n inner.flatten

def checkAll (depth : Nat) (node : Node) : Except Fault Unit := do
  check node
  checkLevels depth (depth + 1) [node]

end Node

/-- Are two keys the same? Numbers are compared by value, and the booleans count as one and zero. -/
def sameKey (a b : Value) : Bool :=
  match number? a, number? b with
  | some x, some y => sameNumber x y
  | none, none =>
    match a, b with
    | .str s, .str t => s == t
    | .moment s, .moment t => s == t
    | .null, .null => true
    | _, _ => false
  | _, _ => false
where
  /-- The number that a key is. -/
  number? : Value → Option Amount
    | .bool b => some (.whole (if b then 1 else 0))
    | .int n => some (.whole n)
    | .float x => some (.real x)
    | _ => none
  sameNumber : Amount → Amount → Bool
    | .whole m, .whole n => m == n
    | .real x, .real y => x == y || (x.isNaN && y.isNaN)
    | .whole n, .real x | .real x, .whole n =>
      match Decimal.Binary.ofFloat x with
      | .finite negative m e => Decimal.isIntegral m e && Decimal.truncate negative m e == n
      | _ => false

namespace Datum

/-- Sets an entry. A key that is there keeps its place and takes the new value. -/
def setEntry (entries : List (Value × Datum)) (key : Value) (d : Datum) : List (Value × Datum) :=
  if entries.any (sameKey ·.1 key) then
    entries.map fun e => if sameKey e.1 key then (e.1, d) else e
  else entries ++ [(key, d)]

def scalarOf (tag : Tag) (text : List Char) : Value :=
  match scalarValue tag text with
  | .ok v => v
  | .error _ => .null

def keyOf : Node → Value
  | .scalar tag text => scalarOf tag text
  | _ => .null

/-- The value of a node that was checked, in which others nest at most so deep; those that it merges nest
at most `depth` deep. -/
def ofNode (depth : Nat) : Nat → Node → Datum
  | _, .scalar tag text => .scalar (scalarOf tag text)
  | 0, _ => .scalar .null
  | n + 1, .list _ items => .list (items.map (ofNode depth n))
  | n + 1, .map _ entries =>
    let entries :=
      match Node.flatten depth entries with
      | .ok entries => entries
      | .error _ => []
    .map (entries.foldl (fun acc e => setEntry acc (keyOf e.1) (ofNode depth n e.2)) [])

end Datum

/-- The value of the document in a text. A text without a document is null. -/
def parse (depth : Nat) (text : String) : Except Fault Datum := do
  if !text.toList.all isPrintable then throw .malformed
  match ← Node.ofTokens depth (Token.ofText text) with
  | none => pure (.scalar .null)
  | some node =>
    node.checkAll depth
    pure (Datum.ofNode depth (depth + 1) node)

end DesignLint.Yaml
