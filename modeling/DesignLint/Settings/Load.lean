import DesignLint.Data.Yaml.Document
import DesignLint.Decimal.Shortest
import DesignLint.File.Tree
import DesignLint.Settings.Decode

/-! Settings from a file and from values that override it. A file that is missing or malformed leaves
the defaults; a document that is not a mapping is read as a list of pairs. -/

namespace DesignLint

inductive LoadError
  /-- The file cannot be read. -/
  | file (e : FileError)
  /-- An item of the document is not a pair. -/
  | notPairs
  /-- The document, or an item of it, has no items. -/
  | noItems
  /-- A name of a setting is not text, or cannot be a name at all. -/
  | badName
  /-- The document has the right form but no value. -/
  | document (f : Yaml.Fault)
  | invalid (errors : List SettingError)
  deriving Repr, DecidableEq

namespace Yaml.Datum

def keyText : Value → RawText
  | .str t => t
  | .int n => toString n
  | .bool b => if b then "true" else "false"
  | .float x => Decimal.text "nan" "inf" x
  | .moment text => text
  | _ => "null"

mutual

def toValue : Datum → Value
  | .scalar v => v
  | .list items => .list (toValues items)
  | .map entries => .object (toFields [] entries)

def toValues : List Datum → List Value
  | [] => []
  | d :: ds => toValue d :: toValues ds

def toFields (acc : List (RawText × Value)) : List (Value × Datum) → List (RawText × Value)
  | [] => acc
  | (key, d) :: entries => toFields (Assoc.set acc (keyText key) (toValue d)) entries

end

def isPresent : Datum → Bool
  | .scalar v => v.isPresent
  | .list items => !items.isEmpty
  | .map entries => !entries.isEmpty

/-- The two parts of a pair: a text of two characters, or a list or mapping with two items. The first of
them is to be a name, so it must be a scalar. -/
def pair? : Datum → Except LoadError (Value × Datum)
  | .scalar (.str t) =>
    match t.glyphs with
    | [a, b] => .ok (.str (.ofGlyphs [a]), .scalar (.str (.ofGlyphs [b])))
    | _ => .error .notPairs
  | .scalar _ => .error .noItems
  | .list [.scalar a, b] => .ok (a, b)
  | .list [_, _] => .error .badName
  | .map [(a, _), (b, _)] => .ok (a, .scalar b)
  | _ => .error .notPairs

def pairs? : Datum → Except LoadError (List (Value × Datum))
  | .map entries => .ok entries
  | .list items => items.mapM pair?
  | .scalar (.str _) => .error .notPairs
  | .scalar _ => .error .noItems

end Yaml.Datum

namespace Settings

def defaultFile : String := "solidlens.config.yaml"

def named? (pairs : List (Value × Yaml.Datum)) : Except LoadError (List (String × Value)) :=
  pairs.foldlM (fun acc p =>
    match p.1 with
    | .str (.proper name) => .ok (Assoc.set acc name p.2.toValue)
    | _ => .error .badName) []

def valuesOf (depth : Nat) (text : String) : Except LoadError (List (String × Value)) :=
  match Yaml.parse depth text with
  | .error .malformed => .ok []
  | .error f => .error (.document f)
  | .ok d => if d.isPresent then do named? (← d.pairs?) else .ok []

def fileValues (depth : Nat) (t : FileTree) (file : Option String) :
    Except LoadError (List (String × Value)) :=
  let file := Path.ofString (if file.any (· != "") then file.getD "" else defaultFile)
  match t.isFile file, t.readText file with
  | .error e, _ => .error (.file e)
  | .ok true, .ok text => valuesOf depth text
  | .ok true, .error .notText => .error (.file .notText)
  | _, _ => .ok []

/-- The settings of a file, with the values of `overrides` that are not null set over them. -/
def load (t : FileTree) (file : Option String) (overrides : List (String × Value))
    (depth : Nat := Yaml.Node.usualDepth) : Except LoadError Settings := do
  let values ← fileValues depth t file
  let given := overrides.filter fun o => match o.2 with | .null => false | _ => true
  match ofFields (Assoc.setAll values given) with
  | .ok s => pure s
  | .error errors => throw (.invalid errors)

def root (t : FileTree) (s : Settings) : Except FileError Path :=
  t.resolve (.ofString s.projectRoot)

def rules (root : Path) (s : Settings) : Path :=
  root.join (.ofString s.rulesPath)

/-- The scanner's program. A bare name is left to be looked up; anything else is seen from the
project's directory. -/
def scanner (root : Path) (s : Settings) : String :=
  if s.scannerPath == "semgrep" || (Path.ofString s.scannerPath).isAbsolute then s.scannerPath
  else (root.join (.ofString s.scannerPath)).toString

end Settings

end DesignLint
