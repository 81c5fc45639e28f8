import DesignLint.Text.Line
import DesignLint.Text.Order

/-! Paths as lists of names. Reading a path drops empty names and single dots but keeps `..`, which
only resolving against a directory removes. No name is a symbolic link, so `..` takes back the name
before it, and resolving needs no look at the files. -/

namespace DesignLint

/-- Where a path starts. Exactly two slashes at the start are kept apart from one. -/
inductive Anchor
  | relative
  | root
  | doubleRoot
  deriving Repr, DecidableEq

structure Path where
  anchor : Anchor
  parts : List String
  deriving Repr, DecidableEq

def Anchor.ofSlashes : Nat → Anchor
  | 0 => .relative
  | 2 => .doubleRoot
  | _ => .root

namespace Path

def ofString (s : String) : Path where
  anchor := Anchor.ofSlashes (s.toList.takeWhile (· == '/')).length
  parts := ((s.toList.splitOn '/').map String.ofList).filter fun p => p != "" && p != "."

protected def toString (p : Path) : String :=
  let names := "/".intercalate p.parts
  match p.anchor with
  | .relative => if p.parts.isEmpty then "." else names
  | .root => "/" ++ names
  | .doubleRoot => "//" ++ names

def isAbsolute (p : Path) : Bool :=
  p.anchor != .relative

/-- The path `q` seen from `p`; an absolute `q` stands for itself. -/
def join (p q : Path) : Path :=
  if q.isAbsolute then q else { p with parts := p.parts ++ q.parts }

def child (p : Path) (name : String) : Path :=
  { p with parts := p.parts ++ [name] }

def parent (p : Path) : Path :=
  { p with parts := p.parts.dropLast }

def name (p : Path) : String :=
  p.parts.getLast?.getD ""

/-- From the last dot of the name on, unless that dot is its first or its last character. -/
def suffix (p : Path) : String :=
  let s := p.name.toList
  let ext := (s.reverse.takeWhile (· != '.')).reverse
  let stem := s.length - ext.length
  if stem ≤ 1 || ext.isEmpty then "" else String.ofList ('.' :: ext)

def dropParents (parts : List String) : List String :=
  parts.foldl (fun acc p => if p == ".." then acc.dropLast else acc ++ [p]) []

/-- The absolute path, seen from the directory `cwd`, without `..`. -/
def resolve (cwd p : Path) : Path :=
  ⟨.root, dropParents (cwd.join p).parts⟩

/-- No name of a path may hold the character of code zero. -/
def isUsable (p : Path) : Bool :=
  p.parts.all fun name => !name.toList.contains '\x00'

def resolve? (cwd p : Path) : Option Path :=
  if (cwd.join p).isUsable then some (resolve cwd p) else none

def relativeTo? (p base : Path) : Option Path :=
  if p.anchor = base.anchor ∧ base.parts.isPrefixOf p.parts then
    some ⟨.relative, p.parts.drop base.parts.length⟩
  else none

def le (p q : Path) : Bool :=
  Text.lexLe Text.lt p.parts q.parts

/-- The part of a file name behind its last slash. -/
def label (s : String) : String :=
  String.ofList (s.toList.reverse.takeWhile (· != '/')).reverse

end Path

end DesignLint
