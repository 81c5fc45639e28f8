import DesignLint.File.Path

/-! A tree of files in memory, with a current directory. A directory exists when it is on the way to
the current directory, was made, or holds a file. There are no symbolic links in it: every name leads to
one place, and no way through the tree runs in a circle. -/

namespace DesignLint

structure FileTree where
  cwd : Path
  /-- Names from the root on, and contents. -/
  files : List (List String × ByteArray) := []
  directories : List (List String) := []

inductive FileError
  | missing
  | isDirectory
  /-- A name on the way is not a directory. -/
  | notDirectory
  /-- The contents are not text. -/
  | notText
  /-- A name or the whole path has more bytes than are taken. -/
  | nameTooLong
  /-- The path cannot be used at all. -/
  | badPath
  deriving Repr, DecidableEq

inductive Entry
  | file (content : ByteArray)
  | directory
  | missing
  | notDirectory
  | nameTooLong
  | badPath

namespace FileTree

def maxName : Nat := 255

def maxPath : Nat := 4095

def content? (t : FileTree) (names : List String) : Option ByteArray :=
  t.files.lookup names

def hasDirectory (t : FileTree) (names : List String) : Bool :=
  names.isPrefixOf t.cwd.parts || t.directories.contains names
    || t.files.any fun f => names.isPrefixOf f.1 && names.length < f.1.length

def follow (t : FileTree) (place : List String) : List String → Entry
  | [] =>
    match t.content? place with
    | some content => .file content
    | none => if t.hasDirectory place then .directory else .missing
  | name :: names =>
    if t.hasDirectory place then
      if maxName < name.utf8ByteSize then .nameTooLong
      else follow t (if name == ".." then place.dropLast else place ++ [name]) names
    else if (t.content? place).isSome then .notDirectory
    else .missing

def find (t : FileTree) (p : Path) : Entry :=
  if !p.isUsable then .badPath
  else if maxPath < p.toString.utf8ByteSize then .nameTooLong
  else t.follow (if p.isAbsolute then [] else t.cwd.parts) p.parts

/-- Does the path lead to a file or directory? It must not be too long to ask. -/
def has (t : FileTree) (p : Path) : Except FileError Bool :=
  match t.find p with
  | .file _ | .directory => .ok true
  | .nameTooLong => .error .nameTooLong
  | _ => .ok false

def isFile (t : FileTree) (p : Path) : Except FileError Bool :=
  match t.find p with
  | .file _ => .ok true
  | .nameTooLong => .error .nameTooLong
  | _ => .ok false

def isDirectory (t : FileTree) (p : Path) : Except FileError Bool :=
  match t.find p with
  | .directory => .ok true
  | .nameTooLong => .error .nameTooLong
  | _ => .ok false

def resolve (t : FileTree) (p : Path) : Except FileError Path :=
  match Path.resolve? t.cwd p with
  | some p => .ok p
  | none => .error .badPath

def parents (names : List String) : List (List String) :=
  (List.range names.length).map names.take

def write (t : FileTree) (p : Path) (content : ByteArray) : FileTree :=
  let names := (Path.resolve t.cwd p).parts
  { t with
    files := t.files.filter (·.1 != names) ++ [(names, content)]
    directories := t.directories ++ (parents names).filter fun d => !t.directories.contains d }

/-- Deletes a file; the directories above it stay. -/
def delete (t : FileTree) (p : Path) : FileTree :=
  let names := (Path.resolve t.cwd p).parts
  { t with files := t.files.filter (·.1 != names) }

def normalizeBreaks : List Char → List Char
  | [] => []
  | '\r' :: '\n' :: s => '\n' :: normalizeBreaks s
  | '\r' :: s => '\n' :: normalizeBreaks s
  | c :: s => c :: normalizeBreaks s

def decode? (content : ByteArray) : Option String :=
  (String.fromUTF8? content).map fun s => String.ofList (normalizeBreaks s.toList)

def readText (t : FileTree) (p : Path) : Except FileError String :=
  match t.find p with
  | .file content =>
    match decode? content with
    | some s => .ok s
    | none => .error .notText
  | .directory => .error .isDirectory
  | .missing => .error .missing
  | .notDirectory => .error .notDirectory
  | .nameTooLong => .error .nameTooLong
  | .badPath => .error .badPath

def filesBelow (t : FileTree) (root : Path) : List Path :=
  let below := t.files.filter fun f =>
    root.parts.isPrefixOf f.1 && root.parts.length < f.1.length
  (below.map fun f => (⟨root.anchor, f.1⟩ : Path)).mergeSort Path.le

end FileTree

end DesignLint
