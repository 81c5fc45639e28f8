import DesignLint.File.Ignore
import DesignLint.File.Tree
import DesignLint.Text.Case

/-! The source files below a directory: files with the right suffix that no pattern leaves out. The
patterns of ignore files count in the directory itself and in all above it. -/

namespace DesignLint.Discovery

def ignoreFile : String := ".gitignore"

/-- The patterns in the text of an ignore file: its lines, less comments and exceptions. -/
def patternsOf (text : String) : List String :=
  let lines := (text.toList.splitOn '\n').map Text.trim
  (lines.filter fun s => !s.isEmpty && s.head? != some '#' && s.head? != some '!').map String.ofList

def rulesOf (t : FileTree) (directory : Path) : Except FileError (List IgnoreRule) := do
  let file := directory.child ignoreFile
  if ← t.isFile file then
    let text ← t.readText file
    pure ((patternsOf text).map fun p => ⟨p, directory⟩)
  else pure []

/-- The directory and the directories above it, as far as the path names them. -/
def upwards (directory : Path) : List Path :=
  (List.range directory.parts.length).map fun k =>
    { directory with parts := directory.parts.take (directory.parts.length - k) }

def rules (t : FileTree) (directory : Path) : Except FileError (List IgnoreRule) := do
  let rules ← (upwards directory).mapM (rulesOf t)
  pure rules.flatten

def sourceFiles (t : FileTree) (directory : Path) (suffixes ignored : List String) :
    Except FileError (List Path) := do
  let root ← t.resolve directory
  let suffixes := suffixes.map Text.lower
  let rules ← rules t root
  pure ((t.filesBelow root).filter fun p =>
    suffixes.contains (Text.lower p.suffix) && !Ignore.isIgnored p root ignored rules)

end DesignLint.Discovery
