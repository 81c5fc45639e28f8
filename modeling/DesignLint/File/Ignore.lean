import DesignLint.File.Glob
import DesignLint.File.Path

/-! Patterns of files to leave out. A pattern with a slash is read from its directory on; a pattern
without one names any part of the path. Whatever lies below a match is left out too. -/

namespace DesignLint

structure IgnoreRule where
  pattern : String
  base : Path
  deriving Repr, DecidableEq

namespace Ignore

/-- A pattern without the slashes around it and without one leading `**/`, and whether it is read
from its directory on. -/
structure Form where
  anchored : Bool
  body : List Char
  deriving Repr, DecidableEq

def trimSlashes (s : List Char) : List Char :=
  ((s.dropWhile (· == '/')).reverse.dropWhile (· == '/')).reverse

/-- Reads a pattern; a backslash counts as a slash. -/
def form (pattern : String) : Form :=
  let s := (Text.trim pattern.toList).map fun c => if c == '\\' then '/' else c
  let body := trimSlashes s
  if "**/".toList.isPrefixOf body then ⟨false, body.drop 3⟩
  else ⟨s.head? == some '/', body⟩

def Form.holds (f : Form) (path : List Char) : Bool :=
  if f.body.isEmpty then false
  else if f.anchored || f.body.contains '/' then
    Glob.admits f.body path || Glob.admits (f.body ++ ['/', '*']) path
  else (path.splitOn '/').any fun name => Glob.admits f.body name

def matchesPattern (path : Path) (pattern : String) (base : Path) : Bool :=
  match path.relativeTo? base with
  | some below => (form pattern).holds below.toString.toList
  | none => false

/-- Is the path left out, by a pattern of `root` or by a rule of some directory? -/
def isIgnored (path root : Path) (patterns : List String) (rules : List IgnoreRule) : Bool :=
  patterns.any (fun p => matchesPattern path p root)
    || rules.any fun r => matchesPattern path r.pattern r.base

end Ignore

end DesignLint
