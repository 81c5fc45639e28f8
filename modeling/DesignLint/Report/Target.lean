import DesignLint.File.Discovery
import DesignLint.Report.Check

/-! Checks of files and directories. -/

namespace DesignLint

inductive TargetError
  | noFile (path : String)
  | noDirectory (path : String)
  | file (e : FileError)
  deriving Repr, DecidableEq

namespace Check

def file (t : FileTree) (s : Settings) (path : Path) (asked : List String) :
    Except FileError CheckReport := do
  let content ← t.readText path
  pure (text s path.toString content none asked)

def covered (t : FileTree) (s : Settings) (directory : Path) : Except FileError (List Path) :=
  Discovery.sourceFiles t directory (Language.suffixesOf s.languages) s.ignoredPatterns

def namedFile (t : FileTree) (s : Settings) (name : String) : Except TargetError CheckReport :=
  let path := Path.ofString name
  match t.has path with
  | .ok true => (file t s path []).mapError .file
  | .ok false => .error (.noFile name)
  | .error e => .error (.file e)

def directoryFiles (t : FileTree) (s : Settings) (name : String) :
    Except TargetError (List Path) :=
  let path := Path.ofString name
  match t.has path with
  | .ok true => (covered t s path).mapError .file
  | .ok false => .error (.noDirectory name)
  | .error e => .error (.file e)

def directory (t : FileTree) (s : Settings) (name : String) :
    Except TargetError (List CheckReport) := do
  let files ← directoryFiles t s name
  (files.mapM fun p => file t s p []).mapError .file

end Check

namespace TargetError

/-- The message about a name that leads nowhere. -/
def message? : TargetError → Option String
  | .noFile path => some ("File not found: " ++ path)
  | .noDirectory path => some ("Directory not found: " ++ path)
  | .file _ => none

end TargetError

namespace SourceModel

/-- The model of a file. A name of a language that is not empty wins over what the path tells. -/
def ofFile (t : FileTree) (name : String) (languageName : Option String) :
    Except FileError SourceModel := do
  let content ← t.readText (.ofString name)
  pure (ofText content (Check.languageOf name languageName))

end SourceModel

end DesignLint
