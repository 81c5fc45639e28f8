import DesignLint.Data.Assoc
import DesignLint.File.Path
import DesignLint.Scan.Finding

/-! The outside scanner: the command that starts it, and its findings by file. A finding's path is
seen from the directory in which the scanner runs. -/

namespace DesignLint

structure Scanner where
  program : String
  rules : String
  /-- The directory in which the scanner runs. -/
  cwd : Path
  /-- How deep the values of a report may nest. -/
  depth : Nat := Json.usualDepth
  deriving Repr

namespace Scanner

def command (s : Scanner) (target : String) : List String :=
  [s.program, "--config", s.rules, "--json", "--metrics=off", "--disable-version-check", "--oss-only",
    "--no-git-ignore", "-j", "1", target]

/-- Why nothing can have this name, if that is so. A character of code zero is only come upon in a name
that can be encoded. -/
def nameFault? (name : List Glyph) : Option Malformed :=
  if !name.all Glyph.isEncodable then some .unencodable
  else if name.contains (.char '\x00') then some .badPath
  else none

/-- A byte that is no text, behind the character of code zero: no other name has that one. -/
def nameChars : Glyph → List Char
  | .char c => [c]
  | .lone s => ['\x00', Char.ofNat (s.code - 0xDC00)]

/-- The absolute path of a file whose name is a broken text. The names on the way are come upon one after
the other, those of the scanner's directory first. -/
def brokenFile (s : Scanner) (t : BrokenText) : Except Malformed String :=
  let p := Path.ofString (String.ofList (t.glyphs.flatMap nameChars))
  if !p.isAbsolute && !s.cwd.isUsable then .error .badPath
  else
    match (t.glyphs.splitOn (.char '/')).findSome? nameFault? with
    | some m => .error m
    | none => .ok (Path.resolve s.cwd p).toString

def fileOf (s : Scanner) (f : Finding) : Except Malformed String :=
  match f.path with
  | .str (.proper p) =>
    match Path.resolve? s.cwd (.ofString p) with
    | some file => .ok file.toString
    | none => .error .badPath
  | .str (.broken t) => s.brokenFile t
  | _ => .error .pathNotText

def located (s : Scanner) (r : ScanReport) : Except Malformed (List (String × Finding)) :=
  r.findings.mapM fun f => do pure (← s.fileOf f, f)

def findingsFor (s : Scanner) (r : ScanReport) (file : String) : Except Malformed (List Finding) :=
  (s.located r).map fun found => (found.filter (·.1 == file)).map (·.2)

/-- The findings by file, in the order in which the files first occur. -/
def findingsByFile (s : Scanner) (r : ScanReport) :
    Except Malformed (List (String × List Finding)) :=
  (s.located r).map fun found =>
    (Assoc.groupBy (·.1) found).map fun g => (g.1, g.2.map (·.2))

def report (s : Scanner) (outcome : Except String ProcessOutput) : Except ScanFault ScanReport :=
  match outcome with
  | .ok output => ScanReport.ofOutput s.depth output
  | .error reason => .error (.failed (.launch reason))

end Scanner

end DesignLint
