import DesignLint.Indented.Patterns
import DesignLint.Source.Span

/-! The body of a method in an indentation-delimited source, and the bodies that are stubs. -/

namespace DesignLint.Indented

open Pattern

/-- A statement behind the signature on its last line: a closing parenthesis, perhaps a result type, a
colon, and text that is no comment. -/
def inlineStatement : Pattern (Char × Taken) := do
  char ')'
  blanks
  let _ ← Pattern.optional (do text "->"; blanks; let _ ← many1 (· != ':'))
  char ':'
  blanks
  let c ← one fun c => c != '#' && !Text.isBlank c
  let rest ← many (· != '\n')
  atEnd
  pure (c, rest)

def statements (lines : List Line) : List (List Char) :=
  (lines.map Text.trim).filter fun s => !s.isEmpty && s.head? != some '#'

/-- The body of the method whose signature ends at line `headerEnd` and which itself ends at line
`last`. There is none when the signature lies outside the source. -/
def body? (lines : List Line) (headerEnd last : Int) : Option (List Char) :=
  (Source.at? lines headerEnd).map fun header =>
    let inline := (inlineStatement.search? header).map fun (c, rest) => Text.trim (c :: rest.chars)
    ['\n'].intercalate
      (inline.toList ++ statements (Source.slice lines (headerEnd + 1) (last + 1)))

def stubKind? (body : List Char) : Option StubKind :=
  if body = "pass".toList ∨ body = "...".toList then some .empty
  else if Text.contains "raise NotImplemented".toList body then some .notImplemented
  else none

def stubCode (name : String) : StubKind → String
  | .empty => "def " ++ name ++ "(...): pass"
  | .notImplemented => "def " ++ name ++ "(...): raise NotImplementedError"

end DesignLint.Indented
