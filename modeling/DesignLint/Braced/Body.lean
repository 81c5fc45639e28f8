import DesignLint.Braced.Patterns
import DesignLint.Source.Span

/-! The body of a method in a brace-delimited source, and the bodies that are stubs. -/

namespace DesignLint.Braced

open Pattern

def insideBraces (s : List Char) : List Char :=
  match s.dropWhile (· != '\x7b') with
  | [] => []
  | _ :: inner =>
    if inner.contains '\x7d' then
      ((inner.reverse.dropWhile (· != '\x7d')).drop 1).reverse
    else inner

/-- The body of the method from line `first` to line `last`: what stands between its braces, all
braces and comment lines left out, on one line with single spaces. -/
def body (lines : List Line) (first last : Int) : List Char :=
  let rows := (Source.slice lines first (last + 1)).map Text.trim
  let kept := rows.filter fun s => !"//".toList.isPrefixOf s
  let inner := insideBraces ([' '].intercalate kept)
  [' '].intercalate
    (Text.fields (inner.map fun c => if c == '\x7b' || c == '\x7d' then ' ' else c))

def ownCall (name : String) : Pattern Unit := do
  text name
  blanks
  char '('
  let _ ← many (· != ')')
  char ')'
  blanks
  let _ ← Pattern.optional (char ';')
  pure ()

def throwsError : Pattern Unit := do
  text "throw"
  blanks1
  text "new"
  blanks1
  let _ ← many Text.isWord
  text "Error"
  blanks
  char '('

def saysMissing : Pattern Unit := do
  textIgnoringCase "not"
  blanks
  textIgnoringCase "implemented"

/-- A body that does nothing, or that only says that it is missing. -/
def stubKind? (name : String) (body : List Char) : Option StubKind :=
  if body.isEmpty || (ownCall name).acceptsAll body then some .empty
  else if (throwsError.search? body).isSome && (saysMissing.search? body).isSome then
    some .notImplemented
  else none

def stubCode (name : String) : StubKind → String
  | .empty => name ++ "() \x7b \x7d"
  | .notImplemented => name ++ "() \x7b throw new Error(...) \x7d"

end DesignLint.Braced
