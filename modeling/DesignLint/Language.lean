import DesignLint.File.Path
import DesignLint.Text.Case

/-! The languages that can be checked, and how a file name tells its language. -/

namespace DesignLint

/-- How a language marks the extent of classes and methods. -/
inductive Family
  | indented
  | braced
  deriving Repr, DecidableEq

inductive Language
  | python
  | typescript
  | typescriptReact
  | javascript
  | javascriptReact
  deriving Repr, DecidableEq

namespace Language

def name : Language → String
  | .python => "python"
  | .typescript => "typescript"
  | .typescriptReact => "typescriptreact"
  | .javascript => "javascript"
  | .javascriptReact => "javascriptreact"

def family : Language → Family
  | .python => .indented
  | _ => .braced

def hasInterfaces : Language → Bool
  | .javascript | .javascriptReact => false
  | _ => true

def all : List Language :=
  [.python, .typescript, .typescriptReact, .javascript, .javascriptReact]

def ofName? (s : String) : Option Language :=
  all.find? fun l => l.name == Text.lower s

def suffixes : List (String × Language) := [
  (".py", .python), (".ts", .typescript), (".tsx", .typescriptReact), (".js", .javascript),
  (".mjs", .javascript), (".cjs", .javascript), (".jsx", .javascriptReact)]

def ofPath? (p : Path) : Option Language :=
  suffixes.lookup (Text.lower p.suffix)

def suffixesOf (names : List String) : List String :=
  let enabled := names.map Text.lower
  (suffixes.filter fun s => s.2.name ∈ enabled).map (·.1)

end Language

end DesignLint
