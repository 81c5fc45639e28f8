import DesignLint.Text.Line

/-! Quoted literals. Before brackets are counted every closed literal is emptied, so that brackets
inside it do not count. -/

namespace DesignLint.Source

def isQuote (c : Char) : Bool :=
  c == '\x27' || c == '\x22' || c == '\x60'

/-- The number of characters up to the closing quote `q`, which is counted too. A backslash takes the
next character with it, but no line break. -/
def literalSize? (q : Char) : List Char → Option Nat
  | [] => none
  | '\\' :: d :: s => if d = '\n' then none else (literalSize? q s).map (· + 2)
  | c :: s =>
    if c = q then some 1 else if c = '\\' then none else (literalSize? q s).map (· + 1)

/-- The text with every closed literal emptied; a quote that never closes stays as it is. -/
def emptyLiterals (s : List Char) : List Char :=
  go 0 s
where
  /-- Reads on; the next `skip` characters belong to a literal that was emptied. -/
  go : Nat → List Char → List Char
    | _, [] => []
    | skip + 1, _ :: s => go skip s
    | 0, c :: s =>
      match if isQuote c then literalSize? c s else none with
      | some n => c :: c :: go n s
      | none => c :: go 0 s

/-- Opening less closing parentheses outside literals. -/
def parenBalance (s : List Char) : Int :=
  let t := emptyLiterals s
  (t.count '(' : Int) - (t.count ')' : Int)

end DesignLint.Source
