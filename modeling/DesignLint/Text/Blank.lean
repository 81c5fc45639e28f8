/-! Blank characters, and text with the blanks at its ends removed. -/

namespace DesignLint.Text

/-- The blank characters: the ASCII blanks with the four separators `001C` to `001F`, and the spaces
and line breaks of Unicode. -/
def isBlank (c : Char) : Bool :=
  let n := c.toNat
  (0x9 ≤ n && n ≤ 0xD) || (0x1C ≤ n && n ≤ 0x20) || n == 0x85 || n == 0xA0 || n == 0x1680
    || (0x2000 ≤ n && n ≤ 0x200A) || n == 0x2028 || n == 0x2029 || n == 0x202F || n == 0x205F
    || n == 0x3000

def trimStart (s : List Char) : List Char :=
  s.dropWhile isBlank

def trimEnd (s : List Char) : List Char :=
  (s.reverse.dropWhile isBlank).reverse

def trim (s : List Char) : List Char :=
  trimEnd (trimStart s)

def indent (s : List Char) : Nat :=
  (s.takeWhile isBlank).length

def fields (s : List Char) : List (List Char) :=
  go s []
where
  /-- Reads on from `s`, the current run being `run` in reverse. -/
  go : List Char → List Char → List (List Char)
    | [], run => emit run
    | c :: s, run => if isBlank c then emit run ++ go s [] else go s (c :: run)
  emit (run : List Char) : List (List Char) :=
    if run.isEmpty then [] else [run.reverse]

end DesignLint.Text
