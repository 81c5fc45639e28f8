import DesignLint.Data.Json.Reader
import DesignLint.Text.Blank
import DesignLint.Text.Digit

/-! Numbers written as text: signs, digits of every script, digits in groups with single underscores
between them, and decimal numbers with an exponent. -/

namespace DesignLint.Number

/-- The blanks that may stand around a number: all but the four separators `001C` to `001F`. -/
def isMargin (c : Char) : Bool :=
  Text.isBlank c && !(0x1C ≤ c.toNat && c.toNat ≤ 0x1F)

def trim (s : List Char) : List Char :=
  ((s.dropWhile isMargin).reverse.dropWhile isMargin).reverse

/-- Splits off a sign: whether it is a minus, and the rest. -/
def takeSign : List Char → Bool × List Char
  | '-' :: s => (true, s)
  | '+' :: s => (false, s)
  | s => (false, s)

def signed (negative : Bool) (n : Nat) : Int :=
  if negative then -(n : Int) else n

/-- The text without its underscores, each of which must stand between two other characters. -/
def dropUnderscores? (s : List Char) : Option (List Char) :=
  if (s.splitOn '_').all (!·.isEmpty) then some (s.filter (· != '_')) else none

def digits? (s : List Char) : Option Nat :=
  if s.isEmpty then none
  else s.foldl (fun n c => do pure (10 * (← n) + (← Text.digitValue? c))) (some 0)

/-- An integer with blanks around it: a sign and digits of any script in groups. -/
def int? (s : List Char) : Option Int := do
  let (negative, s) := takeSign (trim s)
  let s ← dropUnderscores? s
  if Json.maxDigits < s.length then none
  let n ← digits? s
  pure (signed negative n)

def decimal? (s : List Char) : Option Float :=
  let whole := s.takeWhile Char.isDigit
  let rest := s.drop whole.length
  let (frac, rest) :=
    match rest with
    | '.' :: t => (t.takeWhile Char.isDigit, t.dropWhile Char.isDigit)
    | t => ([], t)
  let (exponent, rest) := Json.readExponent rest
  if rest.isEmpty && !(whole ++ frac).isEmpty then
    some (Json.decimalFloat (whole ++ frac) (exponent.getD 0 - frac.length))
  else none

def float? (s : List Char) : Option Float :=
  let (negative, s) := takeSign s
  let name := String.ofList (s.map Char.toLower)
  let x :=
    if name == "inf" || name == "infinity" then some (1.0 / 0.0)
    else if name == "nan" then some (0.0 / 0.0)
    else decimal? s
  x.map fun x => if negative then -x else x

end DesignLint.Number
