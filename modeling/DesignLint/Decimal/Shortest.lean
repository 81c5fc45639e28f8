import DesignLint.Decimal.Binary

/-! The fewest decimal digits that read back as the same double, and of those the nearest to its
value. -/

namespace DesignLint.Decimal

/-- Everything strictly between two fractions over one denominator rounds to one double; the ends do
too when they are included. -/
structure Interval where
  low : Nat
  high : Nat
  den : Nat
  includesEnds : Bool
  deriving Repr

def Interval.holds (i : Interval) (num den : Nat) : Bool :=
  let a := num * i.den
  let low := i.low * den
  let high := i.high * den
  if i.includesEnds then low ≤ a && a ≤ high else low < a && a < high

/-- The interval of the double `mantissa * 2 ^ exponent`. It reaches half way to both neighbours; the
lower one is nearer below a power of two. -/
def Interval.ofBinary (mantissa : Nat) (exponent : Int) : Interval :=
  let (num, den) := fraction 1 exponent
  let lowerIsNear := mantissa == Nat.pow 2 52 && exponent != -1074
  let low := if lowerIsNear then 4 * mantissa - 1 else 4 * mantissa - 2
  ⟨low * num, (4 * mantissa + 2) * num, 4 * den, mantissa % 2 == 0⟩

structure Digits where
  digits : Nat
  exponent : Int
  deriving Repr, DecidableEq

def Digits.fraction (d : Digits) : Nat × Nat :=
  if 0 ≤ d.exponent then (d.digits * Nat.pow 10 d.exponent.toNat, 1)
  else (d.digits, Nat.pow 10 (-d.exponent).toNat)

def leadingExponent (num den : Nat) : Int :=
  let guess : Int := (Nat.toDigits 10 num).length - (Nat.toDigits 10 den).length
  let (a, b) := (Digits.mk 1 guess).fraction
  if a * den ≤ num * b then guess else guess - 1

/-- The two neighbours of `num / den` on the grid of multiples of `10 ^ exponent`, the nearer one
first; of two equally near the even one. -/
def neighbours (num den : Nat) (exponent : Int) : List Digits :=
  let (a, b) := (Digits.mk 1 exponent).fraction
  let q := num * b / (den * a)
  let r := num * b % (den * a)
  let down : Digits := ⟨q, exponent⟩
  let up : Digits := ⟨q + 1, exponent⟩
  if 2 * r < den * a then [down, up]
  else if den * a < 2 * r then [up, down]
  else if q % 2 = 0 then [down, up] else [up, down]

def shortest (mantissa : Nat) (exponent : Int) : Digits :=
  let (num, den) := fraction mantissa exponent
  let interval := Interval.ofBinary mantissa exponent
  let lead := leadingExponent num den
  let candidates := (List.range 17).flatMap fun (n : Nat) => neighbours num den (lead - n)
  let hit := candidates.find? fun d => let (a, b) := d.fraction; interval.holds a b
  hit.getD ⟨0, 0⟩

def trimZeros (digits : List Char) : List Char :=
  (digits.reverse.dropWhile (· == '0')).reverse

/-- Digits are written without an exponent while the point stands between the fourth place before the
first digit and the sixteenth behind it; otherwise the exponent has a sign and two digits at least.
A number without a fraction ends in `.0`. -/
def layout (d : Digits) : List Char :=
  let all := Nat.toDigits 10 d.digits
  let point : Int := all.length + d.exponent
  let digits := trimZeros all
  if -4 < point && point ≤ 16 then
    if point ≤ 0 then '0' :: '.' :: List.replicate (-point).toNat '0' ++ digits
    else
      let whole := digits.take point.toNat
      let zeros := List.replicate (point.toNat - whole.length) '0'
      let rest := digits.drop point.toNat
      whole ++ zeros ++ '.' :: (if rest.isEmpty then ['0'] else rest)
  else
    let e := point - 1
    let digitsE := Nat.toDigits 10 e.natAbs
    let marks := ['e', if e < 0 then '-' else '+'] ++ List.replicate (2 - digitsE.length) '0'
    match digits with
    | [] => []
    | [c] => c :: marks ++ digitsE
    | c :: rest => c :: '.' :: rest ++ marks ++ digitsE

def text (nan infinity : String) (x : Float) : String :=
  match Binary.ofFloat x with
  | .nan => nan
  | .infinite negative => if negative then "-" ++ infinity else infinity
  | .finite negative m e =>
    let digits := if m = 0 then "0.0" else String.ofList (layout (shortest m e))
    if negative then "-" ++ digits else digits

end DesignLint.Decimal
