/-! A binary floating-point number as an integer times a power of two, and quotients rounded to an
integer. -/

namespace DesignLint.Decimal

/-- The value of a floating-point number: `mantissa * 2 ^ exponent` with a sign. -/
inductive Binary
  | nan
  | infinite (negative : Bool)
  | finite (negative : Bool) (mantissa : Nat) (exponent : Int)
  deriving Repr, DecidableEq

def Binary.ofFloat (x : Float) : Binary :=
  let bits := x.toBits.toNat
  let negative := bits / Nat.pow 2 63 == 1
  let biased : Nat := bits / Nat.pow 2 52 % Nat.pow 2 11
  let fraction := bits % Nat.pow 2 52
  if biased = 2047 then
    if fraction = 0 then .infinite negative else .nan
  else if biased = 0 then .finite negative fraction (-1074)
  else .finite negative (Nat.pow 2 52 + fraction) ((biased : Int) - 1075)

/-- The quotient rounded to the nearest integer; of two equally near the even one. -/
def roundDiv (num den : Nat) : Nat :=
  let q := num / den
  let r := num % den
  if 2 * r < den then q
  else if den < 2 * r then q + 1
  else if q % 2 = 0 then q else q + 1

def fraction (mantissa : Nat) (exponent : Int) : Nat × Nat :=
  if 0 ≤ exponent then (mantissa * Nat.pow 2 exponent.toNat, 1)
  else (mantissa, Nat.pow 2 (-exponent).toNat)

def truncate (negative : Bool) (mantissa : Nat) (exponent : Int) : Int :=
  let (num, den) := fraction mantissa exponent
  if negative then -(num / den : Nat) else (num / den : Nat)

def floor (negative : Bool) (mantissa : Nat) (exponent : Int) : Int :=
  let (num, den) := fraction mantissa exponent
  let n : Int := num
  (if negative then -n else n).fdiv den

def ceil (negative : Bool) (mantissa : Nat) (exponent : Int) : Int :=
  -floor (!negative) mantissa exponent

def isIntegral (mantissa : Nat) (exponent : Int) : Bool :=
  let (num, den) := fraction mantissa exponent
  num % den == 0

end DesignLint.Decimal
