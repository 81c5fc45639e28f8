import DesignLint.Decimal.Binary

/-! The double nearest to a fraction, found by exact arithmetic. Of two equally near doubles the one with
the even mantissa is taken; beyond the largest double there is none. -/

namespace DesignLint.Decimal

/-- The exponent of the leading binary digit of `num / den`. -/
def leadingBit (num den : Nat) : Int :=
  let guess : Int := (num.log2 : Int) - den.log2
  let (a, b) := fraction 1 guess
  if a * den ≤ num * b then guess else guess - 1

/-- The pattern of bits of the double nearest to `num / den`, as if the exponents had no end. A mantissa
that rounding carries over goes into the exponent by itself. -/
def nearestBits (num den : Nat) : Nat :=
  if num = 0 then 0
  else
    let exponent := max (leadingBit num den - 52) (-1074)
    let (a, b) := fraction 1 exponent
    roundDiv (num * b) (den * a) + (exponent + 1074).toNat * Nat.pow 2 52

def infinityBits : Nat := 2047 * Nat.pow 2 52

/-- The double nearest to `num / den`, unless the fraction is too large. -/
def quotient? (num den : Nat) : Option Float :=
  let bits := nearestBits num den
  if bits < infinityBits then some (Float.ofBits bits.toUInt64) else none

def infinity : Float := Float.ofBits infinityBits.toUInt64

def quotient (num den : Nat) : Float :=
  (quotient? num den).getD infinity

def withSign (negative : Bool) (x : Float) : Float :=
  if negative then -x else x

def ratio? (num : Int) (den : Nat) : Option Float :=
  (quotient? num.natAbs den).map (withSign (num < 0))

def ofInt? (n : Int) : Option Float :=
  ratio? n 1

def ofInt (n : Int) : Float :=
  withSign (n < 0) (quotient n.natAbs 1)

def ofScientific (digits : Nat) (exponent : Int) : Float :=
  if 0 ≤ exponent then quotient (digits * Nat.pow 10 exponent.toNat) 1
  else quotient digits (Nat.pow 10 (-exponent).toNat)

end DesignLint.Decimal
