import DesignLint.Decimal.Binary

/-! Numbers with a fixed count of decimal places. The exact value is rounded, and a half goes to the
even neighbour. -/

namespace DesignLint.Decimal

def paddedDigits (width n : Nat) : List Char :=
  let digits := Nat.toDigits 10 n
  List.replicate (width - digits.length) '0' ++ digits

def fixedDigits (places : Nat) (mantissa : Nat) (exponent : Int) : List Char :=
  let (num, den) := fraction mantissa exponent
  let n := roundDiv (num * Nat.pow 10 places) den
  let whole := Nat.toDigits 10 (n / Nat.pow 10 places)
  if places = 0 then whole else whole ++ '.' :: paddedDigits places (n % Nat.pow 10 places)

def fixed (places : Nat) (x : Float) : String :=
  match Binary.ofFloat x with
  | .nan => "nan"
  | .infinite negative => if negative then "-inf" else "inf"
  | .finite negative m e =>
    let digits := String.ofList (fixedDigits places m e)
    if negative then "-" ++ digits else digits

end DesignLint.Decimal
