import DesignLint.Data.Value
import DesignLint.Decimal.Fixed
import DesignLint.Decimal.Nearest

/-! Amounts in records: whole numbers without bound, and decimal numbers. A whole number is counted with
exactly and becomes a double only when it is shown with decimal places. -/

namespace DesignLint

inductive Amount
  | whole (n : Int)
  | real (x : Float)
  deriving Repr

namespace Amount

instance : Coe Float Amount := ⟨.real⟩

def hundredfold : Amount → Amount
  | .whole n => .whole (n * 100)
  | .real x => .real (x * 100)

def toFloat : Amount → Float
  | .whole n => Decimal.ofInt n
  | .real x => x

/-- Can the amount be shown with decimal places? A whole number beyond the doubles cannot. -/
def isShowable : Amount → Bool
  | .whole n => (Decimal.ofInt? n).isSome
  | .real _ => true

def fixed (places : Nat) (a : Amount) : String :=
  Decimal.fixed places a.toFloat

def toValue : Amount → Value
  | .whole n => .int n
  | .real x => .float x

end Amount

end DesignLint
