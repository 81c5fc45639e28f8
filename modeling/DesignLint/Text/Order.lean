/-! The order of texts: by code point, a text before every longer text that starts with it. -/

namespace DesignLint.Text

def lexLe {α : Type} [BEq α] (lt : α → α → Bool) : List α → List α → Bool
  | [], _ => true
  | _ :: _, [] => false
  | a :: as, b :: bs => if a == b then lexLe lt as bs else lt a b

def le (s t : String) : Bool :=
  lexLe (fun c d => c.toNat < d.toNat) s.toList t.toList

def lt (s t : String) : Bool :=
  !le t s

def sorted (names : List String) : List String :=
  names.mergeSort le

end DesignLint.Text
