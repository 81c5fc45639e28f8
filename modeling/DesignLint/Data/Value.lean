import DesignLint.Data.RawText

/-! Values as data files hold them. The fields of an object keep their order, and no name occurs
twice in one object that was read. -/

namespace DesignLint

inductive Value
  | null
  | bool (b : Bool)
  | int (n : Int)
  | float (x : Float)
  | str (t : RawText)
  /-- A date or a time, which is written as this text. -/
  | moment (text : String)
  | list (items : List Value)
  | object (fields : List (RawText × Value))
  deriving Repr, Inhabited

namespace Value

def ofString (s : String) : Value := .str s

/-- Whether a value counts as present: not null, false, zero or empty. -/
def isPresent : Value → Bool
  | .null => false
  | .bool b => b
  | .int n => n != 0
  | .float x => x != 0.0
  | .str t => t != ""
  | .moment _ => true
  | .list items => !items.isEmpty
  | .object fields => !fields.isEmpty

end Value

end DesignLint
