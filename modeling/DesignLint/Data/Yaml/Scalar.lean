import DesignLint.Data.Number
import DesignLint.Data.Yaml.Cursor
import DesignLint.Data.Yaml.Moment

/-! What scalars stand for. The form of a plain scalar tells its tag: null, booleans, integers in four
notations and base sixty, decimal numbers, dates, and otherwise text. The tag then tells how the value is
read, and a scalar may have the form without having a value. -/

namespace DesignLint.Yaml

inductive Tag
  | null
  | bool
  | int
  | float
  | text
  | moment
  /-- The key whose value is merged into the mapping. -/
  | merge
  /-- The key of a default value. -/
  | value
  | list
  | map
  /-- A tag of which nothing is known. -/
  | other
  deriving Repr, DecidableEq

def nullWords : List String := ["", "~", "null", "Null", "NULL"]

def trueWords : List String :=
  ["yes", "Yes", "YES", "true", "True", "TRUE", "on", "On", "ON"]

def falseWords : List String :=
  ["no", "No", "NO", "false", "False", "FALSE", "off", "Off", "OFF"]

def isDigitOrUnderscore (c : Char) : Bool := c.isDigit || c == '_'

/-- Parts of a base-sixty number behind the first: one or two digits below sixty. -/
def isSixtieth (s : List Char) : Bool :=
  s.all Char.isDigit &&
    (s.length == 1 || (s.length == 2 && s.head?.any fun c => '0' ≤ c && c ≤ '5'))

def isDigits (s : List Char) : Bool :=
  s.head?.any Char.isDigit && s.all isDigitOrUnderscore

def isBased (ok : Char → Bool) (s : List Char) : Bool :=
  !s.isEmpty && s.all fun c => ok c || c == '_'

def isIntForm (s : List Char) : Bool :=
  match (Number.takeSign s).2 with
  | ['0'] => true
  | '0' :: 'b' :: u => isBased (fun c => c == '0' || c == '1') u
  | '0' :: 'x' :: u => isBased (fun c => (Json.hexValue? c).isSome) u
  | '0' :: u => isBased (fun c => '0' ≤ c && c ≤ '7') u
  | t =>
    match t.splitOn ':' with
    | first :: parts => isDigits first && parts.all isSixtieth
    | [] => false

def isSignedExponent : List Char → Bool
  | [] => true
  | e :: sign :: digits =>
    (e == 'e' || e == 'E') && (sign == '-' || sign == '+') && !digits.isEmpty
      && digits.all Char.isDigit
  | _ => false

/-- The form of a decimal number in base ten: a point, a digit before it or without a sign behind it, and
perhaps an exponent. -/
def isDecimalForm (s : List Char) : Bool :=
  let t := (Number.takeSign s).2
  let whole := t.takeWhile isDigitOrUnderscore
  match t.drop whole.length with
  | '.' :: u =>
    let places := u.takeWhile isDigitOrUnderscore
    isSignedExponent (u.drop places.length)
      && (isDigits whole || (whole.isEmpty && s.length == t.length && isDigits places))
  | _ => false

/-- The form of a decimal number in base sixty: the last part has a point. -/
def isSixtyForm (s : List Char) : Bool :=
  let t := (Number.takeSign s).2
  let head := t.takeWhile (· != '.')
  match t.drop head.length, head.splitOn ':' with
  | '.' :: places, first :: second :: parts =>
    isDigits first && (second :: parts).all isSixtieth && places.all isDigitOrUnderscore
  | _, _ => false

def infinityWords : List String := [".inf", ".Inf", ".INF"]

def nanWords : List String := [".nan", ".NaN", ".NAN"]

def isFloatForm (s : List Char) : Bool :=
  isDecimalForm s || isSixtyForm s || String.ofList (Number.takeSign s).2 ∈ infinityWords
    || String.ofList s ∈ nanWords

namespace Tag

def ofPlain (s : List Char) : Tag :=
  let text := String.ofList s
  if text ∈ nullWords then .null
  else if text ∈ trueWords || text ∈ falseWords then .bool
  else if isFloatForm s then .float
  else if isIntForm s then .int
  else if (Moment.ofText? s).isSome then .moment
  else if text == "<<" then .merge
  else if text == "=" then .value
  else .text

def standard : String := "tag:yaml.org,2002:"

def names : List (String × Tag) := [
  ("null", .null), ("bool", .bool), ("int", .int), ("float", .float), ("str", .text),
  ("timestamp", .moment), ("merge", .merge), ("value", .value), ("seq", .list), ("map", .map)]

def ofName (name : String) : Tag :=
  ((names.find? fun n => standard ++ n.1 == name).map (·.2)).getD .other

end Tag

def orNoValue {α : Type} : Option α → Except Fault α
  | some a => .ok a
  | none => .error .noValue

def digitsIn? (base : Nat) (digits : List Char) : Option Nat :=
  if digits.isEmpty then none
  else digits.foldl (fun n c => do
    let d ← (Text.digitValue? c).or (Json.hexValue? c)
    if d < base then pure (base * (← n) + d) else none) (some 0)

/-- The integer in a base, which may have a sign and the letter `mark` of the base behind a zero. -/
def basedValue (base : Nat) (mark : Char) (s : List Char) : Except Fault Int :=
  let (negative, t) := Number.takeSign (Number.trim s)
  let digits :=
    match t with
    | '0' :: c :: u => if c.toLower == mark then u else t
    | _ => t
  orNoValue ((digitsIn? base digits).map (Number.signed negative))

def intValue (s : List Char) : Except Fault Int :=
  let (negative, t) := Number.takeSign (s.filter (· != '_'))
  (fun n => if negative then -n else n) <$>
    match t with
    | [] => .error .emptyNumber
    | ['0'] => .ok 0
    | '0' :: 'b' :: u => basedValue 2 'b' u
    | '0' :: 'x' :: u => basedValue 16 'x' u
    | '0' :: _ => basedValue 8 'o' t
    | t => do
      let parts ← (t.splitOn ':').mapM fun p => orNoValue (Number.int? p)
      pure (parts.foldl (fun n p => 60 * n + p) 0)

def realValue (s : List Char) : Except Fault Float :=
  orNoValue (Number.float? (Number.trim s))

/-- The sum of parts in base sixty, the least first, of which the first counts `unit`. -/
def sixtySum (sum : Float) (unit : Nat) : List Float → Except Fault Float
  | [] => .ok sum
  | x :: xs =>
    match Decimal.ofInt? unit with
    | some u => sixtySum (sum + x * u) (60 * unit) xs
    | none => .error .tooLarge

def floatValue (s : List Char) : Except Fault Float :=
  let digits := s.filter (· != '_')
  let (negative, t) := Number.takeSign (digits.map Char.toLower)
  if digits.isEmpty then .error .emptyNumber
  else
    Decimal.withSign negative <$>
      if String.ofList t == ".inf" then .ok Decimal.infinity
      else if String.ofList t == ".nan" then .ok (0.0 / 0.0)
      else if t.contains ':' then do
        let parts ← (t.splitOn ':').mapM realValue
        sixtySum 0.0 1 parts.reverse
      else realValue t

def switchValue (s : List Char) : Except Fault Bool :=
  let word := String.ofList (s.map Char.toLower)
  if word ∈ trueWords then .ok true
  else if word ∈ falseWords then .ok false
  else .error .unknownWord

def momentValue (s : List Char) : Except Fault Moment :=
  match Moment.loosely? s with
  | none => .error .noDate
  | some m => if m.isValid then .ok m else .error .noValue

def scalarValue (tag : Tag) (s : List Char) : Except Fault Value :=
  match tag with
  | .null => .ok .null
  | .bool => .bool <$> switchValue s
  | .int => .int <$> intValue s
  | .float => .float <$> floatValue s
  | .text => .ok (.str (String.ofList s))
  | .moment => (fun m => .moment m.toString) <$> momentValue s
  | _ => .error .malformed

end DesignLint.Yaml
