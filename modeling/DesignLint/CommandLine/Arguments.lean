import DesignLint.Data.Assoc
import DesignLint.Text.Digit

/-! Command-line arguments. An option is named in full or by an abbreviation that no other option
shares; its value follows as the next argument or behind an equals sign. Everything else takes the
places of the command, all of which must stand together; two dashes alone end the options. -/

namespace DesignLint.CommandLine

inductive Arity
  | flag
  | one
  /-- At least one, each from this list. -/
  | many (choices : List String)
  deriving Repr, DecidableEq

structure OptionSpec where
  name : String
  arity : Arity
  deriving Repr, DecidableEq

/-- The arguments of a command that belong to no option. -/
inductive Places
  | none
  | optional
  | some
  deriving Repr, DecidableEq

structure Grammar where
  options : List OptionSpec
  places : Places
  deriving Repr, DecidableEq

inductive Stop
  /-- Help was asked for. -/
  | help
  /-- The arguments do not fit. -/
  | usage
  deriving Repr, DecidableEq

inductive Token
  | place (arg : String)
  | separator
  | option (spec : OptionSpec) (value : Option String)
  /-- Why the command stops here. -/
  | stop (s : Stop)
  | unknown (arg : String)
  deriving Repr, DecidableEq

structure Arguments where
  /-- The values of the options that are given, flags having none. -/
  values : List (String × List String) := []
  /-- The arguments in the places, once they are taken. -/
  places : Option (List String) := none
  /-- What fits nowhere. -/
  extras : List String := []
  deriving Repr, DecidableEq

/-- A minus sign with digits behind it, perhaps with a point before the last of them; one line break may
follow. -/
def isNegativeNumber (s : List Char) : Bool :=
  let isDigit (c : Char) : Bool := (Text.digitValue? c).isSome
  match if s.getLast? == some '\n' then s.dropLast else s with
  | '-' :: s =>
    match s.dropWhile isDigit with
    | [] => !s.isEmpty
    | '.' :: frac => !frac.isEmpty && frac.all isDigit
    | _ => false
  | _ => false

def splitValue (arg : List Char) : List Char × Option String :=
  match arg.dropWhile (· != '=') with
  | _ :: value => (arg.takeWhile (· != '='), some (String.ofList value))
  | [] => (arg, none)

/-- A request for help in its short form, with this attached to it. Further short options may follow
directly; a value may not. -/
def shortHelp : List Char → Stop
  | [] => .help
  | c :: s => if c = '=' ∨ c = '-' then .usage else if c = 'h' then shortHelp s else .help

def classifyOther (arg : String) : Token :=
  if isNegativeNumber arg.toList || arg.toList.contains ' ' then .place arg else .unknown arg

def classifyLong (g : Grammar) (arg : String) : Except Stop Token :=
  let (name, value) := splitValue arg.toList
  let help := "--help"
  let names := help :: g.options.map (·.name)
  let candidates :=
    if names.contains arg then [arg]
    else if names.contains (String.ofList name) then [String.ofList name]
    else names.filter fun n => name.isPrefixOf n.toList
  let value := if names.contains arg then none else value
  match candidates with
  | [] => .ok (classifyOther arg)
  | [n] =>
    match g.options.find? (·.name == n) with
    | some spec => .ok (.option spec value)
    | none => .ok (.stop (if value.isSome then .usage else .help))
  | _ => .error .usage

/-- What an argument is, as long as the options have not ended. -/
def classify (g : Grammar) (arg : String) : Except Stop Token :=
  match arg.toList with
  | '-' :: '-' :: [] => .ok .separator
  | '-' :: '-' :: _ => classifyLong g arg
  | ['-'] => .ok (.place arg)
  | '-' :: 'h' :: attached => .ok (.stop (shortHelp attached))
  | '-' :: _ => .ok (classifyOther arg)
  | _ => .ok (.place arg)

def tokens (g : Grammar) : List String → Except Stop (List Token)
  | [] => .ok []
  | arg :: args => do
    match ← classify g arg with
    | .separator => pure (.separator :: args.map .place)
    | token => pure (token :: (← tokens g args))

def placeOf? : Token → Option String
  | .place arg => some arg
  | _ => none

def leadingPlaces : List Token → List String
  | .place arg :: tokens => arg :: leadingPlaces tokens
  | _ => []

/-- The values of an option and how many tokens behind it they take. -/
def optionValues (arity : Arity) (value : Option String) (rest : List Token) :
    Except Stop (List String × Nat) :=
  match arity, value with
  | .flag, none => .ok ([], 0)
  | .flag, some _ => .error .usage
  | .one, some v => .ok ([v], 0)
  | .one, none =>
    match leadingPlaces rest with
    | v :: _ => .ok ([v], 1)
    | [] => .error .usage
  | .many choices, some v => if choices.contains v then .ok ([v], 0) else .error .usage
  | .many choices, none =>
    let values := leadingPlaces rest
    if values.isEmpty || !values.all choices.contains then .error .usage
    else .ok (values, values.length)

def extraText : Token → String
  | .place arg | .unknown arg => arg
  | .separator => "--"
  | .option spec _ => spec.name
  | .stop _ => "--help"

def freeRun : List Token → List Token
  | .place arg :: tokens => .place arg :: freeRun tokens
  | .separator :: tokens => .separator :: freeRun tokens
  | _ => []

/-- How many tokens of a run take the places, if they can. A separator is taken along with what stands
before or behind it. -/
def placeCount (places : Places) (run : List Token) : Option Nat :=
  let separators := (run.takeWhile (· == .separator)).length
  let behind := run.drop separators
  match places with
  | .none => none
  | .some => if behind.isEmpty then none else some run.length
  | .optional =>
    let taken := (behind.take 1).length
    some (separators + taken + ((behind.drop taken).takeWhile (· == .separator)).length)

/-- Lets a run of tokens take the places, or leaves it over. -/
def takePlaces (g : Grammar) (acc : Arguments) (run : List Token) : Arguments :=
  match acc.places, placeCount g.places run with
  | none, some n =>
    { acc with
      places := some ((run.take n).filterMap placeOf?)
      extras := acc.extras ++ (run.drop n).map extraText }
  | _, _ => { acc with extras := acc.extras ++ run.map extraText }

/-- Works through the tokens; the first `skip` of them are already used. -/
def assign (g : Grammar) (acc : Arguments) (skip : Nat) : List Token → Except Stop Arguments
  | [] => .ok acc
  | token :: rest =>
    match skip, token with
    | skip + 1, _ => assign g acc skip rest
    | 0, .stop s => .error s
    | 0, .unknown arg => assign g { acc with extras := acc.extras ++ [arg] } 0 rest
    | 0, .option spec value =>
      match optionValues spec.arity value rest with
      | .error stop => .error stop
      | .ok (values, used) =>
        assign g { acc with values := Assoc.set acc.values spec.name values } used rest
    | 0, token =>
      let run := freeRun (token :: rest)
      assign g (takePlaces g acc run) (run.length - 1) rest

def Places.areFilled (places : Places) (taken : Option (List String)) : Bool :=
  match places with
  | .some => taken.isSome
  | _ => true

/-- The arguments of a command. Places must be filled; whether something is left over is for the
caller to see. -/
def parse (g : Grammar) (args : List String) : Except Stop Arguments := do
  let acc ← assign g {} 0 (← tokens g args)
  if g.places.areFilled acc.places then pure acc else throw .usage

namespace Arguments

def hasFlag (a : Arguments) (name : String) : Bool :=
  Assoc.has a.values name

def value? (a : Arguments) (name : String) : Option String :=
  (a.values.lookup name).bind List.head?

def valuesOf (a : Arguments) (name : String) : List String :=
  (a.values.lookup name).getD []

def place? (a : Arguments) : Option String :=
  a.places.bind List.head?

end Arguments

end DesignLint.CommandLine
