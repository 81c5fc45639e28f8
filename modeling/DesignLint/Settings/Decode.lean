import DesignLint.Data.Assoc
import DesignLint.Data.Number
import DesignLint.Decimal.Nearest
import DesignLint.Settings.Basic

/-! Settings from named values. A value of another type is taken where it says the same: a number in
quotes, a number for a switch, an integer for a decimal number. Every value that does not fit is
reported, in the order of the settings. -/

namespace DesignLint

inductive Misfit
  | notText
  | notList
  | notInt
  | badInt
  | fractionalInt
  | hugeInt
  | notFinite
  | notFloat
  | badFloat
  | notBool
  | badBool
  deriving Repr, DecidableEq

/-- A value that does not fit, with the name of its setting and its place in a list. -/
structure SettingError where
  setting : String
  item : Option Nat := none
  misfit : Misfit
  deriving Repr, DecidableEq

def SettingError.location (e : SettingError) : String :=
  match e.item with
  | some i => e.setting ++ "." ++ toString i
  | none => e.setting

namespace Settings

def text? : Value → Except Misfit String
  | .str (.proper s) => .ok s
  | _ => .error .notText

def isLeadingDigit (c : Char) : Bool :=
  '1' ≤ c && c ≤ '9'

/-- What is left of a number behind leading zeros, the last character passed over being `last`. Underscores
may stand among the zeros, and one zero stays in front of a point. -/
def afterZeros (last : Char) : List Char → Option (List Char)
  | [] => some [last]
  | c :: s =>
    if c == '0' || c == '_' then afterZeros c s
    else if isLeadingDigit c || c == '-' then some (c :: s)
    else if c == '.' then some (last :: c :: s)
    else none

def significant? : List Char → Option (List Char)
  | [] => none
  | c :: s =>
    if c == '0' then afterZeros c s
    else if isLeadingDigit c || c == '-' then some (c :: s)
    else none

def dropZeroFraction (s : List Char) : List Char :=
  let whole := s.takeWhile (· != '.')
  let zeros := (s.drop whole.length).drop 1
  if !zeros.isEmpty && zeros.all (· == '0') then whole else s

/-- The text of an integer without blanks, a plus sign, leading zeros, a fraction of zeros and single
underscores between digits. -/
def cleanInt? (s : List Char) : Option (List Char) :=
  let s := Number.trim s
  let unsigned := if s.head? == some '+' then s.drop 1 else s
  if s.head? == some '+' && unsigned.head? == some '-' then none
  else do
    let s ← significant? unsigned
    let s := dropZeroFraction s
    pure ((Number.dropUnderscores? s).getD s)

def intText? (s : List Char) : Except Misfit Int :=
  match cleanInt? s with
  | none => .error .badInt
  | some s =>
    let negative := s.head? == some '-'
    let digits := if negative then s.drop 1 else s
    if digits.isEmpty || !digits.all Char.isDigit || (digits.head? == some '0' && digits != ['0']) then
      .error .badInt
    else if Json.maxDigits < digits.length then .error .hugeInt
    else .ok (Number.signed negative (Json.digitsValue digits))

/-- The magnitude that whole numbers with a point stay below. -/
def maxWhole : Nat := 0x8000000000000000

def whole? (x : Float) : Except Misfit Int :=
  match Decimal.Binary.ofFloat x with
  | .finite negative m e =>
    if !Decimal.isIntegral m e then .error .fractionalInt
    else
      let n := Decimal.truncate negative m e
      if n.natAbs < maxWhole then .ok n else .error .hugeInt
  | _ => .error .notFinite

def int? : Value → Except Misfit Int
  | .int n => .ok n
  | .bool b => .ok (if b then 1 else 0)
  | .float x => whole? x
  | .str (.proper s) => intText? s.toList
  | _ => .error .notInt

/-- The text of a decimal number, either with blanks around it or with grouped digits. -/
def floatText? (s : List Char) : Option Float :=
  match Number.float? (Number.trim s) with
  | some x => some x
  | none => (Number.dropUnderscores? s).bind Number.float?

def float? : Value → Except Misfit Float
  | .float x => .ok x
  | .int n =>
    match Decimal.ofInt? n with
    | some x => .ok x
    | none => .error .notFloat
  | .bool b => .ok (if b then 1.0 else 0.0)
  | .str (.proper s) =>
    match floatText? s.toList with
    | some x => .ok x
    | none => .error .badFloat
  | _ => .error .notFloat

def onWords : List String := ["1", "on", "t", "true", "y", "yes"]

def offWords : List String := ["0", "off", "f", "false", "n", "no"]

def switch? (n : Int) : Except Misfit Bool :=
  if n = 0 then .ok false else if n = 1 then .ok true else .error .badBool

def bool? : Value → Except Misfit Bool
  | .bool b => .ok b
  | .int n => if -maxWhole ≤ n ∧ n < maxWhole then switch? n else .error .notBool
  | .float x =>
    match whole? x with
    | .ok n => switch? n
    | .error _ => .error .notBool
  | .str (.proper s) =>
    let word := String.ofList (s.toList.map Char.toLower)
    if word ∈ onWords then .ok true
    else if word ∈ offWords then .ok false
    else .error .badBool
  | _ => .error .notBool

/-- Reading settings one after the other while noting what does not fit. -/
abbrev Reading := StateM (List SettingError)

def note (errors : List SettingError) : Reading Unit :=
  modify (· ++ errors)

def read {α : Type} (decode : Value → Except Misfit α) (values : List (String × Value))
    (name : String) (default : α) : Reading α :=
  match values.lookup name with
  | none => pure default
  | some v =>
    match decode v with
    | .ok a => pure a
    | .error misfit => do
      note [⟨name, none, misfit⟩]
      pure default

def misfits (name : String) (items : List Value) : List SettingError :=
  items.zipIdx.filterMap fun (v, i) =>
    match text? v with
    | .ok _ => none
    | .error misfit => some ⟨name, some i, misfit⟩

def readTexts (values : List (String × Value)) (name : String) (default : List String) :
    Reading (List String) :=
  match values.lookup name with
  | none => pure default
  | some (.list items) => do
    note (misfits name items)
    pure (items.filterMap fun v => (text? v).toOption)
  | some _ => do
    note [⟨name, none, .notList⟩]
    pure default

def names : List String :=
  (fields {}).map (·.1)

def readAll (values : List (String × Value)) : Reading Settings := do
  let d : Settings := {}
  let projectRoot ← read text? values "project_root" d.projectRoot
  let watchDirectories ← readTexts values "watch_directories" d.watchDirectories
  let ignoredPatterns ← readTexts values "ignored_patterns" d.ignoredPatterns
  let languages ← readTexts values "languages" d.languages
  let enableSrp ← read bool? values "enable_srp" d.enableSrp
  let enableOcp ← read bool? values "enable_ocp" d.enableOcp
  let enableDip ← read bool? values "enable_dip" d.enableDip
  let enableIsp ← read bool? values "enable_isp" d.enableIsp
  let cohesionThreshold ← read int? values "srp_lcom4_threshold" d.cohesionThreshold
  let opennessThreshold ← read float? values "ocp_score_threshold" d.opennessThreshold
  let inversionThreshold ← read float? values "dip_score_threshold" d.inversionThreshold
  let fatInterfaceThreshold ←
    read int? values "isp_fat_interface_threshold" d.fatInterfaceThreshold
  let stubRatioThreshold ← read float? values "isp_sir_threshold" d.stubRatioThreshold
  let scannerEnabled ← read bool? values "semgrep_enabled" d.scannerEnabled
  let scannerPath ← read text? values "semgrep_path" d.scannerPath
  let rulesPath ← read text? values "rules_path" d.rulesPath
  let useCache ← read bool? values "use_cache" d.useCache
  let scanOnSave ← read bool? values "scan_on_save" d.scanOnSave
  let scanOnOpen ← read bool? values "scan_on_open" d.scanOnOpen
  let scanOnChange ← read bool? values "scan_on_change" d.scanOnChange
  let scanOnChangeDelay ← read int? values "scan_on_change_delay" d.scanOnChangeDelay
  pure {
    projectRoot, watchDirectories, ignoredPatterns, languages, enableSrp, enableOcp, enableDip,
    enableIsp, cohesionThreshold, opennessThreshold, inversionThreshold, fatInterfaceThreshold,
    stubRatioThreshold, scannerEnabled, scannerPath, rulesPath, useCache, scanOnSave, scanOnOpen,
    scanOnChange, scanOnChangeDelay
    extra := values.filter fun f => !names.contains f.1 }

/-- The settings with these values, or everything that does not fit. -/
def ofFields (values : List (String × Value)) : Except (List SettingError) Settings :=
  let (settings, errors) := (readAll values).run []
  if errors.isEmpty then .ok settings else .error errors

end Settings

end DesignLint
