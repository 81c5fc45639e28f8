import DesignLint.Decimal.Fixed
import DesignLint.Pattern

/-! Dates, alone or with a time of day and a zone. -/

namespace DesignLint.Yaml

/-- A time of day, with the minutes that its zone is ahead. -/
structure DayTime where
  hour : Nat
  minute : Nat
  second : Nat
  microsecond : Nat := 0
  zone : Option Int := none
  deriving Repr, DecidableEq

structure Moment where
  year : Nat
  month : Nat
  day : Nat
  time : Option DayTime := none
  deriving Repr, DecidableEq

namespace Moment

open Pattern

def digit : Pattern Nat := do
  let c ← one Char.isDigit
  pure (c.toNat - '0'.toNat)

def twoDigits : Pattern Nat := do
  let a ← digit
  let b ← digit
  pure (10 * a + b)

def upToTwoDigits : Pattern Nat :=
  twoDigits.or digit

def fourDigits : Pattern Nat := do
  let a ← twoDigits
  let b ← twoDigits
  pure (100 * a + b)

def dateForm : Pattern Moment := do
  let year ← fourDigits
  char '-'
  let month ← twoDigits
  char '-'
  let day ← twoDigits
  pure { year, month, day }

/-- The digits behind the point of a second, of which six count. -/
def microseconds (digits : List Char) : Nat :=
  (digits.take 6 ++ List.replicate (6 - digits.length) '0').foldl
    (fun n c => 10 * n + (c.toNat - '0'.toNat)) 0

def fractionForm : Pattern Nat := do
  let digits ← Pattern.optional (do char '.'; many Char.isDigit)
  pure (microseconds ((digits.map Taken.chars).getD []))

def gapForm : Pattern Unit := do
  let _ ← many fun c => c == ' ' || c == '\t'
  pure ()

def zoneForm : Pattern Int :=
  (do char 'Z'; pure 0).or do
    let sign ← one fun c => c == '-' || c == '+'
    let hours ← upToTwoDigits
    let minutes ← Pattern.optional (do char ':'; twoDigits)
    let ahead : Int := 60 * hours + minutes.getD 0
    pure (if sign == '-' then -ahead else ahead)

def shortDateForm : Pattern Moment := do
  let year ← fourDigits
  char '-'
  let month ← upToTwoDigits
  char '-'
  let day ← upToTwoDigits
  pure { year, month, day }

def timeForm : Pattern Moment := do
  let date ← shortDateForm
  let _ ← (one fun c => c == 'T' || c == 't').or do
    let c ← one fun c => c == ' ' || c == '\t'
    gapForm
    pure c
  let hour ← upToTwoDigits
  char ':'
  let minute ← twoDigits
  char ':'
  let second ← twoDigits
  let microsecond ← fractionForm
  let zone ← Pattern.optional (do gapForm; zoneForm)
  pure { date with time := some { hour, minute, second, microsecond, zone } }

/-- The moment that a text has the form of, be there such a moment or not. -/
def ofText? (s : List Char) : Option Moment :=
  (((dateForm.or timeForm).run s).find? (·.2.isEmpty)).map (·.1)

/-- The moment that a text has the form of when a moment is expected: the date alone may be short, too. -/
def loosely? (s : List Char) : Option Moment :=
  (((shortDateForm.or timeForm).run s).find? (·.2.isEmpty)).map (·.1)

def isLeap (year : Nat) : Bool :=
  year % 4 == 0 && (year % 100 != 0 || year % 400 == 0)

def daysIn (year month : Nat) : Nat :=
  if month = 2 then if isLeap year then 29 else 28
  else if month = 4 ∨ month = 6 ∨ month = 9 ∨ month = 11 then 30
  else 31

/-- A day has so many minutes, and a zone is less than a day ahead or behind. -/
def minutesPerDay : Nat := 1440

def isValidTime (t : DayTime) : Bool :=
  t.hour < 24 && t.minute < 60 && t.second < 60 && t.zone.all fun z => z.natAbs < minutesPerDay

def isValid (m : Moment) : Bool :=
  1 ≤ m.year && 1 ≤ m.month && m.month ≤ 12 && 1 ≤ m.day && m.day ≤ daysIn m.year m.month
    && m.time.all isValidTime

def padded (width n : Nat) : String :=
  String.ofList (Decimal.paddedDigits width n)

def zoneText (zone : Int) : String :=
  (if zone < 0 then "-" else "+") ++ padded 2 (zone.natAbs / 60) ++ ":" ++ padded 2 (zone.natAbs % 60)

def timeText (t : DayTime) : String :=
  padded 2 t.hour ++ ":" ++ padded 2 t.minute ++ ":" ++ padded 2 t.second
    ++ (if t.microsecond = 0 then "" else "." ++ padded 6 t.microsecond)
    ++ (t.zone.map zoneText).getD ""

/-- The moment as text, the largest unit first. -/
protected def toString (m : Moment) : String :=
  padded 4 m.year ++ "-" ++ padded 2 m.month ++ "-" ++ padded 2 m.day
    ++ (m.time.map fun t => " " ++ timeText t).getD ""

end Moment

end DesignLint.Yaml
