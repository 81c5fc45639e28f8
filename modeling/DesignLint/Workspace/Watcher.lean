import DesignLint.Data.Assoc
import DesignLint.Decimal.Nearest
import DesignLint.Language
import DesignLint.Settings.Basic
import DesignLint.Text.Case

/-! Waiting until a changed file is left alone. Every relevant event starts a timer for its path and
cancels the one before, so a path has at most one timer that runs. A timer that runs out and what is done
then are one step: that an event comes in between, when the timer can no longer be cancelled but is still
kept as the one of its path, is left out. -/

namespace DesignLint

inductive TimerState
  | started
  | cancelled
  | fired
  deriving Repr, DecidableEq

def TimerState.name : TimerState → String
  | .started => "started"
  | .cancelled => "cancelled"
  | .fired => "fired"

structure Timer where
  path : String
  /-- In seconds. -/
  delay : Float
  force : Bool
  state : TimerState := .started
  deriving Repr

structure Watcher where
  suffixes : List String
  delay : Float
  scanOnModify : Bool
  /-- Is a modified file scanned even if its text is unchanged? -/
  forceOnModify : Bool
  scanOnCreate : Bool
  /-- All timers so far, in the order in which they were started. -/
  timers : List Timer := []
  /-- The places of the timers that run, by path. -/
  running : List (String × Nat) := []
  deriving Repr

namespace Watcher

def ofDelay (s : Settings) (milliseconds : Float) : Watcher where
  suffixes := Language.suffixesOf s.languages
  delay := milliseconds / 1000.0
  scanOnModify := s.scanOnSave || s.scanOnChange
  forceOnModify := s.scanOnSave
  scanOnCreate := s.scanOnOpen

/-- The watcher that the settings ask for, unless its delay is too long to be a decimal number. -/
def ofSettings? (s : Settings) : Option Watcher :=
  (Decimal.ofInt? s.scanOnChangeDelay).map (ofDelay s)

def setState (timers : List Timer) (k : Nat) (state : TimerState) : List Timer :=
  timers.modify k fun t => { t with state }

def schedule (w : Watcher) (path : String) (force : Bool) : Watcher :=
  let timers :=
    match w.running.lookup path with
    | some k => setState w.timers k .cancelled
    | none => w.timers
  { w with
    timers := timers ++ [⟨path, w.delay, force, .started⟩]
    running := Assoc.erase w.running path ++ [(path, timers.length)] }

/-- An event that concerns a source file, be it left out or not. -/
def isSource (w : Watcher) (path : String) (isDirectory : Bool) : Bool :=
  !isDirectory && w.suffixes.contains (Text.lower (Path.ofString path).suffix)

def isRelevant (w : Watcher) (path : String) (isDirectory ignored : Bool) : Bool :=
  w.isSource path isDirectory && !ignored

def modified (w : Watcher) (path : String) (isDirectory ignored : Bool) : Watcher :=
  if w.scanOnModify && w.isRelevant path isDirectory ignored then w.schedule path w.forceOnModify
  else w

def created (w : Watcher) (path : String) (isDirectory ignored : Bool) : Watcher :=
  if w.scanOnCreate && w.isRelevant path isDirectory ignored then w.schedule path false
  else w

/-- The first timer of a path that was neither cancelled nor fired. -/
def startedTimer? (w : Watcher) (path : String) : Option Nat :=
  w.timers.findIdx? fun t => t.path == path && t.state == .started

/-- Lets a timer run out and fire, in one step. -/
def expire (w : Watcher) (path : String) (k : Nat) : Watcher :=
  { w with timers := setState w.timers k .fired, running := Assoc.erase w.running path }

def cancelAll (w : Watcher) : Watcher :=
  { w with
    timers := w.running.foldl (fun timers r => setState timers r.2 .cancelled) w.timers
    running := [] }

end Watcher

end DesignLint
