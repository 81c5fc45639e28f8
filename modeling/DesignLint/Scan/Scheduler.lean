import DesignLint.Data.Assoc
import DesignLint.Digest

/-! One scan at a time. A document that is submitted while a scan is in flight waits in a queue with
one place per document: a later submission takes the place over, and is forced if either was. A
document whose text has the digest of its last finished scan is skipped unless it is forced. -/

namespace DesignLint

structure Document where
  path : String
  text : String
  languageName : Option String := none
  deriving Repr, DecidableEq

def Document.digest (d : Document) : String := Digest.ofText d.text

structure Waiting where
  document : Document
  force : Bool
  deriving Repr, DecidableEq

inductive ScanOutcome
  | skipped
  | queued
  | completed
  | failed
  deriving Repr, DecidableEq

def ScanOutcome.name : ScanOutcome → String
  | .skipped => "skipped"
  | .queued => "queued"
  | .completed => "completed"
  | .failed => "failed"

inductive Decision
  | skip
  | wait
  | start
  deriving Repr, DecidableEq

structure Scheduler where
  useCache : Bool := true
  /-- The digests of the texts whose scans finished, by path. -/
  digests : List (String × String) := []
  /-- The queue, the next document first; no path occurs twice. -/
  pending : List Waiting := []
  inFlight : Bool := false
  deriving Repr, DecidableEq

namespace Scheduler

/-- Was the last finished scan of this document one of the same text? -/
def isCached (s : Scheduler) (d : Document) : Bool :=
  s.useCache && s.digests.lookup d.path == some d.digest

def isSettled (s : Scheduler) (w : Waiting) : Bool :=
  !w.force && s.isCached w.document

def decision (s : Scheduler) (w : Waiting) : Decision :=
  if s.isSettled w then .skip
  else if s.inFlight then .wait
  else .start

/-- Puts a document into its place in the queue, or at the end if it has none. -/
def enqueue (queue : List Waiting) (w : Waiting) : List Waiting :=
  if queue.any (·.document.path == w.document.path) then
    queue.map fun q =>
      if q.document.path == w.document.path then ⟨w.document, q.force || w.force⟩ else q
  else queue ++ [w]

/-- The first document of a queue that has to be scanned, those before it that are dropped, and the
queue behind it. -/
def split (s : Scheduler) : List Waiting → List Document × Option Document × List Waiting
  | [] => ([], none, [])
  | w :: queue =>
    if s.isSettled w then
      let (dropped, next, rest) := split s queue
      (w.document :: dropped, next, rest)
    else ([], some w.document, queue)

def start (s : Scheduler) : Scheduler :=
  { s with inFlight := true }

/-- Takes the next document off the queue and begins its scan; also tells which documents were
dropped. -/
def take (s : Scheduler) : Scheduler × List Document × Option Document :=
  if s.inFlight then (s, [], none)
  else
    let (dropped, next, rest) := s.split s.pending
    ({ s with pending := rest, inFlight := next.isSome }, dropped, next)

/-- Ends a scan; the digest is kept if it succeeded. -/
def finish (s : Scheduler) (d : Document) (succeeded : Bool) : Scheduler :=
  { s with
    inFlight := false
    digests := if succeeded then Assoc.set s.digests d.path d.digest else s.digests }

def forget (s : Scheduler) (path : String) : Scheduler :=
  { s with digests := Assoc.erase s.digests path }

/-- Forgets all digests and the queue. A scan in flight goes on. -/
def clear (s : Scheduler) : Scheduler :=
  { s with digests := [], pending := [] }

end Scheduler

end DesignLint
