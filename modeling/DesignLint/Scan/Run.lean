import DesignLint.Scan.Scheduler

/-! Runs of the scheduler. The scans of a run are given beforehand: what is requested while each is
in flight, and how it ends. Requests made during a scan go through the same rules as others; that
none of them starts a scan is for the scheduler to see to, and a reply of its own would show it. -/

namespace DesignLint.Schedule

inductive Request
  | submit (document : Document) (force : Bool)
  | idle
  | forget (path : String)
  | clear
  | isCached (document : Document)
  | digest (document : Document)
  deriving Repr, DecidableEq

inductive Ending
  | success
  | failure
  /-- The scan breaks off for another reason than failure. -/
  | crash (kind message : String)
  deriving Repr, DecidableEq

def Ending.outcome : Ending → ScanOutcome
  | .success => .completed
  | _ => .failed

def Ending.succeeded : Ending → Bool
  | .success => true
  | _ => false

structure Scan where
  /-- What is requested while the scan is in flight. -/
  during : List Request := []
  ending : Ending := .success
  deriving Repr, DecidableEq

inductive Reply
  | outcome (o : ScanOutcome)
  /-- So many documents were scanned. -/
  | scanned (count : Nat)
  | done
  | cached (b : Bool)
  | digest (text : String)
  /-- The request was cut short by a scan that broke off. -/
  | crash (kind message : String)
  /-- A scan was to start while another was in flight. -/
  | overlap
  deriving Repr, DecidableEq

structure Answer where
  reply : Reply
  inFlight : Bool
  pending : Nat
  deriving Repr, DecidableEq

structure Call where
  document : Document
  during : List (Request × Answer) := []
  ending : Ending := .success
  deriving Repr, DecidableEq

inductive Event
  | scan (call : Call)
  /-- A document was taken off the queue and needed no scan. -/
  | drop (document : Document)
  deriving Repr, DecidableEq

def Event.call? : Event → Option Call
  | .scan call => some call
  | .drop _ => none

/-- What a request asks for beyond the scheduler itself. -/
inductive Verdict
  | reply (r : Reply)
  | scan (document : Document)
  | drain
  deriving Repr, DecidableEq

def serve (s : Scheduler) : Request → Scheduler × Verdict
  | .submit d force =>
    match s.decision ⟨d, force⟩ with
    | .skip => (s, .reply (.outcome .skipped))
    | .wait => ({ s with pending := Scheduler.enqueue s.pending ⟨d, force⟩ },
        .reply (.outcome .queued))
    | .start => (s.start, .scan d)
  | .idle => (s, if s.inFlight then .reply (.scanned 0) else .drain)
  | .forget path => (s.forget path, .reply .done)
  | .clear => (s.clear, .reply .done)
  | .isCached d => (s, .reply (.cached (s.isCached d)))
  | .digest d => (s, .reply (.digest d.digest))

def answer (s : Scheduler) (r : Reply) : Answer :=
  ⟨r, s.inFlight, s.pending.length⟩

def serveDuring (s : Scheduler) (r : Request) : Scheduler × Answer :=
  match serve s r with
  | (s, .reply reply) => (s, answer s reply)
  | (s, .scan _) => (s, answer s .overlap)
  | (s, .drain) => (s, answer s .overlap)

def serveAll (s : Scheduler) : List Request → Scheduler × List (Request × Answer)
  | [] => (s, [])
  | r :: rs =>
    let (s, a) := serveDuring s r
    let (s, as) := serveAll s rs
    (s, (r, a) :: as)

def scan (s : Scheduler) (d : Document) (e : Scan) : Scheduler × Call :=
  let (s, answers) := serveAll s e.during
  (s.finish d e.ending.succeeded, ⟨d, answers, e.ending⟩)

/-- What became of a request, and the scans that are still to come. -/
structure Result where
  scheduler : Scheduler
  scans : List Scan
  events : List Event := []
  /-- How the scan ended that broke off. -/
  crash : Option (String × String) := none
  deriving Repr

def crash? : Ending → Option (String × String)
  | .crash kind message => some (kind, message)
  | _ => none

/-- Takes one document off the queue; its scan succeeds at once. -/
def drainOne (s : Scheduler) (w : Waiting) : Scheduler × Event :=
  if s.isSettled w then (s, .drop w.document)
  else (s.finish w.document true, .scan ⟨w.document, [], .success⟩)

def drainAll (s : Scheduler) : List Waiting → Scheduler × List Event
  | [] => (s, [])
  | w :: queue =>
    let (s, event) := drainOne s w
    let (s, events) := drainAll s queue
    (s, event :: events)

/-- Empties the queue, one scan after the other, until it is empty or a scan breaks off. A scan that
is not given succeeds at once. -/
def drain (s : Scheduler) : List Scan → Result
  | [] =>
    let (s, events) := drainAll { s with pending := [] } s.pending
    ⟨s, [], events, none⟩
  | e :: scans =>
    match s.take with
    | (s, dropped, none) => ⟨s, e :: scans, dropped.map .drop, none⟩
    | (s, dropped, some d) =>
      let (s, call) := scan s d e
      let events := dropped.map Event.drop ++ [.scan call]
      match crash? e.ending with
      | some crash => ⟨s, scans, events, some crash⟩
      | none =>
        let rest := drain s scans
        { rest with events := events ++ rest.events }

/-- A scan and all that it left in the queue. -/
def scanAndDrain (s : Scheduler) (d : Document) (e : Scan) (scans : List Scan) : Result :=
  let (s, call) := scan s d e
  match crash? e.ending with
  | some crash => ⟨s, scans, [.scan call], some crash⟩
  | none =>
    let rest := drain s scans
    { rest with events := .scan call :: rest.events }

def Result.calls (r : Result) : List Call :=
  r.events.filterMap Event.call?

def Result.reply (r : Result) (whole : Reply) : Reply :=
  match r.crash with
  | some (kind, message) => .crash kind message
  | none => whole

/-- A request made while no scan is in flight. -/
def request (s : Scheduler) (scans : List Scan) (r : Request) : Result × Reply :=
  match serve s r with
  | (s, .reply reply) => (⟨s, scans, [], none⟩, reply)
  | (s, .scan d) =>
    let e := scans.head?.getD {}
    let result := scanAndDrain s d e scans.tail
    (result, result.reply (.outcome e.ending.outcome))
  | (s, .drain) =>
    let result := drain s scans
    (result, result.reply (.scanned result.calls.length))

def run (s : Scheduler) (scans : List Scan) : List Request → List (Result × Reply)
  | [] => []
  | r :: rs =>
    let (result, reply) := request s scans r
    (result, reply) :: run result.scheduler result.scans rs

end DesignLint.Schedule
