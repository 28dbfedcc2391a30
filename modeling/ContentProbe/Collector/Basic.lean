import ContentProbe.Collector.Registry
import ContentProbe.Record.Ledger
import ContentProbe.Trace.Dump

/-!
The collector of trace batches, as a state with one function for each step that happens at once. Batches
come in export calls: a call arrives, its batch is scanned, and a match waits for a place in a bounded
queue or gives up at its deadline. One session at a time claims the queue, registers matchers and takes
matches; it ends by clearing the registry first and giving up its claim afterwards. Instants and lengths of
time are nanoseconds.
-/

namespace ContentProbe

/-- The batch of an export call on its way to a session, with the first matcher that it satisfied. -/
structure Delivery where
  call : Nat
  index : Nat
  session : Nat
  batch : Wire.Batch
  deriving Repr, Inhabited

namespace Collector

/-- A call that is counted and not scanned yet. -/
structure Arrival where
  call : Nat
  batch : Wire.Batch
  limit : Nat
  deriving Repr

/-- A call whose match is not in the queue yet. It may have a free place set aside for it. -/
structure Waiting where
  delivery : Delivery
  deadline : Nat
  granted : Bool
  deriving Repr

/-- What became of calls: counted, scanned, put into the queue, given up. -/
structure Counters where
  received : Nat
  scanned : Nat
  forwarded : Nat
  dropped : Nat
  deriving DecidableEq, Repr

/-- Who may take from the queue. A session that is ending has cleared the registry. -/
inductive Claim where
  | free
  | held (session : Nat)
  | ending (session : Nat)
  deriving DecidableEq, Repr

end Collector

open Collector

structure Collector where
  capacity : Nat
  sendLimit : Nat
  registry : Registry
  claim : Claim
  sessions : Nat
  calls : Nat
  arrived : List Arrival
  waiting : List Waiting
  queue : List Delivery
  closed : Bool
  counters : Counters
  dumps : Option Directory
  deriving Repr

namespace Collector

/-- A collector that nothing has happened to. With a directory it writes every batch to a file there. -/
def start (queueSize sendLimit : Nat) (dumps : Option Directory) : Collector :=
  ⟨max 1 queueSize, sendLimit, .empty, .free, 0, 0, [], [], [], false, ⟨0, 0, 0, 0⟩, dumps⟩

/-- The calls that have a place set aside. -/
def grants (c : Collector) : Nat := (c.waiting.filter (·.granted)).length

/-- The places of the queue that nobody has. -/
def freePlaces (c : Collector) : Nat := c.capacity - (c.queue.length + c.grants)

def isWaiting (c : Collector) (call : Nat) : Bool := c.waiting.any (·.delivery.call == call)

/-! Export calls -/

/-- The answer to an export call. -/
structure Acknowledgement where
  rejected : Nat
  message : String
  deriving DecidableEq, Repr

/-- Every call is acknowledged as a whole, whatever became of its batch. -/
def acknowledgement : Acknowledgement := ⟨0, ""⟩

/-- A call arrives. It waits no longer than the caller grants and never longer than the send limit. -/
def arrive (c : Collector) (batch : Wire.Batch) (granted : Option Nat) : Collector :=
  let limit := match granted with
    | some t => min t c.sendLimit
    | none => c.sendLimit
  { c with
    calls := c.calls + 1
    arrived := c.arrived ++ [⟨c.calls, batch, limit⟩]
    counters := { c.counters with received := c.counters.received + 1 }
    dumps := c.dumps.map fun d => d.replace (Wire.dumpName c.calls) batch.dump }

/-- The batch of a call is scanned. A match gets a place set aside if one is free, and stands in line
otherwise. -/
def scan (c : Collector) (call now : Nat) : Collector :=
  match c.arrived.find? (·.call == call) with
  | none => c
  | some a =>
      let arrived := c.arrived.filter (·.call != call)
      let scanned := { c.counters with scanned := c.counters.scanned + 1 }
      match c.registry.scan a.batch with
      | .skipped => { c with arrived }
      | .unmatched => { c with arrived, counters := scanned }
      | .matched index session =>
          { c with
            arrived
            counters := scanned
            waiting := c.waiting ++
              [⟨⟨call, index, session, a.batch⟩, now + a.limit, decide (0 < c.freePlaces)⟩] }

/-- The match of a call gives up. -/
def drop (c : Collector) (call : Nat) : Collector :=
  { c with
    waiting := c.waiting.filter (·.delivery.call != call)
    counters := { c.counters with dropped := c.counters.dropped + 1 } }

/-- A match takes the place that is set aside for its call. -/
def enqueue (c : Collector) (d : Delivery) : Collector :=
  { c with
    waiting := c.waiting.filter (·.delivery.call != d.call)
    queue := c.queue ++ [d]
    counters := { c.counters with forwarded := c.counters.forwarded + 1 } }

/-- A waiting call looks around: nobody takes from a closed queue, a place that is set aside is taken even
at the deadline, and after the deadline the match is dropped. -/
def resume (c : Collector) (call now : Nat) : Collector :=
  match c.waiting.find? (·.delivery.call == call) with
  | none => c
  | some w =>
      if c.closed then c.drop call
      else if w.granted then c.enqueue w.delivery
      else if w.deadline ≤ now then c.drop call
      else c

/-! Sessions -/

/-- A new session claims the queue, unless another one has it. Sessions are numbered from 1. -/
def acquire (c : Collector) : Option (Nat × Collector) :=
  match c.claim with
  | .free =>
      let session := c.sessions + 1
      some (session, { c with claim := .held session, sessions := session })
  | _ => none

/-- Matchers are registered in the name of a session and replace all others. -/
def registerFor (c : Collector) (session : Nat) (matchers : List Matcher) : Collector :=
  { c with registry := ⟨session, matchers⟩ }

/-- The registry is cleared, whoever has filled it. -/
def clear (c : Collector) : Collector := { c with registry := .empty }

/-- A session begins to end: it clears the registry and keeps the claim. -/
def retire (c : Collector) (session : Nat) : Collector := { c.clear with claim := .ending session }

/-- The claim is given up, whoever has it. -/
def unlock (c : Collector) : Collector := { c with claim := .free }

/-- The session in progress replaces its matchers. -/
def register (c : Collector) (matchers : List Matcher) : Collector :=
  match c.claim with
  | .held session => c.registerFor session matchers
  | _ => c

/-- The session in progress withdraws its matchers. -/
def reset (c : Collector) : Collector :=
  match c.claim with
  | .held _ => c.clear
  | _ => c

def leave (c : Collector) : Collector :=
  match c.claim with
  | .held session => c.retire session
  | _ => c

def release (c : Collector) : Collector :=
  match c.claim with
  | .ending _ => c.unlock
  | _ => c

/-- Nobody will take from the queue again. -/
def close (c : Collector) : Collector := { c with closed := true }

/-- A place is set aside for the first in line. -/
def grantFirst : List Waiting → List Waiting
  | [] => []
  | w :: rest => if w.granted then w :: grantFirst rest else { w with granted := true } :: rest

/-- The oldest match leaves the queue, and its place goes to the first in line. -/
def take (c : Collector) : Option (Delivery × Collector) :=
  match c.queue with
  | [] => none
  | d :: queue => some (d, { c with queue, waiting := grantFirst c.waiting })

/-- What a session finds when it takes a match: one of its own, or one of an earlier session, which is
thrown away. -/
inductive Reception where
  | own (d : Delivery) (c : Collector)
  | foreign (c : Collector)
  | nothing

def receive (c : Collector) : Reception :=
  match c.take with
  | none => .nothing
  | some (d, after) => if c.claim = .held d.session then .own d after else .foreign after

end Collector

end ContentProbe
