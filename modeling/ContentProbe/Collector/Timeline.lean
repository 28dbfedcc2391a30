import ContentProbe.Collector.Basic
import ContentProbe.Time.Tick

/-!
A collector under a clock. Exporters send batches to it, each one after the other, and whoever is in the
foreground waits for something to happen. The clock stands still while anyone can go on and then moves to
the next timer. Timers ring at whole milliseconds: the first one that is not before the instant they are
set to.
-/

namespace ContentProbe

open ContentProbe.Time

/-- A batch to send, not before an instant. The exporter may grant its call less time than the collector
does. -/
structure Export where
  due : Nat
  batch : Wire.Batch
  timeout : Option Nat
  deriving Repr

namespace Exporter

inductive Phase where
  | asleep (instant : Nat)
  | sending (call : Nat)
  | finished (instant : Nat)
  deriving DecidableEq, Repr

end Exporter

structure Exporter where
  started : Nat
  phase : Exporter.Phase
  rest : List Export
  deriving Repr

namespace Exporter

/-- Sends what is due, call after call, up to one that has to wait. -/
def proceed (now : Nat) : List Export → Collector → Collector × Phase × List Export
  | [], c => (c, .finished now, [])
  | e :: rest, c =>
      if now < e.due then (c, .asleep (tick e.due), e :: rest)
      else
        let call := c.calls
        let c := ((c.arrive e.batch e.timeout).scan call now).resume call now
        if c.isWaiting call then (c, .sending call, rest) else proceed now rest c

def run (now : Nat) (e : Exporter) (c : Collector) : Collector × Exporter :=
  let go (c : Collector) : Collector × Exporter :=
    let (c, phase, rest) := proceed now e.rest c
    (c, { e with phase, rest })
  match e.phase with
  | .finished _ => (c, e)
  | .asleep instant => if now < instant then (c, e) else go c
  | .sending call =>
      let c := c.resume call now
      if c.isWaiting call then (c, e) else go c

def isFinished (e : Exporter) : Bool :=
  match e.phase with
  | .finished _ => true
  | _ => false

def isSending (e : Exporter) (call : Nat) : Bool := e.phase == .sending call

/-- When the exporter goes on without being woken. -/
def timer? (c : Collector) (e : Exporter) : Option Nat :=
  match e.phase with
  | .finished _ => none
  | .asleep instant => some instant
  | .sending call => (c.waiting.find? (·.delivery.call == call)).map fun w => tick w.deadline

end Exporter

/-- A collector, its exporters by number, and those of them that can go on, in the order in which they
woke. The foreground may be `connected`, which keeps the way to the collector open. -/
structure Timeline where
  now : Nat
  collector : Collector
  exporters : List Exporter
  woken : List Nat
  connected : Bool
  deriving Repr

namespace Timeline

def start (c : Collector) : Timeline := ⟨0, c, [], [], true⟩

/-- Somebody may still send a batch. -/
def isOpen (t : Timeline) : Bool := t.connected || t.exporters.any (!·.isFinished)

def spawn (t : Timeline) (exports : List Export) : Timeline :=
  { t with
    exporters := t.exporters ++ [⟨t.now, .asleep t.now, exports⟩]
    woken := t.woken ++ [t.exporters.length] }

def numbersOf (t : Timeline) (which : Exporter → Bool) : List Nat :=
  (t.exporters.zipIdx.filter fun (e, _) => which e).map (·.2)

/-- The exporters, by number, that wait for calls. -/
def sendersOf (t : Timeline) (calls : List Nat) : List Nat :=
  calls.flatMap fun call => t.numbersOf (·.isSending call)

/-- The calls of a collector for which places are set aside. -/
def granted (c : Collector) : List Nat :=
  (c.waiting.filter (·.granted)).map (·.delivery.call)

/-- The collector moves on; exporters wake whose calls got places by it. -/
def moved (t : Timeline) (c : Collector) : Timeline :=
  let fresh := (granted c).filter fun call => !(granted t.collector).contains call
  { t with collector := c, woken := t.woken ++ t.sendersOf fresh }

def runOne (t : Timeline) (number : Nat) : Timeline :=
  match t.exporters[number]? with
  | none => t
  | some e =>
      let (collector, e) := e.run t.now t.collector
      { t with collector, exporters := t.exporters.set number e }

/-- Everyone who is awake goes on, in order. -/
def settle (t : Timeline) : Timeline := t.woken.foldl runOne { t with woken := [] }

def earliest (a b : Option Nat) : Option Nat :=
  match a, b with
  | some x, some y => some (min x y)
  | some x, none => some x
  | none, y => y

/-- The next timer of an exporter. -/
def timer? (t : Timeline) : Option Nat :=
  t.exporters.foldl (fun best e => earliest best (e.timer? t.collector)) none

/-- The clock moves, and the exporters wake whose timers ring. -/
def advance (t : Timeline) (instant : Nat) : Timeline :=
  { t with
    now := max t.now instant
    woken := t.woken ++ t.numbersOf fun e =>
      ((e.timer? t.collector).map (decide <| · ≤ instant)).getD false }

/-- What the foreground makes of its turn: it goes on, it has to wait, or it is done. -/
inductive Turn (σ α : Type) where
  | again (s : σ)
  | blocked (s : σ)
  | done (a : α)

/-- Lets the foreground take turns. When it has to wait, everyone who is awake goes on; when nobody is
awake, the clock moves to the next timer. -/
def turns {σ α : Type} (turn : Timeline → σ → Timeline × Turn σ α) (alarm : σ → Option Nat) :
    Nat → Timeline → σ → Timeline × Option α
  | 0, t, _ => (t, none)
  | fuel + 1, t, s =>
      match turn t s with
      | (t, .done a) => (t, some a)
      | (t, .again s) => turns turn alarm fuel t s
      | (t, .blocked s) =>
          if t.woken ≠ [] then turns turn alarm fuel t.settle s
          else match earliest (alarm s) t.timer? with
            | none => (t, none)
            | some instant => turns turn alarm fuel (t.advance instant) s

/-- A bound on what can still happen: every batch is sent, waits, times out and is taken once at most. -/
def work (t : Timeline) : Nat :=
  (t.exporters.map fun e => e.rest.length + 1).foldr (· + ·) 0 + t.collector.queue.length

def drive {σ α : Type} (turn : Timeline → σ → Timeline × Turn σ α) (alarm : σ → Option Nat)
    (t : Timeline) (s : σ) : Timeline × Option α :=
  turns turn alarm (8 * t.work + 64) t s

/-- Waits until an instant, unless something is found before. -/
def await {α : Type} (find : Timeline → Timeline × Turn Unit α) (limit : Option Nat)
    (t : Timeline) : Timeline × Option α :=
  let (t, found) := drive (α := Option α)
    (fun t _ =>
      match find t with
      | (t, .done a) => (t, .done (some a))
      | (t, .again _) => (t, .again ())
      | (t, .blocked _) =>
          if limit.any (· ≤ t.now) then (t, .done none) else (t, .blocked ()))
    (fun _ => limit) t ()
  (t, found.join)

def sleep (t : Timeline) (time : Nat) : Timeline :=
  (t.await (fun t => (t, Turn.blocked ())) (some (tick (t.now + time))) : Timeline × Option Unit).1

/-- Sleeps, and lets everyone who is awake then go on. Even a pause that takes no time does so. -/
def pause (t : Timeline) (time : Nat) : Timeline := (t.sleep time).settle

/-- Waits for an exporter to finish and tells how long it took. -/
def join (t : Timeline) (number : Nat) : Timeline × Option Nat :=
  t.await
    (fun t => (t, match t.exporters[number]? with
      | some ⟨started, .finished instant, _⟩ => .done (instant - started)
      | _ => .blocked ()))
    none

def acquire (t : Timeline) (limit : Option Nat) : Timeline × Option Nat :=
  t.await
    (fun t =>
      match t.collector.acquire with
      | some (session, c) => (t.moved c, .done session)
      | none => (t, .blocked ()))
    (limit.map fun time => tick (t.now + time))

/-- Waits for a match of the session. There is none to come once nobody can send. -/
def receive (t : Timeline) (limit : Option Nat) : Timeline × Option (Option Delivery) :=
  t.await
    (fun t =>
      match t.collector.receive with
      | .own d c => (t.moved c, .done (some d))
      | .foreign c => (t.moved c, .again ())
      | .nothing => (t, if t.isOpen then .blocked () else .done none))
    (limit.map fun time => tick (t.now + time))

end Timeline

end ContentProbe
