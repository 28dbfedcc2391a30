import ContentProbe.Collector.Timeline
import ContentProbe.Run.Download
import ContentProbe.Run.Upload

/-!
Probes under a clock. A probe waits for the session, begins its run and lets it take turns; while the run has
nothing to do, the exporters go on and the clock moves. The action is invoked at the first turn, unless the
probe is cancelled by then, and with it the exports that the action causes begin.
-/

namespace ContentProbe

open ContentProbe.Time

/-- An export that follows an action, by the time from the invocation to it. -/
structure Aftermath where
  exports : List (Timed (Wire.Batch × Option Nat))
  /-- The exports own the last way to the collector, which closes after them. -/
  isLast : Bool

/-- How a probe went: its outcome, how long it took, and whether the action was invoked. -/
structure ProbeReport (α : Type) where
  outcome : Except RunFault α
  elapsed : Nat
  invoked : Bool

namespace Timeline

/-- The probes are cancelled from an instant on. -/
def isCancelled (cancelAt : Option Nat) (t : Timeline) : Bool := cancelAt.any (· ≤ t.now)

/-- The exports of an action begin, if there is a way to the collector. -/
def invoke (a : Aftermath) (t : Timeline) : Timeline :=
  if t.connected then
    let t := t.spawn (a.exports.map fun e => ⟨t.now + e.after, e.value.1, e.value.2⟩)
    { t with connected := !a.isLast }
  else t

def runTurn {σ α : Type} (cancelAt : Option Nat)
    (turn : Moment → Collector → σ → RunTurn σ α) (t : Timeline) (run : σ) :
    Timeline × Turn σ (Except RunFault α) :=
  match turn ⟨t.now, t.isCancelled cancelAt, t.isOpen⟩ t.collector run with
  | .blocked => (t, .blocked run)
  | .next c run => (t.moved c, .again run)
  | .finished c outcome => (t.moved c, .done outcome)

/-- There is no report of a probe that waits for the session for ever. -/
def probe {σ α : Type} (cancelAt : Option Nat) (a : Aftermath)
    (start : Nat → Collector → Collector × σ) (alarm : σ → Nat)
    (turn : Moment → Collector → σ → RunTurn σ α) (t : Timeline) :
    Timeline × Option (ProbeReport α) :=
  let begun := t.now
  match t.acquire none with
  | (t, none) => (t, none)
  | (t, some _) =>
      let (c, run) := start t.now t.collector
      let t := t.moved c
      let invoked := !t.isCancelled cancelAt
      let t := if invoked then t.invoke a else t
      let pendingCancel := cancelAt.filter (t.now < ·)
      let (t, outcome) := t.drive (runTurn cancelAt turn)
        (fun run => earliest (some (alarm run)) pendingCancel) run
      (t, outcome.map fun outcome => ⟨outcome, t.now - begun, invoked⟩)

def upload (s : RunSettings) (cancelAt : Option Nat) (trace : TraceId) (size : Nat)
    (action : Timed (Except ActionFault String)) (a : Aftermath) (t : Timeline) :
    Timeline × Option (ProbeReport Upload) :=
  t.probe cancelAt a (fun now c => UploadRun.start s now trace size action c) UploadRun.alarm
    (UploadRun.turn s)

def download (s : RunSettings) (cancelAt : Option Nat) (wallClock : Nat) (trace : TraceId)
    (contentId : String) (payload : Payload) (a : Aftermath) (t : Timeline) :
    Timeline × Option (ProbeReport Download) :=
  t.probe cancelAt a (fun now c => DownloadRun.start s now (wallClock + now) trace contentId payload c)
    DownloadRun.alarm (DownloadRun.turn s)

end Timeline

end ContentProbe
