import ContentProbe.Node.Client
import ContentProbe.Run.Loop
import ContentProbe.Run.Probe

/-!
A station for the loop of probes: a driver of probes under a clock, the client of the node at which they act,
and a sink that keeps records one after the other.
-/

namespace ContentProbe

open ContentProbe.Time

/-- The state of a probe loop at its station: the clock with the collector that receives traces, the node, the
records in the sink, and how many probes there were. -/
structure Scene (ν κ : Type) where
  timeline : Timeline
  node : ν
  records : κ
  probes : Nat

/-- What a probe loop is fitted out with: the settings of its driver, the client of the node, the trace context
of each probe and the name for its pin, by the number of the probe, the content of uploads, the wall clock at
the start, the instant of the shutdown, if there is one, and the sink. -/
structure Outfit (ν κ ε : Type) where
  settings : RunSettings
  node : Node ν
  context : Nat → ProbeContext
  pinName : Nat → String
  content : List UInt8
  wallClock : Nat
  cancelAt : Option Nat
  keep : Record → κ → Except ε κ

namespace Outfit

variable {ν κ ε : Type}

def isCancelled (o : Outfit ν κ ε) (s : Scene ν κ) : Bool := s.timeline.isCancelled o.cancelAt

/-- What the exports of an action are here: none that a clock would know. -/
def noExports : Aftermath := ⟨[], false⟩

/-- The outcome of a probe. One that waits for the session for ever, as no probe of a loop does, would be one that
nobody sends a match to. -/
def outcomeOf {α : Type} (r : Option (ProbeReport α)) : Except RunFault α :=
  match r with
  | some r => r.outcome
  | none => .error .channelClosed

/-- An upload. A probe that is cancelled before it begins asks the node for nothing. -/
def upload (o : Outfit ν κ ε) (s : Scene ν κ) : Except RunFault Upload × Scene ν κ :=
  let context := o.context s.probes
  let (action, node) :=
    if o.isCancelled s then (⟨0, .error (.failed cancelledText)⟩, s.node)
    else o.node.upload context (o.pinName s.probes) o.content s.node
  let (timeline, report) :=
    s.timeline.upload o.settings o.cancelAt context.trace o.content.length action noExports
  (outcomeOf report, { s with timeline, node, probes := s.probes + 1 })

def download (o : Outfit ν κ ε) (contentId : String) (s : Scene ν κ) :
    Except RunFault Download × Scene ν κ :=
  let context := o.context s.probes
  let (payload, node) :=
    if o.isCancelled s then (⟨⟨0, .error (.failed cancelledText)⟩⟩, s.node)
    else o.node.download context contentId s.node
  let (timeline, report) :=
    s.timeline.download o.settings o.cancelAt o.wallClock context.trace contentId payload noExports
  (outcomeOf report, { s with timeline, node, probes := s.probes + 1 })

def station (o : Outfit ν κ ε) : Station (Scene ν κ) ε where
  now s := s.timeline.now
  isCancelled := o.isCancelled
  reset s :=
    let (outcome, node) := o.node.reset s.node
    (outcome, { s with node })
  waitUntil instant s := { s with timeline := s.timeline.sleep (instant - s.timeline.now) }
  upload s :=
    let (outcome, s) := o.upload s
    (outcome.mapError .run, s)
  download contentId s :=
    let (outcome, s) := o.download contentId s
    (outcome.mapError .run, s)
  keep record s :=
    match o.keep record s.records with
    | .ok records => (.ok (), { s with records })
    | .error e => (.error e, s)

end Outfit

end ContentProbe
