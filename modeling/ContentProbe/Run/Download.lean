import ContentProbe.Run.Action
import ContentProbe.Run.Turn
import ContentProbe.Settings.Collector
import ContentProbe.Trace.Names

/-!
The run of a download. It arms matchers for its trace, for provider searches and for queries to an index,
and reads the payload. The drain runs from the start; the end of the transfer and the first match put its
deadline off to a tail wait from then, if that is later. The run ends when the download is complete, when
the timer of the deadline rings, or when it is cancelled.
-/

namespace ContentProbe

open ContentProbe.Time

/-- A download in progress: its measurement, the transfer with the instant of its end until it has ended,
the end of the drain, and whether a match has come. -/
structure DownloadRun where
  download : Download
  transfer : Option (Timed Fetch)
  deadline : Nat
  seen : Bool

namespace DownloadRun

def armed (trace : TraceId) : List Matcher :=
  [.traceId trace, .name Names.findProviders, .name Names.indexQuery]

/-- The run of a session that has just begun. The payload is timed from `now`; `wallClock` is the same
instant in nanoseconds after the start of 1970. -/
def start (s : RunSettings) (now wallClock : Nat) (trace : TraceId) (contentId : String)
    (payload : Payload) (c : Collector) : Collector × DownloadRun :=
  let fetch := payload.read s.maxBytes (timeLimit now s.downloadAction)
  (c.register (armed trace),
    ⟨Download.ofContent contentId trace wallClock, some ⟨now + fetch.transfer.duration, fetch⟩,
      now + s.downloadDrain, false⟩)

/-- The next instant at which the run has something to do: the end of the transfer, or that at which the timer
of the deadline rings. -/
def alarm (r : DownloadRun) : Nat :=
  match r.transfer with
  | some t => min t.after (tick r.deadline)
  | none => tick r.deadline

def finish (c : Collector) (d : Download) : RunTurn DownloadRun Download :=
  .finished c.reset.dismiss (.ok d.freeze)

def proceed (c : Collector) (r : DownloadRun) : RunTurn DownloadRun Download :=
  if r.download.isComplete then finish c r.download else .next c r

/-- Puts the deadline off to an instant. It never becomes earlier. -/
def postpone (instant : Nat) (r : DownloadRun) : DownloadRun :=
  { r with deadline := max r.deadline instant }

def settle (tail now : Nat) (f : Fetch) (c : Collector) (r : DownloadRun) :
    RunTurn DownloadRun Download :=
  let download := match f.fault with
    | some fault => r.download.fail fault.message
    | none => r.download
  proceed c (postpone (now + tail) { r with download := download.finish f.transfer, transfer := none })

def collect (tail : Nat) (m : Moment) (c : Collector) (r : DownloadRun) :
    RunTurn DownloadRun Download :=
  match c.receive with
  | .own d c =>
      let r := { r with download := (r.download.ingest d.batch).1 }
      proceed c (if r.seen then r else postpone (m.now + tail) { r with seen := true })
  | .foreign c => .next c r
  | .nothing => if m.isOpen then .blocked else .finished c.dismiss (.error .channelClosed)

/-- What a turn does when the action has nothing to tell. -/
def drain (tail : Nat) (m : Moment) (c : Collector) (r : DownloadRun) : RunTurn DownloadRun Download :=
  if tick r.deadline ≤ m.now then finish c r.download else collect tail m c r

def turn (s : RunSettings) (m : Moment) (c : Collector) (r : DownloadRun) :
    RunTurn DownloadRun Download :=
  if m.cancelled then finish c (r.download.fail cancelledText)
  else match r.transfer with
    | some t => if t.after ≤ m.now then settle s.tailWait m.now t.value c r else drain s.tailWait m c r
    | none => drain s.tailWait m c r

end DownloadRun

end ContentProbe
