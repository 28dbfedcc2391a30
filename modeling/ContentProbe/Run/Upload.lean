import ContentProbe.Run.Action
import ContentProbe.Run.Turn
import ContentProbe.Settings.Collector
import ContentProbe.Upload

/-!
The run of an upload. It arms matchers for its trace and for announcements of content, and hands the
content to the node. When the action ends, the drain begins; when it ended with a content id, the matchers
ask for announcements of its raw key from then on. The run ends when the upload is complete, when the timer
of the drain rings, or when it is cancelled.
-/

namespace ContentProbe

open ContentProbe.Time

/-- An upload in progress: its measurement, and either the action with its end or the end of the drain. -/
structure UploadRun where
  upload : Upload
  action : Option (Timed (Except ActionFault String))
  deadline : Nat

namespace UploadRun

/-- The matchers before the content id is known. -/
def armed (trace : TraceId) : List Matcher := [.traceId trace, .name Names.provide]

/-- The matchers for a raw key. -/
def rearmed (trace : TraceId) (rawKey : String) : List Matcher :=
  [.traceId trace, .attribute Names.provideKey rawKey]

/-- The run of a session that has just begun. The action is timed from `now`. -/
def start (s : RunSettings) (now : Nat) (trace : TraceId) (size : Nat)
    (action : Timed (Except ActionFault String)) (c : Collector) : Collector × UploadRun :=
  let bounded := action.within (timeLimit now s.uploadAction)
  (c.register (armed trace),
    ⟨Upload.start trace size, some ⟨now + bounded.after, bounded.value⟩, 0⟩)

/-- The next instant at which the run has something to do: the end of the action, or that at which the timer of
the drain rings. -/
def alarm (r : UploadRun) : Nat :=
  match r.action with
  | some a => a.after
  | none => tick r.deadline

def finish (c : Collector) (u : Upload) : RunTurn UploadRun Upload :=
  .finished c.reset.dismiss (.ok u.freeze)

def proceed (c : Collector) (r : UploadRun) : RunTurn UploadRun Upload :=
  if r.upload.isComplete then finish c r.upload else .next c r

def settle (drain now : Nat) (outcome : Except ActionFault String) (c : Collector) (r : UploadRun) :
    RunTurn UploadRun Upload :=
  let r := { r with action := none, deadline := now + drain }
  match outcome >>= keyOf with
  | .ok p =>
      proceed (c.register (rearmed r.upload.addTrace p.rawKey))
        { r with upload := r.upload.publish p.contentId p.rawKey }
  | .error f => proceed c { r with upload := r.upload.fail f.message }

def collect (m : Moment) (c : Collector) (r : UploadRun) : RunTurn UploadRun Upload :=
  match c.receive with
  | .own d c => proceed c { r with upload := (r.upload.ingest d.batch).1 }
  | .foreign c => .next c r
  | .nothing => if m.isOpen then .blocked else .finished c.dismiss (.error .channelClosed)

def turn (s : RunSettings) (m : Moment) (c : Collector) (r : UploadRun) : RunTurn UploadRun Upload :=
  if m.cancelled then finish c (r.upload.fail cancelledText)
  else match r.action with
    | some a =>
        if a.after ≤ m.now then settle s.uploadDrain m.now a.value c r else collect m c r
    | none => if tick r.deadline ≤ m.now then finish c r.upload else collect m c r

end UploadRun

end ContentProbe
