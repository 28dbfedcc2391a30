import ContentProbe.Collector.Basic
import ContentProbe.Settings.Collector
import ContentProbe.Settings.Endpoint
import ContentProbe.Time.Elapsed

/-!
Opening a collector from its settings. Batches may be written to a directory, which is made if it is
missing and must not be a file. An endpoint that batches go on to has to be one.
-/

namespace ContentProbe.Collector

open ContentProbe.Time

/-- What stands where batches are to be written: a directory, a file, or nothing by the time of the first
batch, which is then not written. -/
inductive DumpPlace where
  | directory (d : Directory)
  | file
  | vanished

inductive Fault where
  | fileInPlace
  | endpoint
  deriving DecidableEq, Repr

def Fault.message : Fault → String
  | .fileInPlace => "File exists (os error 17)"
  | .endpoint => "trace receiver transport failed: invalid URI"

def dumpsTo? (s : CollectorSettings) (place : DumpPlace) : Except Fault (Option Directory) :=
  match s.dumpDirectory, place with
  | none, _ => .ok none
  | some _, .directory d => .ok (some d)
  | some _, .file => .error .fileInPlace
  | some _, .vanished => .ok none

def build (s : CollectorSettings) (place : DumpPlace) : Except Fault Collector := do
  let dumps ← dumpsTo? s place
  if s.forwardEndpoint.any (!Endpoint.isValid ·) then throw .endpoint
  return .start s.queueSize s.sendTimeout dumps

end ContentProbe.Collector
