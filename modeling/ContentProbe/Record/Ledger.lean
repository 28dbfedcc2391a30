import ContentProbe.Record.Codec
import ContentProbe.Record.Location

/-!
Where records are kept. A ledger is a pair of files, one for uploads and one for downloads, whose names
share a stem and are relative to a directory; each record is one line at the end of its file, and opening
a ledger again keeps what the files hold. Other sinks keep nothing.
-/

namespace ContentProbe

open ContentProbe.Text ContentProbe.Time

/-- A directory with the texts of files by name, in the order in which they were created. A file that
lies elsewhere goes by its path. -/
structure Directory where
  trail : Trail
  files : List (String × String)
  deriving DecidableEq, Repr

namespace Directory

def empty (trail : Trail) : Directory := ⟨trail, []⟩

def text? (d : Directory) (name : String) : Option String := d.files.lookup name

def touch (d : Directory) (name : String) : Directory :=
  if (d.text? name).isSome then d else { d with files := d.files ++ [(name, "")] }

def append (d : Directory) (name text : String) : Directory :=
  { d with files := d.files.map fun (n, t) => if n = name then (n, t ++ text) else (n, t) }

/-- A file comes to hold a text and nothing else, whatever it held before. -/
def replace (d : Directory) (name text : String) : Directory :=
  { d with files := (d.touch name).files.map fun (n, t) => if n = name then (n, text) else (n, t) }

/-- The files that lie in the directory, in the order of their names. -/
def listing (d : Directory) : List (String × String) :=
  (d.files.filter fun (name, _) => !name.toList.contains '/').mergeSort fun a b => !(b.1 < a.1)

end Directory

inductive Record where
  | upload (r : UploadRecord)
  | download (r : DownloadRecord)

def Record.encode : Record → String
  | .upload r => r.encode
  | .download r => r.encode

/-- Records are kept in the files of a ledger, or not at all. -/
inductive Sink where
  | nothing
  | ledger (uploads downloads : String)
  deriving DecidableEq, Repr

namespace Sink

def uploadsName (stem : String) : String := stem ++ "_uploads.ndjson"

def downloadsName (stem : String) : String := stem ++ "_downloads.ndjson"

/-- The stem of a ledger that is created at a time: the time to the minute. -/
def stemOf (t : Stamp) : String := String.ofList ((t.render.take 16).filter (· ≠ ':'))

def write (s : Sink) (d : Directory) (r : Record) : Directory :=
  match s with
  | .nothing => d
  | .ledger uploads downloads =>
      let name := match r with
        | .upload _ => uploads
        | .download _ => downloads
      d.append name (r.encode ++ "\n")

end Sink

/-- Opens the ledger of a stem. Both of its files are there from the start. -/
def Directory.openLedger (d : Directory) (stem : String) : Except Trail.Fault (Sink × Directory) := do
  let uploads ← d.trail.locate (Sink.uploadsName stem)
  let downloads ← d.trail.locate (Sink.downloadsName stem)
  return (.ledger uploads downloads, (d.touch uploads).touch downloads)

end ContentProbe
