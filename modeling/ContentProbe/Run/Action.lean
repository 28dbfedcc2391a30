import ContentProbe.ContentId.Basic
import ContentProbe.Download
import ContentProbe.Text.Quoted
import ContentProbe.Time.Tick

/-!
The measured action of a probe: handing content to a node, or reading a payload from it. Lengths of time are
nanoseconds from the start of the action. An action that has not ended when the timer of its time limit rings
ends there, and one that ends just then still ends by itself. A payload is read up to a limit of bytes, and
what was read before a failure or the time limit is kept.
-/

namespace ContentProbe

open ContentProbe.Text ContentProbe.Time

inductive ActionFault where
  | timeout (limit : Nat)
  | contentId (text : String) (reason : ContentId.Fault)
  | failed (text : String)
  deriving DecidableEq, Repr

def ActionFault.message : ActionFault → String
  | .timeout limit => "action timed out after " ++ elapsedText limit
  | .contentId text reason => "invalid content id " ++ quoted text ++ ": " ++ reason.message
  | .failed text => text

/-- Something that comes a while after the start. -/
structure Timed (α : Type) where
  after : Nat
  value : α
  deriving DecidableEq, Repr

/-- The time limit of an action that begins at an instant. Its timer may take longer than the limit. -/
def timeLimit (begin limit : Nat) : Timed ActionFault := ⟨tick (begin + limit) - begin, .timeout limit⟩

/-- The end of an action under a time limit. -/
def Timed.within {α : Type} (t : Timed (Except ActionFault α)) (limit : Timed ActionFault) :
    Timed (Except ActionFault α) :=
  if t.after ≤ limit.after then t else ⟨limit.after, .error limit.value⟩

/-- The raw key of the content id that a node gave. -/
def keyOf (contentId : String) : Except ActionFault Published :=
  match ContentId.rawKey contentId with
  | .ok rawKey => .ok ⟨contentId, rawKey⟩
  | .error reason => .error (.contentId contentId reason)

/-- A piece of a payload: its length, or the failure that ends it. -/
inductive Chunk where
  | bytes (size : Nat)
  | fault (f : ActionFault)
  deriving DecidableEq, Repr

/-- A payload: its node fails to open it or opens it, and each chunk comes a while after what came before. It
ends with its last chunk; one that ends later has an empty chunk there. -/
structure Payload where
  opens : Timed (Except ActionFault (List (Timed Chunk)))

/-- A transfer that has ended, and why it failed. -/
structure Fetch where
  transfer : Transfer
  fault : Option ActionFault
  deriving DecidableEq, Repr

/-- What has been read of a payload. -/
structure Reading where
  firstByte : Option Nat
  size : Nat
  deriving DecidableEq, Repr

/-- The sum of two lengths in a word, which stays at the highest number of the word instead of passing it. -/
def cappedSum (a b : Nat) : Nat := min (a + b) (Nat.pow 2 64 - 1)

namespace Reading

def nothing : Reading := ⟨none, 0⟩

/-- Takes in bytes at an instant, up to a limit. -/
def add (r : Reading) (maxBytes now size : Nat) : Reading :=
  ⟨some (r.firstByte.getD now), min maxBytes (cappedSum r.size size)⟩

def endAt (r : Reading) (now : Nat) (fault : Option ActionFault) : Fetch :=
  ⟨⟨r.firstByte, now, r.size⟩, fault⟩

end Reading

/-- Reads chunks from an instant on. Empty chunks count for nothing. -/
def readChunks (maxBytes : Nat) (limit : Timed ActionFault) : Nat → Reading → List (Timed Chunk) → Fetch
  | now, r, [] => r.endAt now none
  | now, r, c :: rest =>
      let now := now + c.after
      if limit.after < now then r.endAt limit.after (some limit.value)
      else match c.value with
        | .fault f => r.endAt now (some f)
        | .bytes 0 => readChunks maxBytes limit now r rest
        | .bytes size =>
            let r := r.add maxBytes now size
            if maxBytes ≤ r.size then r.endAt now none
            else readChunks maxBytes limit now r rest

/-- Reads a payload under a limit of bytes and a limit of time. -/
def Payload.read (maxBytes : Nat) (limit : Timed ActionFault) (p : Payload) : Fetch :=
  let opened := p.opens.within limit
  match opened.value with
  | .error f => Reading.nothing.endAt opened.after (some f)
  | .ok chunks => readChunks maxBytes limit opened.after .nothing chunks

end ContentProbe
