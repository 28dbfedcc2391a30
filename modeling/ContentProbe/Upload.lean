import ContentProbe.Store
import ContentProbe.Trace.Names

/-!
The measurement of an upload: adding content to a node and announcing it. The add interval spans the trace
of the add request. Once the content id is known, every trace with an anchor, which is an announcement of
its raw key, is tracked; the provide interval spans those traces, and the earliest anchor names one of them.
-/

namespace ContentProbe

/-- Joins failures in the order in which they came. -/
def joinError (earlier : Option String) (error : String) : Option String :=
  match earlier with
  | none => some error
  | some text => some (text ++ "; " ++ error)

/-- The first of the elements that no other element goes before. -/
def firstBy? {α : Type} (before : α → α → Bool) : List α → Option α
  | [] => none
  | a :: rest => some (rest.foldl (fun best x => if before x best then x else best) a)

/-- The announcement of content: the trace of its earliest anchor and the interval of all its traces. -/
structure Provide where
  trace : TraceId
  interval : Interval
  deriving DecidableEq, Repr

/-- The id of uploaded content and its raw key. -/
structure Published where
  contentId : String
  rawKey : String
  deriving DecidableEq, Repr

structure Upload where
  addTrace : TraceId
  fileSize : Nat
  published : Option Published
  add : Option Interval
  provide : Option Provide
  error : Option String
  store : Store
  populated : Bool
  frozen : Bool
  deriving DecidableEq, Repr

namespace Upload

/-- An upload of `fileSize` bytes under a trace. -/
def start (addTrace : TraceId) (fileSize : Nat) : Upload :=
  ⟨addTrace, fileSize, none, none, none, none, .tracking [addTrace], false, false⟩

def isAnchor (rawKey : String) (s : Span) : Bool :=
  s.name == Names.provide && s.attributes.hasString Names.provideKey rawKey

def anchors (rawKey : String) (store : Store) : List Span :=
  store.allSpans.filter (isAnchor rawKey)

/-- Earlier, or as early and of the lower trace id. -/
def anchorBefore (a b : Span) : Bool :=
  a.start < b.start || (a.start == b.start && a.trace.toNat < b.trace.toNat)

def trackAnchors (rawKey : String) (store : Store) : Store :=
  store.trackAll ((anchors rawKey store).map (·.trace))

/-- The announcement that the anchors of a store show, their traces being tracked. -/
def provideOf (rawKey : String) (store : Store) : Option Provide := do
  let found := anchors rawKey store
  let first ← firstBy? anchorBefore found
  let spans := (found.map (·.trace)).eraseDups.flatMap fun t => (store.tracked.get? t).getD []
  let interval ← Interval.ofSpans? spans
  return ⟨first.trace, interval⟩

def derive (u : Upload) : Upload :=
  let u := match u.published with
    | none => u
    | some p =>
        let store := trackAnchors p.rawKey u.store
        { u with store, provide := provideOf p.rawKey store }
  let add := u.store.traceInterval? u.addTrace
  { u with add, populated := u.populated || (add.isSome && u.provide.isSome) }

/-- Takes in a batch, unless the upload is frozen. -/
def ingest (u : Upload) (b : Wire.Batch) : Upload × Intake :=
  if u.frozen then (u, .zero)
  else
    let (store, intake) := u.store.ingest b
    (derive { u with store }, intake)

/-- Learns the content id and its raw key, unless the upload is frozen. -/
def publish (u : Upload) (contentId rawKey : String) : Upload :=
  if u.frozen then u else derive { u with published := some ⟨contentId, rawKey⟩ }

def fail (u : Upload) (error : String) : Upload := { u with error := joinError u.error error }

/-- Forgets pending spans and takes in nothing more. -/
def freeze (u : Upload) : Upload := { u with store := u.store.discardPending, frozen := true }

def isComplete (u : Upload) : Bool := u.populated

end Upload

end ContentProbe
