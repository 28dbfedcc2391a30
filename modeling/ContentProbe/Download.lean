import ContentProbe.Upload

/-!
The measurement of a download. Besides the trace of the request it tracks every trace with an anchor, which
is a search for providers of the content id. From the anchors come the providers found and connected to, from
the search traces the earliest query to an index, and from the request the first block and the broadcast
that asked for it. Once the request is handled the way in which the content was discovered is known: what
began before the first block came.
-/

namespace ContentProbe

/-- How the provider of the first block was found. -/
inductive Discovery where
  | routing
  | index
  | broadcast
  deriving DecidableEq, Repr

/-- The provider connected to first, among those that were found. -/
structure FirstProvider where
  peer : String
  foundAt : Nat
  connectedAt : Nat
  deriving DecidableEq, Repr

structure Providers where
  found : Nat
  connected : Nat
  first : Option FirstProvider
  deriving DecidableEq, Repr

structure IndexQuery where
  start : Nat
  finish : Nat
  status : Option Int64
  deriving DecidableEq, Repr

/-- The end of a payload transfer: the time to its first byte and its length, in nanoseconds from its
start, and its bytes. -/
structure Transfer where
  firstByte : Option Nat
  duration : Nat
  size : Nat
  deriving DecidableEq, Repr

/-- A download that began at `start` nanoseconds after the start of 1970. -/
structure Download where
  contentId : String
  catTrace : TraceId
  start : Nat
  transfer : Option Transfer
  providers : Providers
  idleBroadcast : Option Nat
  indexQuery : Option IndexQuery
  firstBlock : Option Nat
  discovery : Option Discovery
  done : Bool
  error : Option String
  store : Store
  frozen : Bool
  deriving DecidableEq, Repr

namespace Download

def ofContent (contentId : String) (catTrace : TraceId) (start : Nat) : Download :=
  ⟨contentId, catTrace, start, none, ⟨0, 0, none⟩, none, none, none, none, false, none,
    .tracking [catTrace], false⟩

/-- The span searches providers of the content id. -/
def isAnchor (contentId : String) (s : Span) : Bool :=
  s.name == Names.findProviders && s.attributes.hasString Names.findProvidersCid contentId

def anchors (contentId : String) (store : Store) : List Span :=
  store.allSpans.filter (isAnchor contentId)

/-- The traces that hold an anchor. -/
def searchTraces (contentId : String) (store : Store) : List TraceId :=
  ((anchors contentId store).map (·.trace)).eraseDups

def spansOf (store : Store) (traces : List TraceId) : List Span :=
  traces.flatMap fun t => (store.tracked.get? t).getD []

/-- The peers that events of a name speak of, with the times of the events. -/
def sightings (event : String) (spans : List Span) : List (String × Nat) :=
  (spans.flatMap (·.eventsNamed event)).filterMap fun e =>
    (e.attributes.string? Names.peer).map (·, e.time)

def peersOf (seen : List (String × Nat)) : List String := (seen.map (·.1)).eraseDups

def firstSeen? (seen : List (String × Nat)) (peer : String) : Option Nat :=
  ((seen.filter (·.1 == peer)).map (·.2)).min?

/-- Connected to earlier, or as early and of the lower name. -/
def providerBefore (a b : FirstProvider) : Bool :=
  a.connectedAt < b.connectedAt || (a.connectedAt == b.connectedAt && a.peer < b.peer)

/-- What the anchors tell of providers. A connection counts for a peer that was also found. -/
def providersOf (anchors : List Span) : Providers :=
  let found := sightings Names.foundProvider anchors
  let connected := sightings Names.connectedToProvider anchors
  let both := (peersOf connected).filterMap fun peer => do
    return FirstProvider.mk peer (← firstSeen? found peer) (← firstSeen? connected peer)
  ⟨(peersOf found).length, both.length, firstBy? providerBefore both⟩

/-- Earlier, or as early and of the lower span id. -/
def queryBefore (a b : Span) : Bool :=
  a.start < b.start || (a.start == b.start && a.id.toNat < b.id.toNat)

/-- The earliest query to an index among the spans of search traces. -/
def indexQueryOf (spans : List Span) : Option IndexQuery :=
  (firstBy? queryBefore (spans.filter (·.name == Names.indexQuery))).map fun s =>
    ⟨s.start, s.finish, s.attributes.int? Names.statusCode⟩

/-- The earliest event of a name on the spans of a name. -/
def earliestEvent? (span event : String) (spans : List Span) : Option Nat :=
  (((spans.filter (·.name == span)).flatMap (·.eventsNamed event)).map (·.time)).min?

/-- Strictly before the first block, or no block came. -/
def isEarly (firstBlock : Option Nat) (start : Nat) : Bool :=
  match firstBlock with
  | some block => start < block
  | none => true

/-- A query to the routing table that began early wins over an early query to an index, and both over the
broadcast. -/
def classify (firstBlock : Option Nat) (query : Option IndexQuery) (tracked : List Span) :
    Discovery :=
  let routing := ((tracked.filter (·.name == Names.routingQuery)).map (·.start)).min?
  if routing.any (isEarly firstBlock) then .routing
  else if (query.map (·.start)).any (isEarly firstBlock) then .index
  else .broadcast

/-- Derives every field from the store again, after tracking the search traces. -/
def derive (d : Download) : Download :=
  let traces := searchTraces d.contentId d.store
  let store := d.store.trackAll traces
  let search := spansOf store traces
  let cat := spansOf store [d.catTrace]
  let query := indexQueryOf search
  let firstBlock := earliestEvent? Names.handleIncoming Names.receivedBlock cat
  let done := d.done || cat.any (·.name == Names.handler)
  { d with
    store
    providers := providersOf (search.filter (isAnchor d.contentId))
    indexQuery := query
    firstBlock
    idleBroadcast := earliestEvent? Names.getBlock Names.idleBroadcast cat
    done
    discovery := if done then some (classify firstBlock query store.tracked.spans) else d.discovery }

/-- Takes in a batch, unless the download is frozen. -/
def ingest (d : Download) (b : Wire.Batch) : Download × Intake :=
  if d.frozen then (d, .zero)
  else
    let (store, intake) := d.store.ingest b
    (derive { d with store }, intake)

def finish (d : Download) (t : Transfer) : Download := { d with transfer := some t }

def fail (d : Download) (error : String) : Download := { d with error := joinError d.error error }

/-- Forgets pending spans and takes in nothing more. -/
def freeze (d : Download) : Download := { d with store := d.store.discardPending, frozen := true }

/-- The request was handled and the transfer has ended. -/
def isComplete (d : Download) : Bool := d.done && d.transfer.isSome

end Download

end ContentProbe
