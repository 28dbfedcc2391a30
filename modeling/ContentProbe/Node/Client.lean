import ContentProbe.Node.Reply
import ContentProbe.Node.Request
import ContentProbe.Run.Action

/-!
A client of a node. The node is whoever answers requests, and may change by each; commands are made of one
or more requests. Commands are timed by what the node does: here a reply comes at once.
-/

namespace ContentProbe

open ContentProbe.Time

/-- A node at an endpoint, with a state. It gives a reply, or none comes. -/
structure Node (σ : Type) where
  endpoint : String
  answer : Node.Request → σ → Option Node.Reply × σ

namespace Node

variable {σ : Type}

def unreachable (endpoint : String) : Node σ := ⟨endpoint, fun _ s => (none, s)⟩

/-- A node that also keeps the requests it was asked, in order, each with the reply that came. -/
def recorded (n : Node σ) : Node (σ × List (Request × Option Reply)) where
  endpoint := n.endpoint
  answer r s :=
    let (reply, next) := n.answer r s.1
    (reply, next, s.2 ++ [(r, reply)])

/-- Makes a request and looks whether the command succeeded. -/
def call (n : Node σ) (r : Request) (s : σ) : Except Fault Reply × σ :=
  match n.answer r s with
  | (none, s) => (.error (.unsent (baseOf n.endpoint ++ r.target)), s)
  | (some reply, s) => (reply.checked, s)

def callFor {α : Type} (n : Node σ) (r : Request) (read : Reply → Except Fault α) (s : σ) :
    Except Fault α × σ :=
  let (reply, s) := n.call r s
  (reply.bind read, s)

/-- Adds and pins content and returns its content id. -/
def add (n : Node σ) (context : ProbeContext) (pinName : String) (content : List UInt8) (s : σ) :
    Except Fault String × σ :=
  n.callFor (.add context pinName content) (fun r => r.data >>= addedContentId) s

/-- Retrieves content. The reply may break off. -/
def cat (n : Node σ) (context : ProbeContext) (contentId : String) (s : σ) :
    Except Fault Reply × σ :=
  n.call (.cat context contentId) s

def version (n : Node σ) (s : σ) : Except Fault VersionInfo × σ :=
  n.callFor .version (·.json VersionInfo.ofJson?) s

def identity (n : Node σ) (s : σ) : Except Fault PeerInfo × σ :=
  n.callFor .identity (·.json PeerInfo.ofJson?) s

/-- Asks for the version a number of times at most, until it comes. -/
def poll (n : Node σ) : Nat → σ → Option VersionInfo × σ
  | 0, s => (none, s)
  | count + 1, s =>
      match n.version s with
      | (.ok v, s) => (some v, s)
      | (.error _, s) => poll n count s

/-- Waits until the node answers. It is asked at once and each second before the limit. -/
def wait (n : Node σ) (limit : Nat) (s : σ) : Except Fault VersionInfo × σ :=
  match n.poll ((limit + (second - 1)) / second) s with
  | (some v, s) => (.ok v, s)
  | (none, s) => (.error (.unavailable limit), s)

/-- How pins of a kind are removed, if they are at all: with everything below them, or alone. -/
def removal? (kind : String) : Option Bool :=
  if kind = "recursive" then some true else if kind = "direct" then some false else none

def removals (pins : List (String × String)) : List Request :=
  pins.filterMap fun (id, kind) => (removal? kind).map (Request.removePin id)

/-- Makes requests one after the other and counts the successes. -/
def callAll (n : Node σ) : List Request → σ → Nat × σ
  | [], s => (0, s)
  | r :: rest, s =>
      let (reply, s) := n.call r s
      let (count, s) := callAll n rest s
      ((if reply.isOk then 1 else 0) + count, s)

/-- Removes the recursive and direct pins, then collects garbage. Returns how many pins were removed; one
that stays is passed over. A table of pins has no order of its own: they are taken in the order that is
given. -/
def resetIn (n : Node σ) (order : List (String × String) → List (String × String)) (s : σ) :
    Except Fault Nat × σ :=
  match n.callFor .listPins (·.json pins?) s with
  | (.error f, s) => (.error f, s)
  | (.ok pins, s) =>
      let (removed, s) := n.callAll (removals (order pins)) s
      let (collected, s) := n.callFor .collectGarbage Reply.data s
      (collected.map fun _ => removed, s)

/-- A reset that takes the pins as they are listed. -/
def reset (n : Node σ) (s : σ) : Except Fault Nat × σ := n.resetIn id s

/-! A node as the place where probes act -/

/-- A command that failed, as the failure of an action. -/
def failed (f : Fault) : ActionFault := .failed f.message

def upload (n : Node σ) (context : ProbeContext) (pinName : String) (content : List UInt8) (s : σ) :
    Timed (Except ActionFault String) × σ :=
  let (hash, s) := n.add context pinName content s
  (⟨0, hash.mapError failed⟩, s)

def chunksOf (r : Reply) : List (Timed Chunk) :=
  ⟨0, .bytes r.body.length⟩ :: if r.isWhole then [] else [⟨0, .fault (failed .body)⟩]

def download (n : Node σ) (context : ProbeContext) (contentId : String) (s : σ) : Payload × σ :=
  let (reply, s) := n.cat context contentId s
  (⟨⟨0, (reply.map chunksOf).mapError failed⟩⟩, s)

end Node

end ContentProbe
