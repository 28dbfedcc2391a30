import ContentProbe.Proofs.Collector.Ownership
import ContentProbe.Proofs.Collector.Steps
import Mathlib.Data.List.Nodup
import Mathlib.Data.List.Perm.Subperm

/-!
The way of matches from export calls to sessions. A call that is scanned gives one match at most, which is
tagged with the session that had registered the matchers, waits in line, and comes into the queue or is given
up. By the time it is taken from the queue another session may have begun, and that one throws it away. So
stale and fresh matches mix in the queue; nothing else is lost there, nothing is doubled, and nothing is
overtaken.
-/

namespace ContentProbe

/-- A match that a session took from the queue: returned as one of its own, or thrown away. -/
structure Taking where
  session : Nat
  delivery : Delivery
  returned : Bool

/-- Sessions at a collector, with what has happened so far, in order: the calls and their batches, what
sessions registered, the matches that scans gave, those that came into the queue, and those taken from it. -/
structure Exchange where
  sessions : Sessions
  exported : List (Nat × Wire.Batch)
  registered : List (Nat × List Matcher)
  produced : List Delivery
  enqueued : List Delivery
  taken : List Taking

namespace Exchange

abbrev collector (x : Exchange) : Collector := x.sessions.collector

/-- The matches that sessions took as their own. -/
def returned (x : Exchange) : List Taking := x.taken.filter (·.returned)

def discarded (x : Exchange) : List Taking := x.taken.filter (!·.returned)

def moved (x : Exchange) (c : Collector) : Exchange :=
  { x with sessions := { x.sessions with collector := c } }

/-- The collector after a scan. What is new at the end of its line was produced. -/
def scanned (x : Exchange) (c : Collector) : Exchange :=
  { x.moved c with
    produced := x.produced ++ (c.waiting.drop x.collector.waiting.length).map (·.delivery) }

/-- The collector after a waiting call looked around. What is new at the end of its queue was enqueued. -/
def resumed (x : Exchange) (c : Collector) : Exchange :=
  { x.moved c with enqueued := x.enqueued ++ c.queue.drop x.collector.queue.length }

/-- The collector after a session took a match from its queue. -/
def took (x : Exchange) (c : Collector) (session : Nat) (d : Delivery) (returned : Bool) : Exchange :=
  { x.moved c with taken := x.taken ++ [⟨session, d, returned⟩] }

inductive Step : Exchange → Exchange → Prop where
  /-- A session begins, withdraws its matchers, begins to end, or ends. -/
  | session {x : Exchange} {s : Sessions} {number : Nat} (h : Sessions.Step (some number) x.sessions s)
      (hquiet : s.collector.registry = x.collector.registry ∨ s.collector.registry = .empty) :
      Step x { x with sessions := s }
  | register {x : Exchange} {s : Sessions} {number : Nat} (matchers : List Matcher)
      (h : Sessions.Step (some number) x.sessions s)
      (hregister : s.collector = x.collector.registerFor number matchers) :
      Step x { x with sessions := s, registered := x.registered ++ [(number, matchers)] }
  | arrive (x : Exchange) (batch : Wire.Batch) (granted : Option Nat) :
      Step x { x.moved (x.collector.arrive batch granted) with
        exported := x.exported ++ [(x.collector.calls, batch)] }
  | scan (x : Exchange) (call now : Nat) : Step x (x.scanned (x.collector.scan call now))
  | resume (x : Exchange) (call now : Nat) : Step x (x.resumed (x.collector.resume call now))
  /-- Callers hang up, calls come into line in another order than that in which they were scanned, and places
  are set aside for others. -/
  | rearrange (x : Exchange) {arrived : List Collector.Arrival} {line : List Collector.Waiting}
      (harrived : arrived ⊆ x.collector.arrived)
      (hline : (line.map (·.delivery)).Subperm (x.collector.waiting.map (·.delivery))) :
      Step x (x.moved { x.collector with arrived, waiting := line })
  | receive {x : Exchange} {h : Handle} {d : Delivery} {after : Collector} (hlive : h ∈ x.sessions.live)
      (hopen : h.ending = false) (hreceive : x.collector.receive = .own d after) :
      Step x (x.took after h.session d true)
  | discard {x : Exchange} {h : Handle} {d : Delivery} {after : Collector} (hlive : h ∈ x.sessions.live)
      (hopen : h.ending = false) (hfirst : x.collector.queue.head? = some d)
      (hreceive : x.collector.receive = .foreign after) :
      Step x (x.took after h.session d false)
  | close (x : Exchange) : Step x (x.moved x.collector.close)

/-- Nothing that a session can do is left out. -/
theorem exists_step {x : Exchange} {s : Sessions} {number : Nat}
    (h : Sessions.Step (some number) x.sessions s) : ∃ x', Step x x' ∧ x'.sessions = s := by
  obtain ⟨sessions, exported, registered, produced, enqueued, taken⟩ := x
  have hstep := h
  cases h with
  | acquire h =>
      obtain ⟨-, -, rfl⟩ := Sessions.acquire_eq_some_iff.mp h
      exact ⟨_, .session hstep (Or.inl rfl), rfl⟩
  | register matchers hopen => exact ⟨_, .register matchers hstep rfl, rfl⟩
  | reset hopen => exact ⟨_, .session hstep (Or.inr rfl), rfl⟩
  | retire hopen => exact ⟨_, .session hstep (Or.inr rfl), rfl⟩
  | release hending => exact ⟨_, .session hstep (Or.inl rfl), rfl⟩

/-- What a new collector may come to, whoever makes which step when. -/
inductive Reachable : Exchange → Prop where
  | start (queueSize sendLimit : Nat) (dumps : Option Directory) :
      Reachable ⟨⟨.start queueSize sendLimit dumps, [], []⟩, [], [], [], [], []⟩
  | step {x x' : Exchange} (hx : Reachable x) (h : Step x x') : Reachable x'

/-- A match tells the truth: its call brought its batch, and its session had registered a list of matchers of
which the batch satisfies the one with its index first. -/
def Genuine (x : Exchange) (d : Delivery) : Prop :=
  (d.call, d.batch) ∈ x.exported ∧
    ∃ matchers, (d.session, matchers) ∈ x.registered ∧ Matcher.firstHit? matchers d.batch = some d.index

/-- The matches that are in line or have come into the queue. -/
def kept (x : Exchange) : List Delivery := x.enqueued ++ x.collector.waiting.map (·.delivery)

structure Sound (x : Exchange) : Prop where
  orderly : x.sessions.Orderly
  numbered : ∀ e ∈ x.exported, e.1 < x.collector.calls
  exportedOnce : (x.exported.map (·.1)).Nodup
  arrived : ∀ a ∈ x.collector.arrived,
    (a.call, a.batch) ∈ x.exported ∧ a.call ∉ x.produced.map (·.call)
  registry : x.collector.registry.matchers ≠ [] →
    (x.collector.registry.session, x.collector.registry.matchers) ∈ x.registered
  genuine : ∀ d ∈ x.produced, x.Genuine d
  producedOnce : (x.produced.map (·.call)).Nodup
  keptProduced : ∀ d ∈ x.kept, d ∈ x.produced
  keptOnce : (x.kept.map (·.call)).Nodup
  conserved : x.enqueued = x.taken.map (·.delivery) ++ x.collector.queue
  verdict : ∀ t ∈ x.taken, t.returned = true ↔ t.delivery.session = t.session

theorem Sound.start (queueSize sendLimit : Nat) (dumps : Option Directory) :
    Sound ⟨⟨.start queueSize sendLimit dumps, [], []⟩, [], [], [], [], []⟩ where
  orderly := .start queueSize sendLimit dumps
  numbered := by simp
  exportedOnce := by simp
  arrived := by simp [collector, Collector.start]
  registry := by simp [collector, Collector.start, Registry.empty]
  genuine := by simp
  producedOnce := by simp
  keptProduced := by simp [kept, collector, Collector.start]
  keptOnce := by simp [kept, collector, Collector.start]
  conserved := by simp [collector, Collector.start]
  verdict := by simp

/-! Steps of sessions -/

/-- No step of a session touches calls or the queue. -/
theorem frame_session {s s' : Sessions} {number : Nat} (h : Sessions.Step (some number) s s') :
    s'.collector.calls = s.collector.calls ∧ s'.collector.arrived = s.collector.arrived ∧
      s'.collector.waiting = s.collector.waiting ∧ s'.collector.queue = s.collector.queue := by
  cases h with
  | acquire h =>
      obtain ⟨-, -, rfl⟩ := Sessions.acquire_eq_some_iff.mp h
      exact ⟨rfl, rfl, rfl, rfl⟩
  | register matchers hopen => exact ⟨rfl, rfl, rfl, rfl⟩
  | reset hopen => exact ⟨rfl, rfl, rfl, rfl⟩
  | retire hopen => exact ⟨rfl, rfl, rfl, rfl⟩
  | release hending => exact ⟨rfl, rfl, rfl, rfl⟩

theorem Genuine.mono {x x' : Exchange} {d : Delivery} (h : x.Genuine d)
    (hexported : x.exported ⊆ x'.exported) (hregistered : x.registered ⊆ x'.registered) : x'.Genuine d := by
  obtain ⟨hcall, matchers, hsession, hhit⟩ := h
  exact ⟨hexported hcall, matchers, hregistered hsession, hhit⟩

theorem Sound.session {x : Exchange} (hx : x.Sound) {s : Sessions} {number : Nat}
    {registered : List (Nat × List Matcher)} (h : Sessions.Step (some number) x.sessions s)
    (hgrow : x.registered ⊆ registered)
    (hregistry : s.collector.registry.matchers ≠ [] →
      (s.collector.registry.session, s.collector.registry.matchers) ∈ registered) :
    Sound { x with sessions := s, registered } := by
  obtain ⟨hcalls, harrived, hwaiting, hqueue⟩ := frame_session h
  have hkept : kept { x with sessions := s, registered } = x.kept := by
    simp only [kept, collector, hwaiting]
  exact
    { orderly := hx.orderly.step h
      numbered := by simpa only [collector, hcalls] using hx.numbered
      exportedOnce := hx.exportedOnce
      arrived := by simpa only [collector, harrived] using hx.arrived
      registry := hregistry
      genuine := fun d hd => (hx.genuine d hd).mono (List.Subset.refl _) hgrow
      producedOnce := hx.producedOnce
      keptProduced := by simpa only [hkept] using hx.keptProduced
      keptOnce := by simpa only [hkept] using hx.keptOnce
      conserved := by simpa only [collector, hqueue] using hx.conserved
      verdict := hx.verdict }

/-! Steps of calls -/

theorem Sound.orderly_moved {x : Exchange} (hx : x.Sound) {c : Collector}
    (hregistry : c.registry = x.collector.registry) (hclaim : c.claim = x.collector.claim)
    (hsessions : c.sessions = x.collector.sessions) : (x.moved c).sessions.Orderly := by
  obtain ⟨hnumbered, hcounted, hknown, hfits⟩ := hx.orderly
  refine ⟨hnumbered, ?_, hknown, ?_⟩
  · simpa only [moved, hsessions] using hcounted
  · simpa only [moved, Sessions.Fits, hregistry, hclaim] using hfits

theorem Sound.arrive {x : Exchange} (hx : x.Sound) (batch : Wire.Batch) (granted : Option Nat) :
    Sound { x.moved (x.collector.arrive batch granted) with
      exported := x.exported ++ [(x.collector.calls, batch)] } := by
  have hnew : x.collector.calls ∉ x.exported.map (·.1) := by
    intro h
    obtain ⟨e, he, hcall⟩ := List.mem_map.mp h
    exact absurd (hx.numbered e he) (by omega)
  have hunproduced : x.collector.calls ∉ x.produced.map (·.call) := by
    intro h
    obtain ⟨d, hd, hcall⟩ := List.mem_map.mp h
    exact hnew (List.mem_map.mpr ⟨_, (hx.genuine d hd).1, hcall⟩)
  exact
    { orderly := hx.orderly_moved rfl rfl rfl
      numbered := fun e he => by
        rcases List.mem_append.mp he with he | he
        · exact Nat.lt_succ_of_lt (hx.numbered e he)
        · rw [List.mem_singleton.mp he]
          exact Nat.lt_succ_self _
      exportedOnce := by
        rw [List.map_append, List.map_singleton, ← List.concat_eq_append]
        exact hx.exportedOnce.concat hnew
      arrived := fun a ha => by
        rcases List.mem_append.mp ha with ha | ha
        · obtain ⟨hexported, hcall⟩ := hx.arrived a ha
          exact ⟨List.mem_append_left _ hexported, hcall⟩
        · rw [List.mem_singleton.mp ha]
          exact ⟨List.mem_append_right _ (List.mem_singleton.mpr rfl), hunproduced⟩
      registry := hx.registry
      genuine := fun d hd => (hx.genuine d hd).mono (List.subset_append_left _ _) (List.Subset.refl _)
      producedOnce := hx.producedOnce
      keptProduced := hx.keptProduced
      keptOnce := hx.keptOnce
      conserved := hx.conserved
      verdict := hx.verdict }

/-- A call is scanned, and its match, if it has one, comes into line. -/
theorem Sound.produce {x : Exchange} (hx : x.Sound) {a : Collector.Arrival} (ha : a ∈ x.collector.arrived)
    (counters : Collector.Counters) {found : Option Collector.Waiting}
    (hfound : ∀ w ∈ found, w.delivery.call = a.call ∧ w.delivery.batch = a.batch ∧
      x.collector.registry.scan a.batch = .matched w.delivery.index w.delivery.session) :
    Sound { x.moved { x.collector with
        arrived := x.collector.arrived.filter (·.call != a.call)
        counters
        waiting := x.collector.waiting ++ found.toList } with
      produced := x.produced ++ found.toList.map (·.delivery) } := by
  obtain ⟨hexported, hunproduced⟩ := hx.arrived a ha
  have hnew {d : Delivery} (hd : d ∈ found.toList.map (·.delivery)) : d.call = a.call ∧ x.Genuine d := by
    obtain ⟨w, hw, rfl⟩ := List.mem_map.mp hd
    obtain ⟨hcall, hbatch, hscan⟩ := hfound w (Option.mem_toList.mp hw)
    obtain ⟨hmatchers, hhit, hsession⟩ := Sessions.scan_eq_matched_iff.mp hscan
    refine ⟨hcall, ?_, x.collector.registry.matchers, ?_, ?_⟩
    · rw [hcall, hbatch]
      exact hexported
    · rw [hsession]
      exact hx.registry hmatchers
    · rw [hbatch]
      exact hhit
  -- The new match is the only one of its call.
  have honce {l : List Delivery} (hl : (l.map (·.call)).Nodup) (hout : a.call ∉ l.map (·.call)) :
      ((l ++ found.toList.map (·.delivery)).map (·.call)).Nodup := by
    cases found with
    | none => simpa using hl
    | some w =>
        have hcall := (hfound w rfl).1
        rw [Option.toList_some, List.map_singleton, List.map_append, List.map_singleton, hcall,
          ← List.concat_eq_append]
        exact hl.concat hout
  have hunkept : a.call ∉ x.kept.map (·.call) := by
    intro h
    obtain ⟨d, hd, hcall⟩ := List.mem_map.mp h
    exact hunproduced (List.mem_map.mpr ⟨d, hx.keptProduced d hd, hcall⟩)
  have hkept : x.enqueued ++ (x.collector.waiting ++ found.toList).map (·.delivery) =
      x.kept ++ found.toList.map (·.delivery) := by
    rw [List.map_append, ← List.append_assoc, kept]
  exact
    { orderly := hx.orderly_moved rfl rfl rfl
      numbered := hx.numbered
      exportedOnce := hx.exportedOnce
      arrived := fun b hb => by
        obtain ⟨hb, hne⟩ := List.mem_filter.mp hb
        obtain ⟨hbatch, hbnew⟩ := hx.arrived b hb
        refine ⟨hbatch, fun h => ?_⟩
        obtain ⟨d, hd, hcall⟩ := List.mem_map.mp h
        rcases List.mem_append.mp hd with hd | hd
        · exact hbnew (List.mem_map.mpr ⟨d, hd, hcall⟩)
        · simp [← hcall, (hnew hd).1] at hne
      registry := hx.registry
      genuine := fun d hd => (List.mem_append.mp hd).elim (hx.genuine d) fun hd => (hnew hd).2
      producedOnce := honce hx.producedOnce hunproduced
      keptProduced := fun d hd => by
        change d ∈ x.enqueued ++ (x.collector.waiting ++ found.toList).map (·.delivery) at hd
        rw [hkept] at hd
        exact (List.mem_append.mp hd).elim (fun hd => List.mem_append_left _ (hx.keptProduced d hd))
          (List.mem_append_right _)
      keptOnce := by
        change ((x.enqueued ++ (x.collector.waiting ++ found.toList).map (·.delivery)).map (·.call)).Nodup
        rw [hkept]
        exact honce hx.keptOnce hunkept
      conserved := hx.conserved
      verdict := hx.verdict }

theorem Sound.scan {x : Exchange} (hx : x.Sound) (call now : Nat) :
    (x.scanned (x.collector.scan call now)).Sound := by
  rcases x.collector.scan_cases call now with heq | ⟨a, ha, counters, found, heq, hfound⟩
  · have hsame : x.scanned x.collector = x := by simp [scanned, moved]
    rw [heq, hsame]
    exact hx
  · have hproduce := hx.produce ha counters hfound
    rw [heq, scanned]
    simpa using hproduce

/-- What leaves the line leaves the rest as it was. -/
theorem Sound.kept_of_subperm {x : Exchange} (hx : x.Sound) {l : List Delivery} (h : l.Subperm x.kept) :
    (∀ d ∈ l, d ∈ x.produced) ∧ (l.map (·.call)).Nodup := by
  refine ⟨fun d hd => hx.keptProduced d (h.subset hd), ?_⟩
  obtain ⟨l', hperm, hsub⟩ := h
  exact (hperm.map _).nodup_iff.mp (hx.keptOnce.sublist (hsub.map _))

theorem Sound.rearrange {x : Exchange} (hx : x.Sound) {arrived : List Collector.Arrival}
    {line : List Collector.Waiting} (harrived : arrived ⊆ x.collector.arrived)
    (hline : (line.map (·.delivery)).Subperm (x.collector.waiting.map (·.delivery))) :
    (x.moved { x.collector with arrived, waiting := line }).Sound := by
  obtain ⟨hproduced, honce⟩ := hx.kept_of_subperm ((List.subperm_append_left x.enqueued).mpr hline)
  exact
    { hx with
      orderly := hx.orderly_moved rfl rfl rfl
      arrived := fun a ha => hx.arrived a (harrived ha)
      keptProduced := hproduced
      keptOnce := honce }

/-- A match that comes into the queue leaves the line. -/
theorem enqueue_subperm {line : List Collector.Waiting} {w : Collector.Waiting} (hw : w ∈ line) :
    (w.delivery :: (line.filter (·.delivery.call != w.delivery.call)).map (·.delivery)).Subperm
      (line.map (·.delivery)) := by
  refine List.cons_subperm_of_not_mem_of_mem ?_ (List.mem_map_of_mem hw)
    (List.filter_sublist.map _).subperm
  intro h
  obtain ⟨v, hv, heq⟩ := List.mem_map.mp h
  have hne := (List.mem_filter.mp hv).2
  simp [heq] at hne

theorem Sound.resume {x : Exchange} (hx : x.Sound) (call now : Nat) :
    (x.resumed (x.collector.resume call now)).Sound := by
  rcases x.collector.resume_cases call now with heq | ⟨w, hw, hcall, ⟨heq, -⟩ | ⟨heq, -⟩⟩
  · have hsame : x.resumed x.collector = x := by simp [resumed, moved]
    rw [heq, hsame]
    exact hx
  · have hdrop : x.resumed (x.collector.drop call) = x.moved (x.collector.drop call) := by
      simp [resumed, moved, Collector.drop]
    have hline : ((x.collector.drop call).waiting.map (·.delivery)).Subperm
        (x.collector.waiting.map (·.delivery)) := (List.filter_sublist.map _).subperm
    obtain ⟨hproduced, honce⟩ := hx.kept_of_subperm ((List.subperm_append_left x.enqueued).mpr hline)
    rw [heq, hdrop]
    exact
      { hx with
        orderly := hx.orderly_moved rfl rfl rfl
        keptProduced := hproduced
        keptOnce := honce }
  · rw [heq]
    have hkept : (x.resumed (x.collector.enqueue w.delivery)).kept.Subperm x.kept := by
      have hline := (List.subperm_append_left x.enqueued).mpr (enqueue_subperm hw)
      simpa [kept, resumed, moved, Collector.enqueue] using hline
    obtain ⟨hproduced, honce⟩ := hx.kept_of_subperm hkept
    exact
      { hx with
        orderly := hx.orderly_moved rfl rfl rfl
        keptProduced := hproduced
        keptOnce := honce
        conserved := by
          simp [resumed, moved, Collector.enqueue, hx.conserved] }

theorem Sound.close {x : Exchange} (hx : x.Sound) : (x.moved x.collector.close).Sound :=
  { hx with orderly := hx.orderly_moved rfl rfl rfl }

/-! Steps of whoever takes from the queue -/

theorem Sound.took {x : Exchange} (hx : x.Sound) {session : Nat} {d : Delivery} {after : Collector}
    {returned : Bool} (htake : x.collector.take = some (d, after))
    (hverdict : returned = true ↔ d.session = session) : (x.took after session d returned).Sound := by
  obtain ⟨rest, hqueue, rfl⟩ := Collector.take_eq_some_iff.mp htake
  have hkept : (x.took { x.collector with
      queue := rest, waiting := Collector.grantFirst x.collector.waiting } session d returned).kept =
        x.kept :=
    congrArg (x.enqueued ++ ·) (Collector.map_delivery_grantFirst _)
  exact
    { hx with
      orderly := hx.orderly_moved rfl rfl rfl
      keptProduced := by
        rw [hkept]
        exact hx.keptProduced
      keptOnce := by
        rw [hkept]
        exact hx.keptOnce
      conserved := by
        change x.enqueued = (x.taken ++ [Taking.mk session d returned]).map Taking.delivery ++ rest
        rw [List.map_append, List.append_assoc, List.map_singleton, List.singleton_append, ← hqueue]
        exact hx.conserved
      verdict := fun t ht => by
        rcases List.mem_append.mp ht with ht | ht
        · exact hx.verdict t ht
        · rw [List.mem_singleton.mp ht]
          exact hverdict }

theorem Sound.step {x x' : Exchange} (hx : x.Sound) (h : Step x x') : x'.Sound := by
  cases h with
  | session h hquiet =>
      refine hx.session h (List.Subset.refl _) fun hmatchers => ?_
      rcases hquiet with hsame | hempty
      · rw [hsame] at hmatchers ⊢
        exact hx.registry hmatchers
      · exact absurd (congrArg Registry.matchers hempty) hmatchers
  | register matchers h hregister =>
      refine hx.session h (List.subset_append_left _ _) fun _ => ?_
      rw [hregister]
      exact List.mem_append_right _ (List.mem_singleton.mpr rfl)
  | arrive batch granted => exact hx.arrive batch granted
  | scan call now => exact hx.scan call now
  | resume call now => exact hx.resume call now
  | rearrange harrived hline => exact hx.rearrange harrived hline
  | receive hlive hopen hreceive =>
      obtain ⟨htake, hclaim⟩ := Collector.receive_eq_own_iff.mp hreceive
      rw [hx.orderly.held_of_open hlive hopen, Collector.Claim.held.injEq] at hclaim
      exact hx.took htake (by simp [hclaim])
  | discard hlive hopen hfirst hreceive =>
      obtain ⟨e, htake, hforeign⟩ := Collector.receive_eq_foreign_iff.mp hreceive
      obtain ⟨rest, hqueue, -⟩ := Collector.take_eq_some_iff.mp htake
      obtain rfl : e = _ := by simpa [hqueue] using hfirst
      rw [hx.orderly.held_of_open hlive hopen, ne_eq, Collector.Claim.held.injEq] at hforeign
      exact hx.took htake (by simpa using Ne.symm hforeign)
  | close => exact hx.close

theorem Reachable.sound {x : Exchange} (h : Reachable x) : x.Sound := by
  induction h with
  | start queueSize sendLimit dumps => exact .start queueSize sendLimit dumps
  | step _ h ih => exact ih.step h

/-! What follows for the matches that sessions take -/

theorem Sound.taken_sublist {x : Exchange} (hx : x.Sound) (p : Taking → Bool) :
    ((x.taken.filter p).map (·.delivery)).Sublist x.enqueued := by
  rw [hx.conserved]
  exact (List.filter_sublist.map _).trans (List.sublist_append_left _ _)

theorem enqueued_sublist_kept (x : Exchange) : x.enqueued.Sublist x.kept :=
  List.sublist_append_left _ _

theorem Sound.length_enqueued {x : Exchange} (hx : x.Sound) :
    x.enqueued.length = x.returned.length + x.discarded.length + x.collector.queue.length := by
  have htaken : x.taken.length = x.returned.length + x.discarded.length := by
    have hcount := List.length_eq_countP_add_countP (fun t : Taking => t.returned) (l := x.taken)
    simpa [returned, discarded, List.countP_eq_length_filter] using hcount
  rw [hx.conserved, List.length_append, List.length_map, htaken]

theorem Sound.genuine_taken {x : Exchange} (hx : x.Sound) {t : Taking} (ht : t ∈ x.taken) :
    t.delivery ∈ x.produced ∧ x.Genuine t.delivery := by
  have henqueued : t.delivery ∈ x.enqueued := by
    rw [hx.conserved]
    exact List.mem_append_left _ (List.mem_map_of_mem ht)
  have hproduced := hx.keptProduced _ (x.enqueued_sublist_kept.subset henqueued)
  exact ⟨hproduced, hx.genuine _ hproduced⟩

/-- Whatever export calls and sessions do in whatever order: a match that a session returns is its own, and
its call brought its batch, which satisfied the matcher with its index first in a list that this session had
registered. A call gives one match at most, which comes into the queue once at most and is taken once at
most, each session in the order of the queue. What came into the queue was returned, thrown away by a
session that it did not belong to, or is still there. -/
theorem matches_conserved {x : Exchange} (hx : Reachable x) :
    (∀ t ∈ x.returned, t.delivery.session = t.session ∧ t.delivery ∈ x.produced ∧
      (t.delivery.call, t.delivery.batch) ∈ x.exported ∧
      ∃ matchers, (t.session, matchers) ∈ x.registered ∧
        Matcher.firstHit? matchers t.delivery.batch = some t.delivery.index) ∧
    (x.exported.map (·.1)).Nodup ∧ (x.produced.map (·.call)).Nodup ∧
    (x.returned.map (·.delivery.call)).Nodup ∧
    (∀ session, ((x.returned.filter (·.session == session)).map (·.delivery)).Sublist x.enqueued) ∧
    x.enqueued = x.taken.map (·.delivery) ++ x.collector.queue ∧
    (x.enqueued.map (·.call)).Nodup ∧
    x.enqueued.length = x.returned.length + x.discarded.length + x.collector.queue.length ∧
    ∀ t ∈ x.discarded, t.delivery.session ≠ t.session := by
  have hsound := hx.sound
  have henqueued : (x.enqueued.map (·.call)).Nodup :=
    hsound.keptOnce.sublist (x.enqueued_sublist_kept.map _)
  refine ⟨?_, hsound.exportedOnce, hsound.producedOnce, ?_, ?_, hsound.conserved, henqueued,
    hsound.length_enqueued, ?_⟩
  · intro t ht
    obtain ⟨htaken, hreturned⟩ := List.mem_filter.mp ht
    have hown := (hsound.verdict t htaken).mp hreturned
    obtain ⟨hproduced, hexported, hregistered⟩ := hsound.genuine_taken htaken
    exact ⟨hown, hproduced, hexported, hown ▸ hregistered⟩
  · have hsublist := (hsound.taken_sublist (·.returned)).map Delivery.call
    rw [List.map_map] at hsublist
    exact henqueued.sublist hsublist
  · intro session
    rw [returned, List.filter_filter]
    exact hsound.taken_sublist _
  · intro t ht hown
    obtain ⟨htaken, hforeign⟩ := List.mem_filter.mp ht
    simp [(hsound.verdict t htaken).mpr hown] at hforeign

/-- A span that has a name and little else. -/
def namedSpan (name : String) : Wire.Span where
  traceId := []
  spanId := []
  parentId := []
  name := name
  start := 1
  finish := 2
  attributes := []
  events := []

def namedBatch (name : String) : Wire.Batch := .nested [[[namedSpan name]]]

/-- A match of the first session that comes into the queue after the second session has begun. -/
def stale : Delivery := ⟨0, 0, 1, namedBatch "old"⟩

def fresh : Delivery := ⟨1, 0, 2, namedBatch "new"⟩

/-- The second session has thrown away the match of the first one and returned its own. -/
def mixed : Exchange where
  sessions := ⟨{ Collector.start 8 100 none with
    registry := ⟨2, [.name "new"]⟩, claim := .held 2, sessions := 2, calls := 2,
    counters := ⟨2, 2, 2, 0⟩ }, [⟨2, false, [.name "new"]⟩], [1, 2]⟩
  exported := [(0, namedBatch "old"), (1, namedBatch "new")]
  registered := [(1, [.name "old"]), (2, [.name "new"])]
  produced := [stale, fresh]
  enqueued := [stale, fresh]
  taken := [⟨2, stale, false⟩, ⟨2, fresh, true⟩]

theorem reachable_mixed : Reachable mixed := by
  have hfirst := (Reachable.start 8 100 none).step (.session (.acquire rfl) (Or.inl rfl))
  have hold := hfirst.step
    (.register _ (@Sessions.Step.register _ [] [] ⟨1, false, []⟩ _ [.name "old"] rfl) rfl)
  have hscanned := (hold.step (.arrive _ (namedBatch "old") none)).step (.scan _ 0 0)
  have hretired := hscanned.step
    (.session (@Sessions.Step.retire _ [] [] ⟨1, false, [.name "old"]⟩ _ rfl) (Or.inr rfl))
  have hreleased := hretired.step
    (.session (@Sessions.Step.release _ [] [] ⟨1, true, []⟩ _ rfl) (Or.inl rfl))
  have hsecond := hreleased.step (.session (.acquire rfl) (Or.inl rfl))
  have hnew := hsecond.step
    (.register _ (@Sessions.Step.register _ [] [] ⟨2, false, []⟩ _ [.name "new"] rfl) rfl)
  have hlate := hnew.step (.resume _ 0 5)
  have hqueued := ((hlate.step (.arrive _ (namedBatch "new") none)).step (.scan _ 1 6)).step (.resume _ 1 6)
  have hdiscarded := hqueued.step (.discard (List.mem_singleton.mpr rfl) rfl rfl rfl)
  exact hdiscarded.step
    (@Step.receive _ ⟨2, false, [.name "new"]⟩ fresh mixed.collector (List.mem_singleton.mpr rfl) rfl rfl)

theorem mixed_conserved :
    mixed.returned.length = 1 ∧ mixed.discarded.length = 1 ∧
      (∀ t ∈ mixed.returned, t.delivery.session = t.session ∧ t.delivery ∈ mixed.produced ∧
        (t.delivery.call, t.delivery.batch) ∈ mixed.exported ∧
        ∃ matchers, (t.session, matchers) ∈ mixed.registered ∧
          Matcher.firstHit? matchers t.delivery.batch = some t.delivery.index) ∧
      mixed.enqueued.length =
        mixed.returned.length + mixed.discarded.length + mixed.collector.queue.length ∧
      ∀ t ∈ mixed.discarded, t.delivery.session ≠ t.session := by
  obtain ⟨hreturned, -, -, -, -, -, -, hlength, hdiscarded⟩ := matches_conserved reachable_mixed
  exact ⟨rfl, rfl, hreturned, hlength, hdiscarded⟩

end Exchange

end ContentProbe
