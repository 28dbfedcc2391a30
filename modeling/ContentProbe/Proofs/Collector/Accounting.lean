import ContentProbe.Collector.CallTimeout
import ContentProbe.Collector.Timeline
import ContentProbe.Proofs.Collector.Places
import ContentProbe.Proofs.Time.Tick
import ContentProbe.Proofs.Trace.Conversion
import Mathlib.Data.List.Range

/-!
The books of a collector. Every call that came is either still running, which means that it has not been
scanned yet or that its match stands in line, or it has ended in one of four ways; the counters are bumped
where these things happen, and agree with them at every moment. The clock moves no further than the next
timer, so that a match leaves the line when its time is up.
-/

namespace ContentProbe

open ContentProbe.Time

namespace Collector

/-- What becomes of a call: nothing was registered, nothing matched, its match came into the queue, or its
match was given up. -/
inductive Outcome where
  | skipped
  | unmatched
  | forwarded
  | dropped
  deriving DecidableEq, Repr

/-- The calls that have not ended. -/
def running (c : Collector) : List Nat := c.arrived.map (·.call) ++ c.inLine

/-- The calls in line for which there is a place, be it set aside for them or free. -/
def offers (c : Collector) : List Nat :=
  (c.waiting.filter fun w => w.granted || decide (0 < c.freePlaces)).map (·.delivery.call)

/-- What became of a call that ended between two states. -/
def outcome (before after : Collector) (call : Nat) : Outcome :=
  if after.queue.any (·.call == call) then .forwarded
  else if before.isWaiting call then .dropped
  else if before.registry.matchers.isEmpty then .skipped
  else .unmatched

/-- The time that a match may stand in line: the one that its caller grants in a header that can be read, and
no more than the collector's. -/
def patience (sendLimit : Nat) (header : Option String) : Nat :=
  match header.bind CallTimeout.read? with
  | some time => min time sendLimit
  | none => sendLimit

/-- What happens at once, at an instant, other than that a call arrives. Sessions may do with the registry as
they like. -/
inductive Move (now : Nat) (c : Collector) : Collector → Prop where
  | scan (call : Nat) : Move now c (c.scan call now)
  | resume (call : Nat) : Move now c (c.resume call now)
  | take {after : Collector} {d : Delivery} (h : c.take = some (d, after)) : Move now c after
  | close : Move now c c.close
  | session (registry : Registry) (claim : Claim) (sessions : Nat) :
      Move now c { c with registry, claim, sessions }

/-- What a move does to the calls that are running: to none of them anything but that places are set aside, or
to one. -/
inductive Effect (now : Nat) (c : Collector) : Collector → Prop where
  | quiet {after : Collector} (harrived : after.arrived = c.arrived) (hline : after.inLine = c.inLine)
      (hkept : ∀ v ∈ after.waiting, ∃ w ∈ c.waiting, v.delivery.call = w.delivery.call ∧
        v.deadline = w.deadline ∧ (v.granted = false → w.granted = false))
      (hqueue : after.queue ⊆ c.queue) (hcounters : after.counters = c.counters) : Effect now c after
  | skip {a : Arrival} (ha : a ∈ c.arrived) (hempty : c.registry.matchers = []) :
      Effect now c { c with arrived := c.arrived.filter (·.call != a.call) }
  | pass {a : Arrival} (ha : a ∈ c.arrived) (hmatchers : c.registry.matchers ≠ []) :
      Effect now c
        { c with
          arrived := c.arrived.filter (·.call != a.call)
          counters := { c.counters with scanned := c.counters.scanned + 1 } }
  | line {a : Arrival} (ha : a ∈ c.arrived) (index session : Nat) :
      Effect now c
        { c with
          arrived := c.arrived.filter (·.call != a.call)
          counters := { c.counters with scanned := c.counters.scanned + 1 }
          waiting := c.waiting ++
            [⟨⟨a.call, index, session, a.batch⟩, now + a.limit, decide (0 < c.freePlaces)⟩] }
  | drop {w : Waiting} (hw : w ∈ c.waiting)
      (hgives : c.closed = true ∨ (w.granted = false ∧ w.deadline ≤ now)) :
      Effect now c (c.drop w.delivery.call)
  | forward {w : Waiting} (hw : w ∈ c.waiting) (hopen : c.closed = false) (hgranted : w.granted = true) :
      Effect now c (c.enqueue w.delivery)

theorem Effect.refl (now : Nat) (c : Collector) : Effect now c c :=
  .quiet rfl rfl (fun v hv => ⟨v, hv, rfl, rfl, id⟩) (List.Subset.refl _) rfl

theorem scan_effect (c : Collector) (call now : Nat) : Effect now c (c.scan call now) := by
  unfold scan
  split
  · exact .refl now c
  · rename_i a hfind
    have ha : a ∈ c.arrived := List.mem_of_find?_eq_some hfind
    obtain rfl : a.call = call := by simpa using List.find?_some hfind
    cases hscan : c.registry.scan a.batch with
    | skipped =>
        refine .skip ha ?_
        by_contra hne
        unfold Registry.scan at hscan
        rw [if_neg (by simpa using hne)] at hscan
        split at hscan <;> cases hscan
    | unmatched =>
        refine .pass ha fun hempty => ?_
        simp [Registry.scan, hempty] at hscan
    | matched index session => exact .line ha index session

theorem grantFirst_kept {line : List Waiting} {v : Waiting} (hv : v ∈ grantFirst line) :
    ∃ w ∈ line, v.delivery.call = w.delivery.call ∧ v.deadline = w.deadline ∧
      (v.granted = false → w.granted = false) := by
  rcases grantFirst_cases line with ⟨heq, -⟩ | ⟨front, w, back, hline, -, -, heq⟩
  · exact ⟨v, heq ▸ hv, rfl, rfl, id⟩
  · rw [heq, List.mem_append, List.mem_cons] at hv
    rcases hv with hv | rfl | hv
    · exact ⟨v, by simp [hline, hv], rfl, rfl, id⟩
    · exact ⟨w, by simp [hline], rfl, rfl, fun h => nomatch h⟩
    · exact ⟨v, by simp [hline, hv], rfl, rfl, id⟩

theorem Move.effect {now : Nat} {c after : Collector} (h : Move now c after) : Effect now c after := by
  cases h with
  | scan call => exact scan_effect c call now
  | resume call =>
      rcases resume_cases c call now with heq | ⟨w, hw, rfl, ⟨heq, hgives⟩ | ⟨heq, hopen, hgranted⟩⟩
      · rw [heq]
        exact .refl now c
      · rw [heq]
        exact .drop hw hgives
      · rw [heq]
        exact .forward hw hopen hgranted
  | take h =>
      obtain ⟨rest, hqueue, rfl⟩ := take_eq_some_iff.mp h
      refine .quiet rfl (inLine_grantFirst c) (fun v hv => grantFirst_kept hv) ?_ rfl
      simp [hqueue]
  | close => exact .quiet rfl rfl (fun v hv => ⟨v, hv, rfl, rfl, id⟩) (List.Subset.refl _) rfl
  | session registry claim sessions =>
      exact .quiet rfl rfl (fun v hv => ⟨v, hv, rfl, rfl, id⟩) (List.Subset.refl _) rfl

/-- What a move leaves alone; and a closed queue stays closed. -/
theorem Move.frame {now : Nat} {c after : Collector} (h : Move now c after) :
    after.capacity = c.capacity ∧ after.sendLimit = c.sendLimit ∧ after.calls = c.calls ∧
      (after.closed = false → c.closed = false) := by
  cases h with
  | scan call =>
      unfold Collector.scan
      split
      · exact ⟨rfl, rfl, rfl, id⟩
      · dsimp only
        split <;> exact ⟨rfl, rfl, rfl, id⟩
  | resume call =>
      rcases resume_cases c call now with heq | ⟨w, -, -, ⟨heq, -⟩ | ⟨heq, -⟩⟩
      all_goals
        rw [heq]
        exact ⟨rfl, rfl, rfl, id⟩
  | take h =>
      obtain ⟨rest, -, rfl⟩ := take_eq_some_iff.mp h
      exact ⟨rfl, rfl, rfl, id⟩
  | close => exact ⟨rfl, rfl, rfl, fun hopen => nomatch hopen⟩
  | session registry claim sessions => exact ⟨rfl, rfl, rfl, id⟩

theorem not_mem_inLine_of_arrived {c : Collector} (hrunning : c.running.Nodup) {a : Arrival}
    (ha : a ∈ c.arrived) : a.call ∉ c.inLine :=
  fun hline => (List.nodup_append.mp hrunning).2.2 _ (List.mem_map_of_mem ha) _ hline rfl

theorem Move.fair {now : Nat} {c after : Collector} (h : Move now c after) (hfair : c.Fair)
    (hrunning : c.running.Nodup) : after.Fair := by
  cases h with
  | scan call => exact hfair.scan (fun a ha => not_mem_inLine_of_arrived hrunning ha) call now
  | resume call => exact hfair.resume call now
  | take h => exact hfair.take h
  | close => exact hfair.close
  | session registry claim sessions => exact hfair.session registry claim sessions

/-! The books -/

end Collector

open Collector

/-- A call that has ended, with what was answered, at which instant, and whether the queue was closed by
then. -/
structure Ending where
  call : Nat
  outcome : Outcome
  answer : Acknowledgement
  instant : Nat
  closed : Bool

/-- The books that are kept of a collector, the receiver of traces, under a clock: its statistics stand in the
collector, and beside them what has happened to export calls so far. These are the timeout headers of the
calls, by number; the calls whose matches came into line, with the instants; the calls in line for which there
was a place at some moment; and the calls that have ended. -/
structure Books where
  now : Nat
  collector : Collector
  headers : List (Option String)
  lined : List (Nat × Nat)
  offered : List Nat
  ended : List Ending

namespace Books

/-- The collector after a step, and what has become of calls by it. -/
def observe (x : Books) (after : Collector) : Books :=
  { x with
    collector := after
    lined := x.lined ++ (after.inLine.filter (· ∉ x.collector.inLine)).map (·, x.now)
    offered := x.offered ++ after.offers
    ended := x.ended ++ (x.collector.running.filter (· ∉ after.running)).map fun call =>
      ⟨call, outcome x.collector after call, acknowledgement, x.now, after.closed⟩ }

/-- Calls arrive, things happen at an instant, and the clock moves, though not past the timer of any match
that is in line. A timeline takes no other steps: see `Timeline.Booked`. -/
inductive Step : Books → Books → Prop where
  | arrive (x : Books) (batch : Wire.Batch) (header : Option String) :
      Step x { x.observe (x.collector.arrive batch (header.bind CallTimeout.read?)) with
        headers := x.headers ++ [header] }
  | move {x : Books} {after : Collector} (h : Move x.now x.collector after) : Step x (x.observe after)
  | wait {x : Books} {instant : Nat} (hlater : x.now ≤ instant)
      (htimers : ∀ w ∈ x.collector.waiting, instant ≤ tick w.deadline) : Step x { x with now := instant }

/-- What a new collector with a queue and a limit may come to. -/
inductive Reachable (queueSize sendLimit : Nat) : Books → Prop where
  | start (dumps : Option Directory) :
      Reachable queueSize sendLimit ⟨0, .start queueSize sendLimit dumps, [], [], [], []⟩
  | step {x x' : Books} (hx : Reachable queueSize sendLimit x) (h : Step x x') :
      Reachable queueSize sendLimit x'

/-- The calls with an outcome. -/
def count (x : Books) (o : Outcome) : Nat := x.ended.countP (·.outcome == o)

/-- Every call that came is running or has ended, once, and the counters say so. -/
structure Balanced (x : Books) : Prop where
  headed : x.headers.length = x.collector.calls
  calls : (x.collector.running ++ x.ended.map (·.call)).Perm (List.range x.collector.calls)
  received : x.collector.counters.received = x.collector.calls
  scanned : x.collector.counters.scanned =
    x.count .unmatched + x.count .forwarded + x.count .dropped + x.collector.waiting.length
  forwarded : x.collector.counters.forwarded = x.count .forwarded
  dropped : x.collector.counters.dropped = x.count .dropped
  queued : ∀ d ∈ x.collector.queue, d.call ∈ x.ended.map (·.call)

theorem Balanced.nodup {x : Books} (h : x.Balanced) :
    (x.collector.running ++ x.ended.map (·.call)).Nodup := h.calls.nodup_iff.mpr List.nodup_range

/-- Calls are numbered from zero. -/
theorem Balanced.lt_calls {x : Books} (h : x.Balanced) {call : Nat} (hrunning : call ∈ x.collector.running) :
    call < x.collector.calls :=
  List.mem_range.mp (h.calls.subset (List.mem_append_left _ hrunning))

theorem Balanced.nodup_running {x : Books} (h : x.Balanced) : x.collector.running.Nodup :=
  (List.nodup_append.mp h.nodup).1

theorem Balanced.not_ended {x : Books} (h : x.Balanced) {call : Nat} (hrunning : call ∈ x.collector.running) :
    call ∉ x.ended.map (·.call) :=
  fun hended => (List.nodup_append.mp h.nodup).2.2 _ hrunning _ hended rfl

/-- No match of a running call is in the queue. -/
theorem Balanced.not_queued {x : Books} (h : x.Balanced) {call : Nat}
    (hrunning : call ∈ x.collector.running) : x.collector.queue.any (·.call == call) = false := by
  rw [List.any_eq_false]
  intro d hd hcall
  exact h.not_ended hrunning (beq_iff_eq.mp hcall ▸ h.queued d hd)

/-! What a step writes down -/

/-- As long as every running call goes on, none has ended. -/
theorem observe_ended_of_subset {x : Books} {after : Collector}
    (h : x.collector.running ⊆ after.running) : (x.observe after).ended = x.ended := by
  have hnone : x.collector.running.filter (· ∉ after.running) = [] := by
    rw [List.filter_eq_nil_iff]
    intro call hcall
    simp [h hcall]
  rw [observe, hnone]
  exact List.append_nil _

/-- The one call that is not running after a step has ended. -/
theorem observe_ended_of_perm {x : Books} (hx : x.Balanced) {after : Collector} {call : Nat}
    (h : x.collector.running.Perm (call :: after.running)) :
    (x.observe after).ended =
      x.ended ++ [⟨call, outcome x.collector after call, acknowledgement, x.now, after.closed⟩] := by
  have hnodup : (call :: after.running).Nodup := h.nodup_iff.mp hx.nodup_running
  have hnone : after.running.filter (· ∉ after.running) = [] := by
    simp [List.filter_eq_nil_iff]
  have hone : x.collector.running.filter (· ∉ after.running) = [call] := by
    rw [← List.perm_singleton]
    refine (h.filter _).trans ?_
    rw [List.filter_cons_of_pos (by simpa using (List.nodup_cons.mp hnodup).1), hnone]
  rw [observe, hone]
  rfl

/-- Whoever is scanned leaves those that arrived. -/
theorem running_perm_of_scanned {c : Collector} (hrunning : c.running.Nodup) {a : Arrival}
    (ha : a ∈ c.arrived) :
    c.running.Perm (a.call :: ((c.arrived.filter (·.call != a.call)).map (·.call) ++ c.inLine)) := by
  have hperm := (perm_cons_filter_ne (List.nodup_append.mp hrunning).1 ha).map (·.call)
  exact hperm.append_right c.inLine

/-- Whoever leaves the line does so alone. -/
theorem running_perm_of_left {c : Collector} (hrunning : c.running.Nodup) {w : Waiting} (hw : w ∈ c.waiting) :
    c.running.Perm (w.delivery.call ::
      (c.arrived.map (·.call) ++
        (c.waiting.filter (·.delivery.call != w.delivery.call)).map (·.delivery.call))) := by
  have hperm := (perm_cons_filter_ne (List.nodup_append.mp hrunning).2.1 hw).map (·.delivery.call)
  exact (hperm.append_left (c.arrived.map (·.call))).trans List.perm_middle

theorem length_of_left {c : Collector} (hrunning : c.running.Nodup) {w : Waiting} (hw : w ∈ c.waiting) :
    c.waiting.length = (c.waiting.filter (·.delivery.call != w.delivery.call)).length + 1 :=
  (perm_cons_filter_ne (List.nodup_append.mp hrunning).2.1 hw).length_eq

theorem isWaiting_iff {c : Collector} {call : Nat} : c.isWaiting call = true ↔ call ∈ c.inLine := by
  simp [isWaiting, inLine]

/-- A call that ends by its scan has nothing in the queue and never stood in line. -/
theorem Balanced.outcome_of_scanned {x : Books} (hx : x.Balanced) {a : Arrival} (ha : a ∈ x.collector.arrived)
    {after : Collector} (hqueue : after.queue = x.collector.queue) :
    outcome x.collector after a.call =
      if x.collector.registry.matchers.isEmpty then .skipped else .unmatched := by
  have hunqueued := hx.not_queued (List.mem_append_left _ (List.mem_map_of_mem ha))
  have hout : x.collector.isWaiting a.call = false := by
    rw [← Bool.not_eq_true, isWaiting_iff]
    exact not_mem_inLine_of_arrived hx.nodup_running ha
  rw [outcome, hqueue, hunqueued, hout]
  rfl

theorem Balanced.outcome_drop {x : Books} (hx : x.Balanced) {w : Waiting} (hw : w ∈ x.collector.waiting) :
    outcome x.collector (x.collector.drop w.delivery.call) w.delivery.call = .dropped := by
  have hline : w.delivery.call ∈ x.collector.inLine := List.mem_map_of_mem hw
  have hunqueued := hx.not_queued (List.mem_append_right _ hline)
  simp [outcome, Collector.drop, hunqueued, isWaiting_iff.mpr hline]

theorem outcome_enqueue (c : Collector) (d : Delivery) : outcome c (c.enqueue d) d.call = .forwarded := by
  simp [outcome, Collector.enqueue]

theorem Balanced.start (queueSize sendLimit : Nat) (dumps : Option Directory) :
    Balanced ⟨0, .start queueSize sendLimit dumps, [], [], [], []⟩ :=
  ⟨rfl, .refl _, rfl, rfl, rfl, rfl, fun _ hd => nomatch hd⟩

theorem Balanced.arrive {x : Books} (hx : x.Balanced) (batch : Wire.Batch) (header : Option String) :
    Balanced { x.observe (x.collector.arrive batch (header.bind CallTimeout.read?)) with
      headers := x.headers ++ [header] } := by
  have hrunning : (x.collector.arrive batch (header.bind CallTimeout.read?)).running.Perm
      (x.collector.calls :: x.collector.running) := by
    simp only [running, inLine, Collector.arrive, List.map_append, List.map_singleton, List.append_assoc]
    exact List.perm_middle
  have hended : (x.observe (x.collector.arrive batch (header.bind CallTimeout.read?))).ended = x.ended :=
    observe_ended_of_subset fun call hcall => hrunning.symm.subset (List.mem_cons_of_mem _ hcall)
  have hcalls : ((x.collector.arrive batch (header.bind CallTimeout.read?)).running ++
      x.ended.map (·.call)).Perm (List.range (x.collector.calls + 1)) := by
    rw [List.range_succ]
    exact ((hrunning.append_right _).trans (hx.calls.cons _)).trans (List.perm_append_singleton _ _).symm
  refine ⟨?_, ?_, ?_, ?_, ?_, ?_, ?_⟩
  · simpa [observe, Collector.arrive] using hx.headed
  · rw [← hended] at hcalls
    exact hcalls
  · exact congrArg (· + 1) hx.received
  all_goals
    simp only [count, hended]
  · exact hx.scanned
  · exact hx.forwarded
  · exact hx.dropped
  · exact hx.queued

/-- While calls go on running, the books stay balanced if the counters follow the line. -/
theorem Balanced.continue {x : Books} (hx : x.Balanced) {after : Collector}
    (hcalls : after.calls = x.collector.calls) (hrunning : after.running.Perm x.collector.running)
    (hqueue : after.queue ⊆ x.collector.queue)
    (hreceived : after.counters.received = x.collector.counters.received)
    (hscanned : after.counters.scanned + x.collector.waiting.length =
      x.collector.counters.scanned + after.waiting.length)
    (hforwarded : after.counters.forwarded = x.collector.counters.forwarded)
    (hdropped : after.counters.dropped = x.collector.counters.dropped) : (x.observe after).Balanced := by
  have hended : (x.observe after).ended = x.ended := observe_ended_of_subset hrunning.symm.subset
  have hbalance := hx.scanned
  refine ⟨?_, ?_, ?_, ?_, ?_, ?_, fun d hd => ?_⟩
  · exact hx.headed.trans hcalls.symm
  · rw [hended]
    change (after.running ++ x.ended.map (·.call)).Perm (List.range after.calls)
    rw [hcalls]
    exact (hrunning.append_right _).trans hx.calls
  · exact hreceived.trans (hx.received.trans hcalls.symm)
  · simp only [count, hended] at hbalance ⊢
    change after.counters.scanned = _ + _ + _ + after.waiting.length
    omega
  · simp only [count, hended]
    exact hforwarded.trans hx.forwarded
  · simp only [count, hended]
    exact hdropped.trans hx.dropped
  · rw [hended]
    exact hx.queued d (hqueue hd)

/-- When a call ends, the books stay balanced if the counters follow its outcome. -/
theorem Balanced.end {x : Books} (hx : x.Balanced) {after : Collector} (call : Nat) (o : Outcome)
    (houtcome : outcome x.collector after call = o) (hcalls : after.calls = x.collector.calls)
    (hrunning : x.collector.running.Perm (call :: after.running))
    (hqueue : ∀ d ∈ after.queue, d ∈ x.collector.queue ∨ d.call = call)
    (hreceived : after.counters.received = x.collector.counters.received)
    (hscanned : after.counters.scanned + x.collector.waiting.length + (if o = .skipped then 1 else 0) =
      x.collector.counters.scanned + after.waiting.length + 1)
    (hforwarded : after.counters.forwarded =
      x.collector.counters.forwarded + if o = .forwarded then 1 else 0)
    (hdropped : after.counters.dropped = x.collector.counters.dropped + if o = .dropped then 1 else 0) :
    (x.observe after).Balanced := by
  have hended := observe_ended_of_perm hx hrunning
  have hcount (o' : Outcome) : (x.observe after).count o' = x.count o' + if o = o' then 1 else 0 := by
    simp [count, hended, houtcome, List.countP_append, List.countP_singleton]
  have hbalance := hx.scanned
  refine ⟨hx.headed.trans hcalls.symm, ?_, hreceived.trans (hx.received.trans hcalls.symm), ?_, ?_, ?_,
    fun d hd => ?_⟩
  · rw [hended]
    change (after.running ++ (x.ended ++ ([_] : List Ending)).map (·.call)).Perm (List.range after.calls)
    rw [hcalls, List.map_append, List.map_singleton, ← List.append_assoc]
    exact (List.perm_append_singleton _ _).trans ((hrunning.symm.append_right _).trans hx.calls)
  · simp only [hcount]
    change after.counters.scanned = _ + after.waiting.length
    cases o <;> simp only [reduceCtorEq, if_true, if_false] at hscanned ⊢ <;> omega
  · rw [hcount, ← hx.forwarded]
    exact hforwarded
  · rw [hcount, ← hx.dropped]
    exact hdropped
  · rw [hended, List.map_append, List.mem_append]
    rcases hqueue d hd with hold | hnew
    · exact Or.inl (hx.queued d hold)
    · exact Or.inr (by simp [hnew])

theorem Balanced.move {x : Books} (hx : x.Balanced) {after : Collector} (h : Move x.now x.collector after) :
    (x.observe after).Balanced := by
  have hnodup := hx.nodup_running
  have hcalls := h.frame.2.2.1
  cases h.effect with
  | quiet harrived hline hkept hqueue hcounters =>
      have hlength : after.waiting.length = x.collector.waiting.length := by
        simpa [inLine] using congrArg List.length hline
      refine hx.continue hcalls ?_ hqueue (by rw [hcounters]) (by rw [hcounters, hlength]) (by rw [hcounters])
        (by rw [hcounters])
      rw [running, running, harrived, hline]
  | @skip a ha hempty =>
      refine hx.end a.call .skipped ?_ hcalls (running_perm_of_scanned hnodup ha) (fun d hd => Or.inl hd) rfl
        (by simp) (by simp) (by simp)
      simp [hx.outcome_of_scanned ha, hempty]
  | @pass a ha hmatchers =>
      refine hx.end a.call .unmatched ?_ hcalls (running_perm_of_scanned hnodup ha) (fun d hd => Or.inl hd)
        rfl ?_ (by simp) (by simp)
      · simp [hx.outcome_of_scanned ha, hmatchers]
      · simp only [reduceCtorEq, if_false]
        omega
  | @line a ha index session =>
      refine hx.continue hcalls ?_ (List.Subset.refl _) rfl ?_ rfl rfl
      · refine .trans ?_ (running_perm_of_scanned hnodup ha).symm
        simp only [running, inLine, List.map_append, List.map_singleton, ← List.append_assoc]
        exact List.perm_append_singleton _ _
      · simp only [List.length_append, List.length_singleton]
        omega
  | @drop w hw hgives =>
      have hlength := length_of_left hnodup hw
      refine hx.end w.delivery.call .dropped (hx.outcome_drop hw) hcalls (running_perm_of_left hnodup hw)
        (fun d hd => Or.inl hd) rfl ?_ rfl rfl
      simp only [Collector.drop, reduceCtorEq, if_false]
      omega
  | @forward w hw hopen hgranted =>
      have hlength := length_of_left hnodup hw
      refine hx.end w.delivery.call .forwarded (outcome_enqueue _ _) hcalls (running_perm_of_left hnodup hw)
        (fun d hd => ?_) rfl ?_ rfl rfl
      · rcases List.mem_append.mp hd with hd | hd
        · exact Or.inl hd
        · exact Or.inr (congrArg Delivery.call (List.mem_singleton.mp hd))
      · simp only [Collector.enqueue, reduceCtorEq, if_false]
        omega

/-! Timers -/

/-- The instant at which the time of a call in line is up: it came into line, and stands there as long as it
may. -/
def Due (x : Books) (call deadline : Nat) : Prop :=
  ∃ since header, (call, since) ∈ x.lined ∧ x.headers[call]? = some header ∧
    deadline = since + patience x.collector.sendLimit header

/-- Every call in line comes to its timer, and while the queue is open there was no place for it that it was
not granted; and every call that left the line did so by its timer, and gave up because the queue was closed
or because no place had been there for it in its time. -/
structure Timely (x : Books) : Prop where
  limits : ∀ a ∈ x.collector.arrived, ∃ header,
    x.headers[a.call]? = some header ∧ a.limit = patience x.collector.sendLimit header
  fresh : ∀ a ∈ x.collector.arrived, a.call ∉ x.lined.map (·.1)
  once : (x.lined.map (·.1)).Nodup
  known : ∀ call ∈ x.lined.map (·.1), call < x.collector.calls
  offered : ∀ call ∈ x.offered, call ∈ x.lined.map (·.1)
  line : ∀ w ∈ x.collector.waiting, x.Due w.delivery.call w.deadline ∧ x.now ≤ tick w.deadline ∧
    (x.collector.closed = false → w.granted = false → w.delivery.call ∉ x.offered)
  ended : ∀ e ∈ x.ended, e.outcome = .forwarded ∨ e.outcome = .dropped →
    ∃ deadline, x.Due e.call deadline ∧ e.instant ≤ tick deadline ∧
      (e.outcome = .dropped → e.closed = true ∨ (deadline ≤ e.instant ∧ e.call ∉ x.offered))

/-- Who has just left the line had stood there, and gave up because the queue was closed or because its time
was up and it had been granted no place. -/
def Excused (x : Books) (e : Ending) : Prop :=
  e.outcome = .forwarded ∨ e.outcome = .dropped →
    ∃ w ∈ x.collector.waiting, e.call = w.delivery.call ∧ e.instant = x.now ∧
      (e.outcome = .dropped → e.closed = true ∨
        (x.collector.closed = false ∧ w.granted = false ∧ w.deadline ≤ x.now))

theorem Due.mono {x x' : Books} {call deadline : Nat} (h : x.Due call deadline)
    (hlimit : x'.collector.sendLimit = x.collector.sendLimit) (hlined : x.lined ⊆ x'.lined)
    (hheaders : x.headers <+: x'.headers) : x'.Due call deadline := by
  obtain ⟨since, header, hmem, hheader, rfl⟩ := h
  refine ⟨since, header, hlined hmem, ?_, by rw [hlimit]⟩
  obtain ⟨later, hlater⟩ := hheaders
  rw [← hlater, List.getElem?_append_left (List.getElem?_eq_some_iff.mp hheader).1]
  exact hheader

theorem mem_inLine_of_offers {c : Collector} {call : Nat} (h : call ∈ c.offers) : call ∈ c.inLine := by
  obtain ⟨w, hw, rfl⟩ := List.mem_map.mp h
  exact List.mem_map_of_mem (List.mem_of_mem_filter hw)

/-- While the queue is open, there is no place for a call that is granted none. -/
theorem not_offered {c : Collector} (h : c.Fair) (hopen : c.closed = false) {w : Waiting}
    (hw : w ∈ c.waiting) (hgranted : w.granted = false) : w.delivery.call ∉ c.offers := by
  intro hoffered
  obtain ⟨v, hv, hcall⟩ := List.mem_map.mp hoffered
  obtain ⟨hv, hplace⟩ := List.mem_filter.mp hv
  obtain rfl : v = w := List.inj_on_of_nodup_map h.distinct hv hw hcall
  simp [hgranted, h.full hopen v hv hgranted] at hplace

/-- A step keeps timers if everyone who is in line after it was so before, or has just been scanned, and if
whoever has left the line by it had a reason to. -/
theorem Timely.observe {x : Books} (hx : x.Timely) (hbalanced : x.Balanced) {after : Collector}
    (hafter : (x.observe after).Balanced) (hfair : after.Fair)
    (hlimit : after.sendLimit = x.collector.sendLimit) (hcalls : after.calls = x.collector.calls)
    (hopen : after.closed = false → x.collector.closed = false)
    (harrived : after.arrived ⊆ x.collector.arrived)
    (hline : ∀ v ∈ after.waiting,
      (∃ w ∈ x.collector.waiting, v.delivery.call = w.delivery.call ∧ v.deadline = w.deadline ∧
        (v.granted = false → w.granted = false)) ∨
      ∃ a ∈ x.collector.arrived, v.delivery.call = a.call ∧ v.deadline = x.now + a.limit)
    (hended : ∀ e ∈ (x.observe after).ended, e ∈ x.ended ∨ x.Excused e) :
    (x.observe after).Timely := by
  have hgrow : x.lined ⊆ (x.observe after).lined := List.subset_append_left _ _
  have hdue {call deadline : Nat} (h : x.Due call deadline) : (x.observe after).Due call deadline :=
    h.mono hlimit hgrow (List.prefix_refl _)
  have hkeys : (x.observe after).lined.map (·.1) =
      x.lined.map (·.1) ++ after.inLine.filter (· ∉ x.collector.inLine) := by
    simp [Books.observe, List.map_map, Function.comp_def]
  -- Whoever is new in line has just been scanned, and was not in line before.
  have hnew {call : Nat} (hcall : call ∈ after.inLine.filter (· ∉ x.collector.inLine)) :
      call ∈ after.inLine ∧ call ∉ x.lined.map (·.1) := by
    obtain ⟨hmem, hout⟩ := List.mem_filter.mp hcall
    refine ⟨hmem, ?_⟩
    obtain ⟨v, hv, rfl⟩ := List.mem_map.mp hmem
    rcases hline v hv with ⟨w, hw, hsame, -⟩ | ⟨a, ha, hsame, -⟩
    · have hold : v.delivery.call ∈ x.collector.inLine := hsame ▸ List.mem_map_of_mem hw
      simp [hold] at hout
    · rw [hsame]
      exact hx.fresh a ha
  have hlined : ∀ w ∈ after.waiting, (x.observe after).Due w.delivery.call w.deadline ∧
      x.now ≤ tick w.deadline ∧
      (after.closed = false → w.granted = false → w.delivery.call ∉ x.offered) := by
    intro v hv
    rcases hline v hv with ⟨w, hw, hcall, hdeadline, hgranted⟩ | ⟨a, ha, hcall, hdeadline⟩
    · obtain ⟨hdueW, hnow, hpassed⟩ := hx.line w hw
      rw [hcall, hdeadline]
      exact ⟨hdue hdueW, hnow, fun hclosed hungranted => hpassed (hopen hclosed) (hgranted hungranted)⟩
    · obtain ⟨header, hheader, hpatience⟩ := hx.limits a ha
      have hout : a.call ∉ x.collector.inLine := not_mem_inLine_of_arrived hbalanced.nodup_running ha
      have hmem : (a.call, x.now) ∈ (x.observe after).lined := by
        refine List.mem_append_right _ (List.mem_map.mpr ⟨a.call, List.mem_filter.mpr ⟨?_, ?_⟩, rfl⟩)
        · rw [← hcall]
          exact List.mem_map_of_mem hv
        · simpa using hout
      rw [hcall, hdeadline]
      refine ⟨⟨x.now, header, hmem, hheader, ?_⟩, ?_,
        fun _ _ hoffered => hx.fresh a ha (hx.offered _ hoffered)⟩
      · rw [hpatience]
        exact congrArg (x.now + patience · header) hlimit.symm
      · exact Nat.le_trans (Nat.le_add_right _ _) (le_tick _)
  refine ⟨fun a ha => ?_, fun a ha hmem => ?_, ?_, fun call hmem => ?_, fun call hmem => ?_, fun w hw => ?_,
    fun e he houtcome => ?_⟩
  · change ∃ header, x.headers[a.call]? = some header ∧ a.limit = patience after.sendLimit header
    rw [hlimit]
    exact hx.limits a (harrived ha)
  · rw [hkeys, List.mem_append] at hmem
    rcases hmem with hold | hmem
    · exact hx.fresh a (harrived ha) hold
    · exact not_mem_inLine_of_arrived hafter.nodup_running ha (hnew hmem).1
  · rw [hkeys]
    refine List.nodup_append.mpr ⟨hx.once, hfair.distinct.filter _, ?_⟩
    rintro call hold _ hmem rfl
    exact (hnew hmem).2 hold
  · rw [hkeys, List.mem_append] at hmem
    rcases hmem with hold | hmem
    · exact (hx.known call hold).trans_eq hcalls.symm
    · exact hafter.lt_calls (List.mem_append_right _ (hnew hmem).1)
  · rcases List.mem_append.mp hmem with hold | hmem
    · rw [hkeys]
      exact List.mem_append_left _ (hx.offered call hold)
    · obtain ⟨w, hw, rfl⟩ := List.mem_map.mp (mem_inLine_of_offers hmem)
      obtain ⟨since, -, hsince, -⟩ := (hlined w hw).1
      exact List.mem_map_of_mem hsince
  · obtain ⟨hdueW, hnow, hpassed⟩ := hlined w hw
    refine ⟨hdueW, hnow, fun hclosed hungranted hoffered => ?_⟩
    rcases List.mem_append.mp hoffered with hold | hoffers
    · exact hpassed hclosed hungranted hold
    · exact not_offered hfair hclosed hw hungranted hoffers
  · have hgone : e.call ∉ after.offers := fun hoffers =>
      hafter.not_ended (List.mem_append_right _ (mem_inLine_of_offers hoffers)) (List.mem_map_of_mem he)
    have hpassed (hold : e.call ∉ x.offered) : e.call ∉ (x.observe after).offered := fun hmem =>
      (List.mem_append.mp hmem).elim hold hgone
    rcases hended e he with hold | hend
    · obtain ⟨deadline, hdueE, htimer, hreason⟩ := hx.ended e hold houtcome
      exact ⟨deadline, hdue hdueE, htimer,
        fun hdropped => (hreason hdropped).imp_right fun h => ⟨h.1, hpassed h.2⟩⟩
    · obtain ⟨w, hw, hcall, hinstant, hreason⟩ := hend houtcome
      obtain ⟨hdueW, hnow, hline⟩ := hx.line w hw
      refine ⟨w.deadline, hcall ▸ hdue hdueW, hinstant ▸ hnow, fun hdropped => ?_⟩
      refine (hreason hdropped).imp_right fun ⟨hopen, hungranted, hdeadline⟩ => ⟨hinstant ▸ hdeadline, ?_⟩
      exact hpassed (hcall ▸ hline hopen hungranted)

theorem Timely.start (queueSize sendLimit : Nat) (dumps : Option Directory) :
    Timely ⟨0, .start queueSize sendLimit dumps, [], [], [], []⟩ where
  limits _ ha := nomatch ha
  fresh _ ha := nomatch ha
  once := .nil
  known _ h := nomatch h
  offered _ h := nomatch h
  line _ hw := nomatch hw
  ended _ he := nomatch he

theorem Timely.arrive {x : Books} (hx : x.Timely) (hbalanced : x.Balanced) (hfair : x.collector.Fair)
    (batch : Wire.Batch) (header : Option String) :
    Timely { x.observe (x.collector.arrive batch (header.bind CallTimeout.read?)) with
      headers := x.headers ++ [header] } := by
  have hended : (x.observe (x.collector.arrive batch (header.bind CallTimeout.read?))).ended = x.ended := by
    refine observe_ended_of_subset fun call hcall => ?_
    simp only [running, inLine, Collector.arrive, List.map_append, List.mem_append] at hcall ⊢
    exact hcall.imp_left Or.inl
  have hlined : (x.observe (x.collector.arrive batch (header.bind CallTimeout.read?))).lined = x.lined := by
    have hnone : x.collector.inLine.filter (· ∉ x.collector.inLine) = [] := by
      simp [List.filter_eq_nil_iff]
    change x.lined ++ (x.collector.inLine.filter (· ∉ x.collector.inLine)).map _ = x.lined
    rw [hnone]
    exact List.append_nil _
  have hdue {call deadline : Nat} (h : x.Due call deadline) :
      Due { x.observe (x.collector.arrive batch (header.bind CallTimeout.read?)) with
        headers := x.headers ++ [header] } call deadline :=
    h.mono rfl (by rw [hlined]; exact List.Subset.refl _) (List.prefix_append _ _)
  -- Nobody has come into line, so that the same calls have places as before.
  have hoffers : (x.collector.arrive batch (header.bind CallTimeout.read?)).offers = x.collector.offers := rfl
  have hinLine {call : Nat} (h : call ∈ x.collector.offers) : call ∈ x.collector.running :=
    List.mem_append_right _ (mem_inLine_of_offers h)
  refine ⟨fun a ha => ?_, fun a ha => ?_, ?_, fun call hmem => ?_, fun call hmem => ?_, fun w hw => ?_,
    fun e he houtcome => ?_⟩
  · rcases List.mem_append.mp ha with ha | ha
    · obtain ⟨h, hheader, hlimit⟩ := hx.limits a ha
      refine ⟨h, ?_, hlimit⟩
      change (x.headers ++ [header])[a.call]? = some h
      rw [List.getElem?_append_left (List.getElem?_eq_some_iff.mp hheader).1]
      exact hheader
    · rw [List.mem_singleton.mp ha]
      refine ⟨header, ?_, rfl⟩
      change (x.headers ++ [header])[x.collector.calls]? = some header
      rw [← hbalanced.headed, List.getElem?_concat_length]
  · rw [hlined]
    rcases List.mem_append.mp ha with ha | ha
    · exact hx.fresh a ha
    · rw [List.mem_singleton.mp ha]
      exact fun hmem => Nat.lt_irrefl _ (hx.known _ hmem)
  · rw [hlined]
    exact hx.once
  · rw [hlined] at hmem
    exact Nat.lt_succ_of_lt (hx.known call hmem)
  · rw [hlined]
    rcases List.mem_append.mp hmem with hold | hmem
    · exact hx.offered call hold
    · obtain ⟨w, hw, rfl⟩ := List.mem_map.mp (mem_inLine_of_offers hmem)
      obtain ⟨since, -, hsince, -⟩ := (hx.line w hw).1
      exact List.mem_map_of_mem hsince
  · obtain ⟨hdueW, hnow, hpassed⟩ := hx.line w hw
    refine ⟨hdue hdueW, hnow, fun hopen hungranted hmem => ?_⟩
    rcases List.mem_append.mp hmem with hold | hmem
    · exact hpassed hopen hungranted hold
    · exact not_offered hfair hopen hw hungranted hmem
  · rw [hended] at he
    obtain ⟨deadline, hdueE, htimer, hreason⟩ := hx.ended e he houtcome
    refine ⟨deadline, hdue hdueE, htimer, fun hdropped => (hreason hdropped).imp_right fun h => ⟨h.1, ?_⟩⟩
    intro hmem
    rcases List.mem_append.mp hmem with hold | hmem
    · exact h.2 hold
    · exact hbalanced.not_ended (hinLine hmem) (List.mem_map_of_mem he)

theorem Timely.move {x : Books} (hx : x.Timely) (hbalanced : x.Balanced) (hfair : x.collector.Fair)
    {after : Collector} (h : Move x.now x.collector after) : (x.observe after).Timely := by
  have hnodup := hbalanced.nodup_running
  have hfair' := h.fair hfair hnodup
  obtain ⟨-, hlimit, hcalls, hopen⟩ := h.frame
  have hkeep (v : Waiting) (hv : v ∈ x.collector.waiting) : ∃ w ∈ x.collector.waiting,
      v.delivery.call = w.delivery.call ∧ v.deadline = w.deadline ∧ (v.granted = false → w.granted = false) :=
    ⟨v, hv, rfl, rfl, id⟩
  have hcontinue (hrunning : x.collector.running ⊆ after.running) (e : Ending)
      (he : e ∈ (x.observe after).ended) : e ∈ x.ended ∨ x.Excused e := by
    rw [observe_ended_of_subset hrunning] at he
    exact Or.inl he
  have hend {call : Nat} (hrunning : x.collector.running.Perm (call :: after.running))
      (hexcused : x.Excused ⟨call, outcome x.collector after call, acknowledgement, x.now, after.closed⟩)
      (e : Ending) (he : e ∈ (x.observe after).ended) : e ∈ x.ended ∨ x.Excused e := by
    rw [observe_ended_of_perm hbalanced hrunning, List.mem_append, List.mem_singleton] at he
    refine he.imp_right fun he => ?_
    rw [he]
    exact hexcused
  cases h.effect with
  | quiet harrived hline hkept hqueue hcounters =>
      refine hx.observe hbalanced (hbalanced.move h) hfair' hlimit hcalls hopen
        (harrived ▸ List.Subset.refl _)
        (fun v hv => Or.inl (hkept v hv)) (hcontinue ?_)
      rw [running, running, harrived, hline]
      exact List.Subset.refl _
  | @skip a ha hempty =>
      refine hx.observe hbalanced (hbalanced.move h) hfair' hlimit hcalls hopen (List.filter_subset_self _)
        (fun v hv => Or.inl (hkeep v hv)) (hend (running_perm_of_scanned hnodup ha) fun houtcome => ?_)
      simp [hbalanced.outcome_of_scanned ha, hempty] at houtcome
  | @pass a ha hmatchers =>
      refine hx.observe hbalanced (hbalanced.move h) hfair' hlimit hcalls hopen (List.filter_subset_self _)
        (fun v hv => Or.inl (hkeep v hv)) (hend (running_perm_of_scanned hnodup ha) fun houtcome => ?_)
      simp [hbalanced.outcome_of_scanned ha, hmatchers] at houtcome
  | @line a ha index session =>
      refine hx.observe hbalanced (hbalanced.move h) hfair' hlimit hcalls hopen (List.filter_subset_self _)
        (fun v hv => ?_) (hcontinue ?_)
      · rcases List.mem_append.mp hv with hv | hv
        · exact Or.inl (hkeep v hv)
        · rw [List.mem_singleton.mp hv]
          exact Or.inr ⟨a, ha, rfl, rfl⟩
      · intro call hcall
        rcases List.mem_cons.mp ((running_perm_of_scanned hnodup ha).subset hcall) with rfl | hcall
        · simp [running, inLine]
        · simp only [running, inLine, List.map_append, ← List.append_assoc]
          exact List.mem_append_left _ hcall
  | @drop w hw hgives =>
      refine hx.observe hbalanced (hbalanced.move h) hfair' hlimit hcalls hopen (List.Subset.refl _)
        (fun v hv => Or.inl (hkeep v (mem_filter_call hv)))
        (hend (running_perm_of_left hnodup hw) fun _ => ⟨w, hw, rfl, rfl, fun _ => ?_⟩)
      change x.collector.closed = true ∨ _
      cases hclosed : x.collector.closed with
      | true => exact Or.inl rfl
      | false =>
          rw [hclosed] at hgives
          exact Or.inr ⟨rfl, hgives.resolve_left Bool.false_ne_true⟩
  | @forward w hw hopen' hgranted =>
      refine hx.observe hbalanced (hbalanced.move h) hfair' hlimit hcalls hopen (List.Subset.refl _)
        (fun v hv => Or.inl (hkeep v (mem_filter_call hv)))
        (hend (running_perm_of_left hnodup hw) fun _ => ⟨w, hw, rfl, rfl, fun hdropped => ?_⟩)
      rw [outcome_enqueue] at hdropped
      cases hdropped

/-- The clock moves to the next timer at most. -/
theorem Timely.wait {x : Books} (hx : x.Timely) {instant : Nat}
    (htimers : ∀ w ∈ x.collector.waiting, instant ≤ tick w.deadline) : Timely { x with now := instant } :=
  { hx with
    line := fun w hw => ⟨(hx.line w hw).1, htimers w hw, (hx.line w hw).2.2⟩ }

/-! What holds at every moment -/

structure Sound (queueSize sendLimit : Nat) (x : Books) : Prop where
  capacity : x.collector.capacity = max 1 queueSize
  limit : x.collector.sendLimit = sendLimit
  fair : x.collector.Fair
  balanced : x.Balanced
  timely : x.Timely
  answered : ∀ e ∈ x.ended, e.answer = acknowledgement

theorem observe_answered {x : Books} (hx : ∀ e ∈ x.ended, e.answer = acknowledgement) (after : Collector) :
    ∀ e ∈ (x.observe after).ended, e.answer = acknowledgement := by
  intro e he
  rcases List.mem_append.mp he with he | he
  · exact hx e he
  · obtain ⟨call, -, rfl⟩ := List.mem_map.mp he
    rfl

theorem Sound.step {queueSize sendLimit : Nat} {x x' : Books} (hx : Sound queueSize sendLimit x)
    (h : Step x x') : Sound queueSize sendLimit x' := by
  cases h with
  | arrive batch header =>
      exact
        { capacity := hx.capacity
          limit := hx.limit
          fair := hx.fair.arrive _ _
          balanced := hx.balanced.arrive batch header
          timely := hx.timely.arrive hx.balanced hx.fair batch header
          answered := observe_answered hx.answered _ }
  | @move after h =>
      obtain ⟨hcapacity, hlimit, -, -⟩ := h.frame
      exact
        { capacity := hcapacity.trans hx.capacity
          limit := hlimit.trans hx.limit
          fair := h.fair hx.fair hx.balanced.nodup_running
          balanced := hx.balanced.move h
          timely := hx.timely.move hx.balanced hx.fair h
          answered := observe_answered hx.answered _ }
  | wait hlater htimers =>
      exact
        { capacity := hx.capacity
          limit := hx.limit
          fair := hx.fair
          balanced := ⟨hx.balanced.headed, hx.balanced.calls, hx.balanced.received, hx.balanced.scanned,
            hx.balanced.forwarded, hx.balanced.dropped, hx.balanced.queued⟩
          timely := hx.timely.wait htimers
          answered := hx.answered }

theorem Reachable.sound {queueSize sendLimit : Nat} {x : Books} (hx : Reachable queueSize sendLimit x) :
    Sound queueSize sendLimit x := by
  induction hx with
  | start dumps =>
      exact
        { capacity := rfl
          limit := rfl
          fair := .start queueSize sendLimit dumps
          balanced := .start queueSize sendLimit dumps
          timely := .start queueSize sendLimit dumps
          answered := fun _ he => nomatch he }
  | step _ h ih => exact ih.step h

theorem Balanced.length_ended (x : Books) :
    x.ended.length = x.count .skipped + x.count .unmatched + x.count .forwarded + x.count .dropped := by
  unfold count
  induction x.ended with
  | nil => rfl
  | cons e ended ih =>
      simp only [List.length_cons, List.countP_cons, ih]
      cases e.outcome <;> simp <;> omega

/-- A call that is scanned has not arrived only. -/
theorem not_arrived_of_scan {c : Collector} {a : Arrival} (ha : a ∈ c.arrived) (now : Nat) :
    a.call ∉ (c.scan a.call now).arrived.map (·.call) := by
  have hgone : a.call ∉ (c.arrived.filter (·.call != a.call)).map (·.call) := by
    simp
  unfold Collector.scan
  split
  · rename_i hnone
    simpa using List.find?_eq_none.mp hnone a ha
  · dsimp only
    split <;> exact hgone

/-- A call whose time is up ends as soon as it looks around. -/
theorem not_running_of_resume {c : Collector} (hrunning : c.running.Nodup) {w : Waiting} (hw : w ∈ c.waiting)
    {now : Nat} (hdeadline : w.deadline ≤ now) :
    w.delivery.call ∉ (c.resume w.delivery.call now).running := by
  have hline := (List.nodup_append.mp hrunning).2.1
  have hgone : w.delivery.call ∉ c.arrived.map (·.call) ++
      (c.waiting.filter (·.delivery.call != w.delivery.call)).map (·.delivery.call) := by
    rw [List.mem_append, not_or]
    refine ⟨fun harrived => ?_, by simp⟩
    exact (List.nodup_append.mp hrunning).2.2 _ harrived _ (List.mem_map_of_mem hw) rfl
  unfold Collector.resume
  split
  · rename_i hnone
    simpa using List.find?_eq_none.mp hnone w hw
  · rename_i v hfind
    obtain rfl : v = w := List.inj_on_of_nodup_map hline (List.mem_of_find?_eq_some hfind) hw
      (by simpa using List.find?_some hfind)
    split
    · exact hgone
    · split <;> exact hgone

/-- The books are in order: counters say how many calls are running and how many have ended in which way;
there are never more matches in the queue than were asked for, or one; every call that came is running or has
ended, once, and was then acknowledged as a whole. A match is dropped only if the queue is closed, or its time
is up and no place ever was there for it. No match stands in line past the timer of its deadline, and then its
call can end. -/
structure Accounted (queueSize : Nat) (x : Books) : Prop where
  received : x.collector.counters.received =
    x.count .skipped + x.count .unmatched + x.collector.counters.forwarded + x.collector.counters.dropped +
      x.collector.running.length
  scanned : x.collector.counters.scanned =
    x.count .unmatched + x.collector.counters.forwarded + x.collector.counters.dropped +
      x.collector.waiting.length
  forwarded : x.collector.counters.forwarded = x.count .forwarded
  dropped : x.collector.counters.dropped = x.count .dropped
  bounded : x.collector.queue.length ≤ max 1 queueSize
  once : (x.collector.running ++ x.ended.map (·.call)).Perm (List.range x.collector.calls)
  acknowledged : ∀ e ∈ x.ended, e.answer.rejected = 0
  reasons : ∀ e ∈ x.ended, e.outcome = .dropped → e.closed = true ∨
    ∃ deadline, x.Due e.call deadline ∧ deadline ≤ e.instant ∧ e.call ∉ x.offered
  inTime : ∀ w ∈ x.collector.waiting, ∃ deadline, x.Due w.delivery.call deadline ∧ x.now ≤ tick deadline
  leftInTime : ∀ e ∈ x.ended, e.outcome = .forwarded ∨ e.outcome = .dropped →
    ∃ deadline, x.Due e.call deadline ∧ e.instant ≤ tick deadline
  scans : ∀ a ∈ x.collector.arrived,
    a.call ∉ (x.collector.scan a.call x.now).arrived.map (·.call)
  ends : ∀ w ∈ x.collector.waiting, tick w.deadline ≤ x.now →
    w.delivery.call ∉ (x.collector.resume w.delivery.call x.now).running

/-- Whatever calls, sessions, whoever takes matches, the end of the queue and the clock do in whatever order,
the books are in order at every moment. -/
theorem calls_accounted {queueSize sendLimit : Nat} {x : Books} (hx : Reachable queueSize sendLimit x) :
    x.Accounted queueSize := by
  obtain ⟨hcapacity, -, hfair, hbalanced, htimely, hanswered⟩ := hx.sound
  have hscanned := hbalanced.scanned
  rw [← hbalanced.forwarded, ← hbalanced.dropped] at hscanned
  have hlength := hbalanced.calls.length_eq
  rw [List.length_append, List.length_map, List.length_range, Balanced.length_ended, ← hbalanced.forwarded,
    ← hbalanced.dropped, ← hbalanced.received] at hlength
  refine ⟨by omega, hscanned, hbalanced.forwarded, hbalanced.dropped, ?_, hbalanced.calls, ?_, ?_, ?_, ?_, ?_,
    ?_⟩
  · rw [← hcapacity]
    exact hfair.queue_length_le
  · intro e he
    rw [hanswered e he]
    rfl
  · intro e he hdropped
    obtain ⟨deadline, hdue, -, hreason⟩ := htimely.ended e he (Or.inr hdropped)
    exact (hreason hdropped).imp_right fun h => ⟨deadline, hdue, h⟩
  · intro w hw
    obtain ⟨hdue, hnow, -⟩ := htimely.line w hw
    exact ⟨w.deadline, hdue, hnow⟩
  · intro e he houtcome
    obtain ⟨deadline, hdue, htimer, -⟩ := htimely.ended e he houtcome
    exact ⟨deadline, hdue, htimer⟩
  · exact fun a ha => not_arrived_of_scan ha x.now
  · intro w hw htimer
    exact not_running_of_resume hbalanced.nodup_running hw (Nat.le_trans (le_tick _) htimer)

/-- A batch that every matcher of its name finds. -/
def namedBatch : Wire.Batch := .ofSpans [.ofNumbers 7 1 "x" 10 20 [] []]

/-- A queue of one place, with a matcher, after two calls have come and been scanned and the first one has
taken the place. -/
def queuedUp : Books :=
  let x : Books := ⟨0, .start 1 (10 * second) none, [], [], [], []⟩
  let x := x.observe { x.collector with registry := ⟨1, [.name "x"]⟩ }
  let arrive (x : Books) (header : Option String) : Books :=
    { x.observe (x.collector.arrive namedBatch (header.bind CallTimeout.read?)) with
      headers := x.headers ++ [header] }
  let x := arrive (arrive x none) (some "20m")
  let x := x.observe (x.collector.scan 0 x.now)
  let x := x.observe (x.collector.scan 1 x.now)
  x.observe (x.collector.resume 0 x.now)

/-- The same after the time of the second call is up. -/
def timedOut : Books :=
  let x := { queuedUp with now := 20 * millisecond }
  x.observe (x.collector.resume 1 x.now)

theorem reachable_queuedUp : Reachable 1 (10 * second) queuedUp := by
  have hstart : Reachable 1 (10 * second) ⟨0, .start 1 (10 * second) none, [], [], [], []⟩ := .start none
  have hregistered := hstart.step (.move (.session ⟨1, [.name "x"]⟩ .free 0))
  have hfirst := hregistered.step (.arrive _ namedBatch none)
  have hsecond := hfirst.step (.arrive _ namedBatch (some "20m"))
  have hscanned := (hsecond.step (.move (.scan 0))).step (.move (.scan 1))
  exact hscanned.step (.move (.resume 0))

theorem reachable_timedOut : Reachable 1 (10 * second) timedOut := by
  have hwaited : Reachable 1 (10 * second) { queuedUp with now := 20 * millisecond } :=
    reachable_queuedUp.step (.wait (Nat.zero_le _) (by decide +kernel))
  exact hwaited.step (.move (.resume 1))

theorem timedOut_accounted :
    timedOut.Accounted 1 ∧ timedOut.collector.counters = ⟨2, 2, 1, 1⟩ ∧
      timedOut.ended.map (fun e => (e.call, e.outcome, e.instant, e.closed)) =
        [(0, .forwarded, 0, false), (1, .dropped, 20 * millisecond, false)] :=
  ⟨calls_accounted reachable_timedOut, by decide +kernel, by decide +kernel⟩

end Books

namespace Timeline

/-- Two calls for one place under a clock. The second one grants 7 microseconds, and is waited for. -/
def crowdedOut : Timeline × Option Nat :=
  let collector := (Collector.start 1 (10 * second) none).registerFor 1 [.name "x"]
  let send (header : Option String) : List Export := [⟨0, Books.namedBatch, header.bind CallTimeout.read?⟩]
  ((((Timeline.start collector).spawn (send none)).join 0).1.spawn (send (some "7u"))).join 1

/-- A timer rings at a whole millisecond, so that a match may stand in line for longer than its time. -/
theorem waits_longer_than_granted :
    ∃ waited, crowdedOut.2 = some waited ∧ crowdedOut.1.collector.counters.dropped = 1 ∧
      patience (10 * second) (some "7u") < waited :=
  ⟨millisecond, by decide +kernel, by decide +kernel, by decide +kernel⟩

end Timeline

end ContentProbe
