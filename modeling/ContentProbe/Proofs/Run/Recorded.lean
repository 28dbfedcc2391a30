import ContentProbe.Proofs.Growth
import ContentProbe.Proofs.Run.Deadline
import Mathlib.Order.Bounds.Basic

/-!
What a download tells of its transfer. Each turn of a run comes to operations on its download, so that what is
known of downloads under operations holds of runs. The transfer ends at its time limit if not before, and
the end of the action is looked at before the deadline; so if the drain is no shorter than that time limit,
no run reaches the end of its drain before it has told of its transfer. A run looks whether it is complete
whenever the transfer or a match brings something new, and so returns at once when it is.
-/

namespace ContentProbe

open ContentProbe.Time

/-! What a turn does to the download -/

/-- What the end of a transfer comes to: its failure if there is one, and the transfer. -/
def Fetch.ops (f : Fetch) : List Download.Op :=
  (f.fault.map fun fault => .fail fault.message).toList ++ [.finish f.transfer]

theorem Fetch.transfers_ops (f : Fetch) : Download.transfers f.ops = [f.transfer] := by
  unfold Fetch.ops
  cases f.fault <;> rfl

theorem Fetch.failures_ops (f : Fetch) :
    Download.failures f.ops = (f.fault.map ActionFault.message).toList := by
  unfold Fetch.ops
  cases f.fault <;> rfl

namespace DownloadRun

/-- What a turn does to the download, by what it finds ready. -/
def ops (m : Moment) (c : Collector) (r : DownloadRun) : List Download.Op :=
  match ready m c r, r.transfer, c.receive with
  | .cancellation, _, _ => [.fail cancelledText]
  | .actionEnd, some t, _ => t.value.ops
  | .ownMatch, _, .own d _ => [.ingest d.batch]
  | _, _, _ => []

/-- The run once its transfer has ended at an instant. -/
def ended (tail now : Nat) (f : Fetch) (r : DownloadRun) : DownloadRun :=
  postpone (now + tail) { r with download := r.download.run f.ops, transfer := none }

theorem settle_eq (tail now : Nat) (f : Fetch) (c : Collector) (r : DownloadRun) :
    settle tail now f c r = proceed c (r.ended tail now f) := by
  unfold settle ended Fetch.ops
  cases f.fault <;> rfl

theorem download_withMatch (tail now : Nat) (d : Delivery) (r : DownloadRun) :
    (r.withMatch tail now d).download = r.download.run [.ingest d.batch] := by
  cases hseen : r.seen with
  | true =>
      rw [withMatch_of_seen hseen]
      rfl
  | false =>
      rw [withMatch_of_unseen hseen]
      rfl

theorem proceed_eq_finished_iff {c after : Collector} {r : DownloadRun} {outcome : Except RunFault Download} :
    proceed c r = .finished after outcome ↔
      r.download.isComplete = true ∧ after = c.reset.dismiss ∧ outcome = .ok r.download.freeze := by
  unfold proceed finish
  cases r.download.isComplete <;> simp [eq_comm]

variable {s : RunSettings} {m : Moment} {c c' : Collector} {r r' : DownloadRun}

/-- A turn that finds the end of the action has a transfer that is due. -/
theorem due_of_ready (s : RunSettings) (h : ready m c r = .actionEnd) :
    ∃ t, r.transfer = some t ∧ t.after ≤ m.now := by
  have hbranch := turn_branch s m c r
  rw [h] at hbranch
  generalize turn s m c r = result at hbranch
  cases hbranch with
  | actionEnd _ ht hdue => exact ⟨_, ht, hdue⟩

theorem ready_of_due (hcancelled : m.cancelled = false) {t : Timed Fetch} (ht : r.transfer = some t)
    (hdue : t.after ≤ m.now) : ready m c r = .actionEnd := by
  simp [ready, hcancelled, ht, hdue]

/-- A run that goes on has done to its download what the turn comes to, and is not complete by that. -/
theorem download_of_next (h : turn s m c r = .next c' r') :
    r'.download = r.download.run (ops m c r) ∧ (r' = r ∨ r'.download.isComplete = false) := by
  have hbranch := turn_branch s m c r
  rw [h] at hbranch
  unfold ops
  generalize hnext : RunTurn.next c' r' = result at hbranch
  generalize ready m c r = found at hbranch ⊢
  cases hbranch with
  | cancellation => cases hnext
  | @actionEnd t _ ht =>
      rw [settle_eq] at hnext
      obtain ⟨hincomplete, -, rfl⟩ := proceed_eq_next_iff.mp hnext.symm
      simp only [ht]
      exact ⟨rfl, Or.inr hincomplete⟩
  | deadline => cases hnext
  | @ownMatch d _ _ _ hreceive =>
      obtain ⟨hincomplete, -, rfl⟩ := proceed_eq_next_iff.mp hnext.symm
      simp only [hreceive]
      exact ⟨download_withMatch _ _ d r, Or.inr hincomplete⟩
  | foreignMatch =>
      cases hnext
      exact ⟨rfl, Or.inl rfl⟩
  | closure => cases hnext
  | nothing => cases hnext

/-- A run that returns a download has done to it what the turn comes to, and has frozen it. -/
theorem download_of_finished {d : Download} (h : turn s m c r = .finished c' (.ok d)) :
    d = (r.download.run (ops m c r)).freeze := by
  have hbranch := turn_branch s m c r
  rw [h] at hbranch
  unfold ops
  generalize hfinished : RunTurn.finished c' (.ok d) = result at hbranch
  generalize ready m c r = found at hbranch ⊢
  cases hbranch with
  | cancellation =>
      cases hfinished
      rfl
  | @actionEnd t _ ht =>
      rw [settle_eq] at hfinished
      obtain ⟨-, -, hok⟩ := proceed_eq_finished_iff.mp hfinished.symm
      simp only [ht]
      exact Except.ok.inj hok
  | deadline =>
      cases hfinished
      rfl
  | @ownMatch e _ _ _ hreceive =>
      obtain ⟨-, -, hok⟩ := proceed_eq_finished_iff.mp hfinished.symm
      simp only [hreceive]
      rw [Except.ok.inj hok, download_withMatch]
  | foreignMatch => cases hfinished
  | closure => cases hfinished
  | nothing => cases hfinished

theorem ops_of_blocked (h : turn s m c r = .blocked) : ops m c r = [] := by
  simp [ops, (nothing_of_blocked h).1]

theorem cancelled_of_ready (s : RunSettings) (h : ready m c r = .cancellation) : m.cancelled = true := by
  have hbranch := turn_branch s m c r
  rw [h] at hbranch
  generalize turn s m c r = result at hbranch
  cases hbranch with
  | cancellation hcancelled => exact hcancelled

/-- Unless it is cancelled or finds the end of the action, a turn takes in a batch at most. -/
theorem ops_of_ne (s : RunSettings) (hcancelled : m.cancelled = false) (h : ready m c r ≠ .actionEnd) :
    ops m c r = [] ∨ ∃ b, ops m c r = [.ingest b] := by
  have hready : ready m c r ≠ .cancellation := by
    intro hready
    cases hcancelled.symm.trans (cancelled_of_ready s hready)
  unfold ops
  split
  · contradiction
  · contradiction
  · exact Or.inr ⟨_, rfl⟩
  · exact Or.inl rfl

theorem turn_of_cancelled (s : RunSettings) (c : Collector) (r : DownloadRun) (h : m.cancelled = true) :
    turn s m c r = finish c (r.download.fail cancelledText) := by
  simp [turn, h]

end DownloadRun

namespace DownloadCourse

variable (x : DownloadCourse)

/-- The download that the run begins with. -/
def request : Download := Download.ofContent x.contentId x.trace x.wallClock

def readyAt (n : Nat) (r : DownloadRun) : Ready :=
  DownloadRun.ready (x.schedule n).moment (x.schedule n).collector r

def opsAt (n : Nat) (r : DownloadRun) : List Download.Op :=
  DownloadRun.ops (x.schedule n).moment (x.schedule n).collector r

/-- What the turns before a given one do to the download, one after the other. -/
def opsUpTo (n : Nat) : List Download.Op := (List.range n).flatMap fun k => (x.before k).elim [] (x.opsAt k)

/-- The download after a turn: that of the run which goes on, or the one that is returned. -/
def Leaves (n : Nat) (d : Download) : Prop :=
  (∃ r, x.before (n + 1) = some r ∧ r.download = d) ∨ ∃ c, x.Returns n c (.ok d)

/-- By an instant, the stored spans of the trace of the request show that it has been handled. -/
def HandledBy (t : Nat) : Prop :=
  ∃ n d, x.Leaves n d ∧ x.schedule.now n ≤ t ∧
    ∃ s ∈ Download.spansOf d.store [x.trace], s.name = Names.handler

variable {x}

theorem opsUpTo_succ {n : Nat} {r : DownloadRun} (hr : x.before n = some r) :
    x.opsUpTo (n + 1) = x.opsUpTo n ++ x.opsAt n r := by
  simp [opsUpTo, List.range_succ, List.flatMap_append, hr]

/-- The download of a run is what the turns so far have made of it. -/
theorem download_eq_run {n : Nat} {r : DownloadRun} (hr : x.before n = some r) :
    r.download = x.request.run (x.opsUpTo n) := by
  refine Schedule.runAt_induction (P := fun n r => r.download = x.request.run (x.opsUpTo n)) rfl ?_ ?_ hr
  · intro n r c r' hr h hturn
    rw [opsUpTo_succ hr, Download.run_append, ← h]
    exact (DownloadRun.download_of_next hturn).1
  · intro n r hr h hturn
    have hops : x.opsAt n r = [] := DownloadRun.ops_of_blocked hturn
    rw [opsUpTo_succ hr, Download.run_append, ← h, hops]
    rfl

theorem returned_eq_run {n : Nat} {c : Collector} {d : Download} (h : x.Returns n c (.ok d)) :
    d = (x.request.run (x.opsUpTo (n + 1))).freeze := by
  obtain ⟨r, hr, hturn⟩ := h
  rw [opsUpTo_succ hr, Download.run_append, ← download_eq_run hr]
  exact DownloadRun.download_of_finished hturn

/-- A run that goes on is not complete. -/
theorem incomplete_of_before {n : Nat} {r : DownloadRun} (hr : x.before n = some r) :
    r.download.isComplete = false := by
  refine Schedule.runAt_induction (P := fun _ r => r.download.isComplete = false) rfl ?_ ?_ hr
  · intro n r c r' hr h hturn
    rcases (DownloadRun.download_of_next hturn).2 with rfl | hincomplete
    · exact h
    · exact hincomplete
  · exact fun _ _ _ h _ => h

/-! When the transfer is told of -/

/-- The turn that takes note of the end of the transfer finds the transfer of the payload, at the instant at
which that ends. -/
theorem now_of_actionEnd (hclock : x.Clocked) {n : Nat} {r : DownloadRun} (hr : x.before n = some r)
    (hready : x.readyAt n r = .actionEnd) :
    x.endedBy n = none ∧ x.schedule.now n = x.begin + x.fetch.transfer.duration ∧
      x.opsAt n r = x.fetch.ops := by
  obtain ⟨t, ht, hdue⟩ := DownloadRun.due_of_ready x.settings hready
  have hdraining := draining hclock hr
  obtain ⟨hnone, -⟩ := hdraining.now_eq_of_due ht hdue
  have hfetch := hdraining.transfer
  rw [ht, hnone] at hfetch
  obtain rfl := Option.some.inj hfetch
  refine ⟨hnone, Nat.le_antisymm ((DownloadRun.le_alarm_iff.mp hdraining.early).1 _ ht) hdue, ?_⟩
  unfold opsAt DownloadRun.ops
  rw [show DownloadRun.ready _ _ r = .actionEnd from hready, ht]

/-- A turn by which the transfer has ended is no earlier than its end. -/
theorem due_of_ended (hclock : x.Clocked) {n : Nat} {r : DownloadRun} (hr : x.before n = some r)
    (hended : (x.endedBy (n + 1)).isSome = true) :
    x.begin + x.fetch.transfer.duration ≤ x.schedule.now n := by
  obtain ⟨t, ht⟩ := Option.isSome_iff_exists.mp hended
  obtain ⟨k, r', hk, hr', hready, -⟩ := Schedule.exists_of_firstAt? ht
  rw [← (now_of_actionEnd hclock hr' hready).2.1]
  exact hclock.now_le (Nat.le_of_lt_succ hk) hr

/-- After a turn that is not cancelled, note has been taken of the transfer just if that has ended by then. -/
theorem ended_iff_due (hclock : x.Clocked) {n : Nat} {r : DownloadRun} (hr : x.before n = some r)
    (hcancelled : (x.schedule n).moment.cancelled = false) :
    (x.endedBy (n + 1)).isSome = true ↔ x.begin + x.fetch.transfer.duration ≤ x.schedule.now n := by
  refine ⟨due_of_ended hclock hr, fun hdue => ?_⟩
  cases hended : x.endedBy n with
  | some t =>
      have hsome : (x.endedBy n).isSome = true := by simp [hended]
      rwa [show x.endedBy (n + 1) = x.endedBy n from Schedule.firstAt?_succ_of_isSome hr hsome]
  | none =>
      have ht : r.transfer = some ⟨x.begin + x.fetch.transfer.duration, x.fetch⟩ := by
        rw [(draining hclock hr).transfer, hended]
        rfl
      have hready : x.readyAt n r = .actionEnd := DownloadRun.ready_of_due hcancelled ht hdue
      rw [show x.endedBy (n + 1) = some (x.schedule.now n) from
        Schedule.firstAt?_succ_of_eq hr hended hready]
      rfl

/-- What a turn that is not cancelled tells the download besides batches, it tells at the end of the
transfer. -/
theorem filterMap_opsAt {α : Type} {f : Download.Op → Option α} (hf : ∀ b, f (.ingest b) = none)
    (hclock : x.Clocked) {n : Nat} {r : DownloadRun} (hr : x.before n = some r)
    (hcancelled : (x.schedule n).moment.cancelled = false)
    (h : (x.opsUpTo n).filterMap f = if (x.endedBy n).isSome then x.fetch.ops.filterMap f else []) :
    (x.opsUpTo (n + 1)).filterMap f =
      if (x.endedBy (n + 1)).isSome then x.fetch.ops.filterMap f else [] := by
  rw [opsUpTo_succ hr, List.filterMap_append, h]
  by_cases hready : x.readyAt n r = .actionEnd
  · obtain ⟨hnone, -, hops⟩ := now_of_actionEnd hclock hr hready
    have hended : x.endedBy (n + 1) = some (x.schedule.now n) := Schedule.firstAt?_succ_of_eq hr hnone hready
    simp [hnone, hended, hops]
  · have hended : x.endedBy (n + 1) = x.endedBy n := Schedule.firstAt?_succ_of_ne hr hready
    have hquiet : (x.opsAt n r).filterMap f = [] := by
      rcases DownloadRun.ops_of_ne x.settings hcancelled hready with hops | ⟨b, hops⟩
      · rw [opsAt, hops, List.filterMap_nil]
      · rw [opsAt, hops, List.filterMap_cons_none (hf b), List.filterMap_nil]
    rw [hended, hquiet, List.append_nil]

/-- Before its end a run has told nothing of the transfer, and after it all there is to tell. -/
theorem filterMap_opsUpTo {α : Type} {f : Download.Op → Option α} (hf : ∀ b, f (.ingest b) = none)
    (hclock : x.Clocked) {n : Nat} {r : DownloadRun} (hr : x.before n = some r) :
    (x.opsUpTo n).filterMap f = if (x.endedBy n).isSome then x.fetch.ops.filterMap f else [] := by
  induction n generalizing r with
  | zero => rfl
  | succ n ih =>
      obtain ⟨r₀, hr₀, hgo⟩ := Schedule.exists_of_runAt_succ hr
      refine filterMap_opsAt hf hclock hr₀ ?_ (ih hr₀)
      rw [← Bool.not_eq_true]
      intro hcancelled
      have hturn : x.turnAt n r₀ = _ := DownloadRun.turn_of_cancelled x.settings _ r₀ hcancelled
      rcases hgo with ⟨c, hnext⟩ | ⟨hblocked, -⟩
      · cases hturn.symm.trans hnext
      · cases hturn.symm.trans hblocked

section

variable {n : Nat} {c : Collector} {d : Download}

theorem filterMap_of_returns {α : Type} {f : Download.Op → Option α} (hf : ∀ b, f (.ingest b) = none)
    (hclock : x.Clocked) (h : x.Returns n c (.ok d)) (hcancelled : (x.schedule n).moment.cancelled = false) :
    (x.opsUpTo (n + 1)).filterMap f =
      if (x.endedBy (n + 1)).isSome then x.fetch.ops.filterMap f else [] := by
  obtain ⟨r, hr, -⟩ := h
  exact filterMap_opsAt hf hclock hr hcancelled (filterMap_opsUpTo hf hclock hr)

theorem transfers_of_returns (hclock : x.Clocked) (h : x.Returns n c (.ok d))
    (hcancelled : (x.schedule n).moment.cancelled = false) :
    Download.transfers (x.opsUpTo (n + 1)) =
      if (x.endedBy (n + 1)).isSome then [x.fetch.transfer] else [] := by
  rw [← Fetch.transfers_ops]
  exact filterMap_of_returns (fun _ => rfl) hclock h hcancelled

theorem transfer_of_returns (hclock : x.Clocked) (h : x.Returns n c (.ok d))
    (hcancelled : (x.schedule n).moment.cancelled = false) :
    d.transfer = if (x.endedBy (n + 1)).isSome then some x.fetch.transfer else none := by
  rw [returned_eq_run h]
  change (x.request.run _).transfer = _
  rw [Download.transfer_run, transfers_of_returns hclock h hcancelled]
  split <;> rfl

theorem error_of_returns (hclock : x.Clocked) (h : x.Returns n c (.ok d))
    (hcancelled : (x.schedule n).moment.cancelled = false) (hended : (x.endedBy (n + 1)).isSome = true) :
    d.error = x.fetch.fault.map ActionFault.message := by
  have hfailures : Download.failures (x.opsUpTo (n + 1)) = Download.failures x.fetch.ops := by
    have htold := filterMap_of_returns (f := Download.Op.failure?) (fun _ => rfl) hclock h hcancelled
    rwa [hended] at htold
  rw [returned_eq_run h]
  change (x.request.run _).error = _
  rw [Download.error_run, hfailures, Fetch.failures_ops]
  cases x.fetch.fault <;> rfl

/-- A cancelled run returns what it had, which was not complete, with the cancellation as its last failure. -/
theorem of_cancelled (h : x.Returns n c (.ok d)) (hcancelled : (x.schedule n).moment.cancelled = true) :
    d.isComplete = false ∧ ∃ earlier, d.error = some (earlier ++ cancelledText) := by
  obtain ⟨r, hr, hturn⟩ := h
  have hcancel : x.turnAt n r = _ := DownloadRun.turn_of_cancelled x.settings _ r hcancelled
  cases hcancel.symm.trans hturn
  refine ⟨incomplete_of_before hr, ?_⟩
  change ∃ earlier, joinError r.download.error cancelledText = _
  cases r.download.error with
  | none => exact ⟨"", rfl⟩
  | some text => exact ⟨text ++ "; ", rfl⟩

/-- With a drain that is no shorter than the time limit of the transfer, a run that is not cancelled has taken
note of the end of the transfer when it returns. -/
theorem ended_of_returns (hclock : x.Clocked)
    (htimes : x.settings.downloadAction ≤ x.settings.downloadDrain) (h : x.Returns n c (.ok d))
    (hcancelled : (x.schedule n).moment.cancelled = false) : (x.endedBy (n + 1)).isSome = true := by
  obtain ⟨r, hr, hturn⟩ := id h
  rcases DownloadRun.cause_of_finished hturn with hcancel | hcomplete | hdue
  · cases hcancelled.symm.trans hcancel
  · by_contra hnone
    have htransfer := transfer_of_returns hclock h hcancelled
    rw [if_neg hnone] at htransfer
    simp [Download.isComplete, htransfer] at hcomplete
  · have hlimit : x.fetch.transfer.duration ≤ (timeLimit x.begin x.limit).after :=
      Payload.duration_read_le _ _ _
    have hdeadline : x.begin + x.limit ≤ r.deadline := by
      rw [(draining hclock hr).deadline]
      exact (Nat.add_le_add_left htimes x.begin).trans (Nat.le_max_left _ _)
    apply (ended_iff_due hclock hr hcancelled).mpr
    calc x.begin + x.fetch.transfer.duration
      _ ≤ x.begin + (timeLimit x.begin x.limit).after := Nat.add_le_add_left hlimit x.begin
      _ = tick (x.begin + x.limit) := add_after_timeLimit _ _
      _ ≤ tick r.deadline := tick_mono hdeadline
      _ ≤ x.schedule.now n := hdue

end

/-! When a complete download is returned -/

theorem settled_of_leaves {n : Nat} {d : Download} (h : x.Leaves n d) : d.Settled ∧ d.catTrace = x.trace := by
  have hrun (ops : List Download.Op) :
      (x.request.run ops).Settled ∧ (x.request.run ops).catTrace = x.trace :=
    ⟨(Download.Settled.ofContent _ _ _).run ops, (Download.request_run _ ops).2⟩
  rcases h with ⟨r, hr, rfl⟩ | ⟨c, hreturns⟩
  · rw [download_eq_run hr]
    exact hrun _
  · rw [returned_eq_run hreturns]
    exact ⟨(hrun _).1.freeze, (hrun _).2⟩

theorem done_iff_of_leaves {n : Nat} {d : Download} (h : x.Leaves n d) :
    d.done = true ↔ ∃ s ∈ Download.spansOf d.store [x.trace], s.name = Names.handler := by
  obtain ⟨hsettled, htrace⟩ := settled_of_leaves h
  rw [hsettled.done, Download.catSpans, htrace]
  simp

/-- A request that has been handled stays so. -/
theorem done_of_le {n m : Nat} (hle : n ≤ m) {r r' : DownloadRun} (hr : x.before n = some r)
    (hr' : x.before m = some r') (hdone : r.download.done = true) : r'.download.done = true := by
  obtain ⟨later, hlater⟩ : ∃ later, x.opsUpTo m = x.opsUpTo n ++ later := by
    obtain ⟨k, rfl⟩ := Nat.exists_eq_add_of_le hle
    rw [opsUpTo, List.range_add, List.flatMap_append]
    exact ⟨_, rfl⟩
  rw [download_eq_run hr', hlater, Download.run_append, ← download_eq_run hr]
  have hsettled : r.download.Settled := by
    rw [download_eq_run hr]
    exact (Download.Settled.ofContent _ _ _).run _
  exact (hsettled.grows_run later).done hdone

/-- Until its transfer has ended a run has told of none. -/
theorem transfer_of_before (hclock : x.Clocked) {n : Nat} {r : DownloadRun} (hr : x.before n = some r) :
    r.download.transfer = if (x.endedBy n).isSome then some x.fetch.transfer else none := by
  have htold :
      Download.transfers (x.opsUpTo n) = if (x.endedBy n).isSome then [x.fetch.transfer] else [] := by
    rw [← Fetch.transfers_ops]
    exact filterMap_opsUpTo (fun _ => rfl) hclock hr
  rw [download_eq_run hr, Download.transfer_run, htold]
  split <;> rfl

/-- A complete download is returned at the first instant by which the transfer has ended and the request has
been handled. -/
theorem isLeast_of_complete (hclock : x.Clocked) {n : Nat} {c : Collector} {d : Download}
    (h : x.Returns n c (.ok d)) (hcomplete : d.isComplete = true) :
    IsLeast {t | x.begin + x.fetch.transfer.duration ≤ t ∧ x.HandledBy t} (x.schedule.now n) := by
  obtain ⟨hdone, htransfer⟩ : d.done = true ∧ d.transfer.isSome = true := by
    simpa [Download.isComplete] using hcomplete
  have hcancelled : (x.schedule n).moment.cancelled = false := by
    rw [← Bool.not_eq_true]
    intro hcancelled
    cases hcomplete.symm.trans (of_cancelled h hcancelled).1
  have hended : (x.endedBy (n + 1)).isSome = true := by
    by_contra hnone
    simp [transfer_of_returns hclock h hcancelled, hnone] at htransfer
  have hleaves : x.Leaves n d := Or.inr ⟨c, h⟩
  obtain ⟨r, hr, hturn⟩ := id h
  have hhandled : x.HandledBy (x.schedule.now n) :=
    ⟨n, d, hleaves, Nat.le_refl _, (done_iff_of_leaves hleaves).mp hdone⟩
  refine ⟨⟨due_of_ended hclock hr hended, hhandled⟩, ?_⟩
  rintro t ⟨hdue, k, e, hleft, hk, hhandled⟩
  rcases id hleft with ⟨r₁, hr₁, rfl⟩ | ⟨c', r', hr', hturn'⟩
  · -- The request had been handled before the turn, so the turn brought the end of the transfer.
    have hdone : r.download.done = true :=
      done_of_le (Schedule.le_of_finished hr hturn hr₁) hr₁ hr ((done_iff_of_leaves hleft).mpr hhandled)
    have hincomplete := incomplete_of_before hr
    have hnone : x.endedBy n = none := by
      cases hsome : x.endedBy n with
      | none => rfl
      | some t => simp [Download.isComplete, hdone, transfer_of_before hclock hr, hsome] at hincomplete
    have hready : x.readyAt n r = .actionEnd := by
      by_contra hready
      rw [show x.endedBy (n + 1) = x.endedBy n from Schedule.firstAt?_succ_of_ne hr hready, hnone] at hended
      cases hended
    rw [(now_of_actionEnd hclock hr hready).2.1]
    exact hdue
  · exact Nat.le_trans (hclock.now_le (Schedule.le_of_finished hr' hturn' hr) hr') hk

/-- What a download that returns tells of its transfer, if its drain is no shorter than the time limit of the
transfer. It is what the turns have made of it one after the other, and frozen. Unless the run was cancelled,
they have told it of the transfer exactly once, and it has failed just if the transfer has. A complete one is
returned at the first instant by which the transfer has ended and the stored spans show that the request has
been handled, and one that was cancelled says so in the end. -/
theorem records_transfer_once (x : DownloadCourse) (hclock : x.Clocked)
    (htimes : x.settings.downloadAction ≤ x.settings.downloadDrain) :
    ∀ n c d, x.Returns n c (.ok d) →
      d = (x.request.run (x.opsUpTo (n + 1))).freeze ∧
      ((x.schedule n).moment.cancelled = false →
        Download.transfers (x.opsUpTo (n + 1)) = [x.fetch.transfer] ∧ d.transfer = some x.fetch.transfer ∧
        (d.error = none ↔ x.fetch.fault = none)) ∧
      (d.isComplete = true →
        IsLeast {t | x.begin + x.fetch.transfer.duration ≤ t ∧ x.HandledBy t} (x.schedule.now n)) ∧
      ((x.schedule n).moment.cancelled = true → ∃ earlier, d.error = some (earlier ++ "probe cancelled")) := by
  intro n c d h
  refine ⟨returned_eq_run h, fun hcancelled => ?_, isLeast_of_complete hclock h, fun hcancelled => ?_⟩
  · have hended : (x.endedBy (n + 1)).isSome = true := ended_of_returns hclock htimes h hcancelled
    refine ⟨?_, ?_, ?_⟩
    · rw [transfers_of_returns hclock h hcancelled, if_pos hended]
    · rw [transfer_of_returns hclock h hcancelled, if_pos hended]
    · rw [error_of_returns hclock h hcancelled hended, Option.map_eq_none_iff]
  · exact (of_cancelled h hcancelled).2

/-! A download that is handled before its transfer is cut off -/

/-- The collector when a span that handles the request is in its queue. -/
def handling : Collector :=
  { idle with queue := [⟨0, 0, 1, .ofSpans [.ofNumbers 7 1 Names.handler 5 8 [] []]⟩] }

/-- A download whose payload stalls after its first chunk. -/
def stalled : DownloadCourse where
  settings := shortRuns
  wallClock := 0
  trace := .ofNat 7
  contentId := "cid"
  payload := ⟨⟨3 * millisecond, .ok [⟨2 * millisecond, .bytes 40⟩, ⟨20 * millisecond, .bytes 40⟩]⟩⟩
  schedule
    | 0 => ⟨⟨0, false, true⟩, idle⟩
    | 1 => ⟨⟨4 * millisecond, false, true⟩, handling⟩
    | 2 => ⟨⟨4 * millisecond, false, true⟩, idle⟩
    | _ => ⟨⟨10 * millisecond, false, true⟩, idle⟩

theorem stalled_returnsAt :
    stalled.schedule.returnsAt (DownloadRun.turn shortRuns) stalled.start DownloadRun.alarm 3
      (fun d => d.isComplete && d.error == some "action timed out after 10ms") = true := by
  decide +kernel

/-- It is returned when its transfer is cut off, with the bytes that had come and the failure. -/
theorem stalled_returns :
    stalled.Clocked ∧ stalled.settings.downloadAction ≤ stalled.settings.downloadDrain ∧
      ∃ c d, stalled.Returns 3 c (.ok d) ∧ d.isComplete = true ∧
        Download.transfers (stalled.opsUpTo 4) = [⟨some (5 * millisecond), 10 * millisecond, 40⟩] ∧
        d.error = some "action timed out after 10ms" ∧
        IsLeast {t | 10 * millisecond ≤ t ∧ stalled.HandledBy t} (10 * millisecond) := by
  obtain ⟨hclocked, -, c, d, hreturns, hcheck⟩ := Schedule.clocked_of_returnsAt stalled_returnsAt
  obtain ⟨hcomplete, herror⟩ := (Bool.and_eq_true _ _).mp hcheck
  have htimes : stalled.settings.downloadAction ≤ stalled.settings.downloadDrain := by decide
  have htransfer : stalled.fetch.transfer = ⟨some (5 * millisecond), 10 * millisecond, 40⟩ := by decide +kernel
  have hbegin : stalled.begin = 0 := rfl
  obtain ⟨-, htold, hleast, -⟩ := records_transfer_once stalled hclocked htimes 3 c d hreturns
  have hleast := hleast hcomplete
  rw [htransfer, hbegin, Nat.zero_add] at hleast
  exact ⟨hclocked, htimes, c, d, hreturns, hcomplete, htransfer ▸ (htold rfl).1, beq_iff_eq.mp herror, hleast⟩

end DownloadCourse

end ContentProbe
