import ContentProbe.Proofs.Run.Payload
import ContentProbe.Proofs.Run.Schedule

/-!
How long a download goes on. Its deadline is put off twice at most, by the end of the transfer and by the
first match, and each time to a tail wait from then. Since the transfer ends at its time limit and the first
match comes before the deadline, there is a bound that no schedule passes; and whoever reaches the deadline
reaches it when its timer rings, since the clock does not move past the alarm of a run that waits. At the
deadline a run does not wait, and it takes no match there, so that it returns once the clock has come that far.
-/

namespace ContentProbe

open ContentProbe.Time

/-! The deadline -/

/-- The latest of the end of the drain and the ends of the tail waits from what has come. -/
def deadlineOf (drained tail : Nat) (ended matched : Option Nat) : Nat :=
  max drained (max (ended.elim 0 (· + tail)) (matched.elim 0 (· + tail)))

theorem deadlineOf_none (drained tail : Nat) : deadlineOf drained tail none none = drained := by
  simp [deadlineOf]

theorem deadlineOf_some_ended (drained tail t : Nat) (matched : Option Nat) :
    deadlineOf drained tail (some t) matched = max (deadlineOf drained tail none matched) (t + tail) := by
  simp only [deadlineOf, Option.elim_some, Option.elim_none, Nat.zero_max]
  rw [Nat.max_assoc, Nat.max_comm (matched.elim _ _)]

theorem deadlineOf_some_matched (drained tail t : Nat) (ended : Option Nat) :
    deadlineOf drained tail ended (some t) = max (deadlineOf drained tail ended none) (t + tail) := by
  simp only [deadlineOf, Option.elim_some, Option.elim_none, Nat.max_zero]
  rw [Nat.max_assoc]

/-- Without a match, the deadline is no later than the drain or a tail wait after the last end of the action. -/
theorem deadlineOf_none_le {drained tail cutOff : Nat} {ended : Option Nat} (hended : ∀ t ∈ ended, t ≤ cutOff) :
    deadlineOf drained tail ended none ≤ max drained (cutOff + tail) := by
  cases ended with
  | none =>
      rw [deadlineOf_none]
      exact Nat.le_max_left _ _
  | some t =>
      have ht := hended t rfl
      rw [deadlineOf_some_ended, deadlineOf_none]
      omega

theorem deadlineOf_le {drained tail latest : Nat} {ended matched : Option Nat}
    (hunmatched : deadlineOf drained tail ended none ≤ latest) (hmatched : ∀ t ∈ matched, t ≤ latest) :
    deadlineOf drained tail ended matched ≤ latest + tail := by
  cases matched with
  | none => exact Nat.le_trans hunmatched (Nat.le_add_right _ _)
  | some t =>
      have ht := hmatched t rfl
      rw [deadlineOf_some_matched]
      omega

/-- A download under a schedule. -/
structure DownloadCourse where
  settings : RunSettings
  wallClock : Nat
  trace : TraceId
  contentId : String
  payload : Payload
  schedule : Schedule

namespace DownloadCourse

variable (x : DownloadCourse)

/-- The instant at which the run begins. -/
def begin : Nat := x.schedule.now 0

def drain : Nat := x.settings.downloadDrain

def tail : Nat := x.settings.tailWait

/-- The time limit of the transfer. -/
def limit : Nat := x.settings.downloadAction

def fetch : Fetch := x.payload.read x.settings.maxBytes (timeLimit x.begin x.limit)

def start : DownloadRun :=
  (DownloadRun.start x.settings x.begin x.wallClock x.trace x.contentId x.payload
    (x.schedule 0).collector).2

/-- The run before a turn, unless it has finished earlier. -/
def before (n : Nat) : Option DownloadRun := x.schedule.runAt (DownloadRun.turn x.settings) x.start n

def turnAt (n : Nat) (r : DownloadRun) : RunTurn DownloadRun Download :=
  x.schedule.turnAt (DownloadRun.turn x.settings) n r

/-- A run that returns at a turn, with what. -/
def Returns (n : Nat) (c : Collector) (outcome : Except RunFault Download) : Prop :=
  ∃ r, x.before n = some r ∧ x.turnAt n r = .finished c outcome

/-- The schedule keeps to the clock. -/
def Clocked : Prop := x.schedule.Clocked (DownloadRun.turn x.settings) x.start DownloadRun.alarm

/-- The clock gets on. -/
def Reaches : Prop := x.schedule.Reaches (DownloadRun.turn x.settings) x.start DownloadRun.alarm

/-- The instant of the turn, before a given one, that took note of the end of the transfer. -/
def endedBy (n : Nat) : Option Nat :=
  x.schedule.firstAt? (DownloadRun.turn x.settings) x.start DownloadRun.ready .actionEnd n

/-- The instant of the turn, before a given one, that took in the first match. -/
def matchedBy (n : Nat) : Option Nat :=
  x.schedule.firstAt? (DownloadRun.turn x.settings) x.start DownloadRun.ready .ownMatch n

/-- The instant at which the timer of the transfer's time limit rings. -/
def cutOff : Nat := tick (x.begin + x.limit)

/-- The first match comes before this instant, or none comes. -/
def latestMatch : Nat := tick (max (x.begin + x.drain) (x.cutOff + x.tail))

/-- No run goes on after this instant. -/
def latest : Nat := tick (x.latestMatch + x.tail)

/-- What holds before a turn: the deadline is that of what has come so far, and neither its timer nor the end
of the transfer lies behind. -/
structure Draining (n : Nat) (r : DownloadRun) : Prop where
  deadline : r.deadline = deadlineOf (x.begin + x.drain) x.tail (x.endedBy n) (x.matchedBy n)
  early : x.schedule.now n ≤ r.alarm
  transfer : r.transfer =
    if (x.endedBy n).isSome then none else some ⟨x.begin + x.fetch.transfer.duration, x.fetch⟩
  seen : r.seen = (x.matchedBy n).isSome
  ended : ∀ t ∈ x.endedBy n, t ≤ x.cutOff
  matched : ∀ t ∈ x.matchedBy n, t ≤ x.latestMatch

variable {x}

theorem Draining.start : x.Draining 0 x.start where
  deadline := by
    simp only [endedBy, matchedBy, Schedule.firstAt?_zero, deadlineOf_none]
    rfl
  early := Nat.le_min.mpr ⟨Nat.le_add_right _ _, (Nat.le_add_right _ _).trans (le_tick _)⟩
  transfer := rfl
  seen := rfl
  ended := by simp [endedBy, Schedule.firstAt?_zero]
  matched := by simp [matchedBy, Schedule.firstAt?_zero]

/-- Without a match the timer of the deadline rings no later than at the last instant for one. -/
theorem Draining.unmatched_le {n : Nat} {r : DownloadRun} (h : x.Draining n r) :
    tick (deadlineOf (x.begin + x.drain) x.tail (x.endedBy n) none) ≤ x.latestMatch :=
  tick_mono (deadlineOf_none_le h.ended)

theorem Draining.deadline_le_latest {n : Nat} {r : DownloadRun} (h : x.Draining n r) :
    tick r.deadline ≤ x.latest := by
  rw [h.deadline]
  exact tick_mono (deadlineOf_le ((le_tick _).trans h.unmatched_le) h.matched)

theorem Draining.alarm_le_latest {n : Nat} {r : DownloadRun} (h : x.Draining n r) : r.alarm ≤ x.latest :=
  (DownloadRun.le_alarm_iff.mp (Nat.le_refl r.alarm)).2.trans h.deadline_le_latest

/-- A turn that brings neither the end of the transfer nor the first match. -/
theorem Draining.keep {n : Nat} {r r' : DownloadRun} (h : x.Draining n r)
    (hended : x.endedBy (n + 1) = x.endedBy n) (hmatched : x.matchedBy (n + 1) = x.matchedBy n)
    (hdeadline : r'.deadline = r.deadline) (htransfer : r'.transfer = r.transfer) (hseen : r'.seen = r.seen)
    (hnow : x.schedule.now (n + 1) ≤ r.alarm) : x.Draining (n + 1) r' where
  deadline := by rw [hdeadline, hended, hmatched, h.deadline]
  early := by
    unfold DownloadRun.alarm at hnow ⊢
    rw [hdeadline, htransfer]
    exact hnow
  transfer := by rw [htransfer, hended, h.transfer]
  seen := by rw [hseen, hmatched, h.seen]
  ended := by rw [hended]; exact h.ended
  matched := by rw [hmatched]; exact h.matched

/-- The transfer ends just when it is due, and no later than its time limit. -/
theorem Draining.now_eq_of_due {n : Nat} {r : DownloadRun} (h : x.Draining n r) {t : Timed Fetch}
    (ht : r.transfer = some t) (hdue : t.after ≤ x.schedule.now n) :
    x.endedBy n = none ∧ x.schedule.now n ≤ x.cutOff := by
  have htransfer := h.transfer
  rw [ht] at htransfer
  split at htransfer
  · cases htransfer
  · rename_i hnone
    obtain rfl := Option.some.inj htransfer
    have hearly : x.schedule.now n ≤ x.begin + x.fetch.transfer.duration :=
      (DownloadRun.le_alarm_iff.mp h.early).1 _ ht
    have hlimit : x.fetch.transfer.duration ≤ (timeLimit x.begin x.limit).after :=
      Payload.duration_read_le _ _ _
    have hcutOff : x.begin + (timeLimit x.begin x.limit).after = x.cutOff := add_after_timeLimit _ _
    exact ⟨by simpa using hnone, by omega⟩

/-- The turn that takes note of the end of the transfer. -/
theorem Draining.settle {n : Nat} {r : DownloadRun} (h : x.Draining n r) (hr : x.before n = some r)
    {t : Timed Fetch} (ht : r.transfer = some t) (hdue : t.after ≤ x.schedule.now n)
    (hready : DownloadRun.ready (x.schedule n).moment (x.schedule n).collector r = .actionEnd)
    (hnow : x.schedule.now (n + 1) = x.schedule.now n) {r' : DownloadRun}
    (hdeadline : r'.deadline = max r.deadline (x.schedule.now n + x.tail)) (htransfer : r'.transfer = none)
    (hseen : r'.seen = r.seen) : x.Draining (n + 1) r' := by
  obtain ⟨hnone, hlimit⟩ := h.now_eq_of_due ht hdue
  have hended : x.endedBy (n + 1) = some (x.schedule.now n) := Schedule.firstAt?_succ_of_eq hr hnone hready
  have hmatched : x.matchedBy (n + 1) = x.matchedBy n := Schedule.firstAt?_succ_of_ne hr (by simp [hready])
  have hlater : r.deadline ≤ r'.deadline := hdeadline ▸ Nat.le_max_left _ _
  have hearly := (DownloadRun.le_alarm_iff.mp h.early).2
  exact
    { deadline := by rw [hdeadline, hended, hmatched, deadlineOf_some_ended, h.deadline, hnone]
      early := DownloadRun.le_alarm_iff.mpr ⟨by simp [htransfer], hnow ▸ hearly.trans (tick_mono hlater)⟩
      transfer := by simp [htransfer, hended]
      seen := by rw [hseen, hmatched, h.seen]
      ended := by simpa [hended] using hlimit
      matched := by rw [hmatched]; exact h.matched }

/-- The turn that takes in the first match. -/
theorem Draining.firstMatch {n : Nat} {r : DownloadRun} (h : x.Draining n r) (hr : x.before n = some r)
    (hunseen : r.seen = false) (hearly : x.schedule.now n < r.alarm)
    (hready : DownloadRun.ready (x.schedule n).moment (x.schedule n).collector r = .ownMatch)
    (hnow : x.schedule.now (n + 1) = x.schedule.now n) {r' : DownloadRun}
    (hdeadline : r'.deadline = max r.deadline (x.schedule.now n + x.tail))
    (htransfer : r'.transfer = r.transfer) (hseen : r'.seen = true) : x.Draining (n + 1) r' := by
  have hnone : x.matchedBy n = none := by simpa [h.seen] using hunseen
  have hmatched : x.matchedBy (n + 1) = some (x.schedule.now n) :=
    Schedule.firstAt?_succ_of_eq hr hnone hready
  have hended : x.endedBy (n + 1) = x.endedBy n := Schedule.firstAt?_succ_of_ne hr (by simp [hready])
  obtain ⟨hdue, hbefore⟩ := DownloadRun.lt_alarm_iff.mp hearly
  have hlater : r.deadline ≤ r'.deadline := hdeadline ▸ Nat.le_max_left _ _
  have hdeadlineOf := h.deadline
  rw [hnone] at hdeadlineOf
  exact
    { deadline := by rw [hdeadline, hended, hmatched, deadlineOf_some_matched, hdeadlineOf]
      early := by
        rw [hnow]
        refine DownloadRun.le_alarm_iff.mpr ⟨fun t ht => ?_, hbefore.le.trans (tick_mono hlater)⟩
        exact (hdue t (htransfer ▸ ht)).le
      transfer := by rw [htransfer, hended, h.transfer]
      seen := by simp [hseen, hmatched]
      ended := by rw [hended]; exact h.ended
      matched := by
        simp only [hmatched, Option.mem_some_iff, forall_eq']
        exact hbefore.le.trans (hdeadlineOf ▸ h.unmatched_le) }

theorem Draining.next (hclock : x.Clocked) {n : Nat} {r r' : DownloadRun} {c : Collector}
    (hr : x.before n = some r) (h : x.Draining n r) (hturn : x.turnAt n r = .next c r') :
    x.Draining (n + 1) r' ∧ r.deadline ≤ r'.deadline := by
  have hnow : x.schedule.now (n + 1) = x.schedule.now n := hclock.still n r c r' hr hturn
  rcases DownloadRun.next_cases hturn with
    ⟨t, ht, hdue, hready, -, hdeadline, htransfer, hseen⟩ | ⟨d, -, hready, hearly, rfl⟩ | ⟨-, hready, -, rfl⟩
  · exact ⟨h.settle hr ht hdue hready hnow hdeadline htransfer hseen, hdeadline ▸ Nat.le_max_left _ _⟩
  · cases hseen : r.seen with
    | false =>
        rw [DownloadRun.withMatch_of_unseen hseen]
        exact ⟨h.firstMatch hr hseen hearly hready hnow rfl rfl rfl, Nat.le_max_left _ _⟩
    | true =>
        rw [DownloadRun.withMatch_of_seen hseen]
        have hsome : (x.matchedBy n).isSome = true := by rw [← h.seen, hseen]
        refine ⟨h.keep ?_ (Schedule.firstAt?_succ_of_isSome hr hsome) rfl rfl rfl ?_, Nat.le_refl _⟩
        · exact Schedule.firstAt?_succ_of_ne hr (by simp [hready])
        · rw [hnow]
          exact h.early
  · refine ⟨h.keep ?_ ?_ rfl rfl rfl ?_, Nat.le_refl _⟩
    · exact Schedule.firstAt?_succ_of_ne hr (by simp [hready])
    · exact Schedule.firstAt?_succ_of_ne hr (by simp [hready])
    · rw [hnow]
      exact h.early

theorem Draining.blocked (hclock : x.Clocked) {n : Nat} {r : DownloadRun} (hr : x.before n = some r)
    (h : x.Draining n r) (hturn : x.turnAt n r = .blocked) : x.Draining (n + 1) r := by
  have hnow : x.schedule.now (n + 1) ≤ r.alarm := (hclock.moves n r hr hturn).2
  obtain ⟨hready, -⟩ := DownloadRun.nothing_of_blocked hturn
  refine h.keep ?_ ?_ rfl rfl rfl hnow
  · exact Schedule.firstAt?_succ_of_ne hr (by simp [hready])
  · exact Schedule.firstAt?_succ_of_ne hr (by simp [hready])

theorem draining (hclock : x.Clocked) {n : Nat} {r : DownloadRun} (hr : x.before n = some r) :
    x.Draining n r :=
  Schedule.runAt_induction .start (fun _ _ _ _ hr h hturn => (h.next hclock hr hturn).1)
    (fun _ _ hr h hturn => h.blocked hclock hr hturn) hr

def idle : Collector := { Collector.start 8 100 none with claim := .held 1 }

end DownloadCourse

end ContentProbe
