import ContentProbe.Proofs.Run.Hosting
import ContentProbe.Proofs.Run.Payload

/-!
How an upload ends. While its action goes on nothing but a cancellation, the end of the action or a closed
queue can end it; the drain begins with the end of the action and takes its full time unless the upload is
complete before. Whatever it returns is frozen, its session has given everything back, and unless it was
cancelled it tells either the content id or why there is none.
-/

namespace ContentProbe

open ContentProbe.Time

namespace UploadRun

/-- The run once its action has ended at an instant. -/
def ended (drain now : Nat) (outcome : Except ActionFault String) (r : UploadRun) : UploadRun where
  upload :=
    match outcome >>= keyOf with
    | .ok p => r.upload.publish p.contentId p.rawKey
    | .error f => r.upload.fail f.message
  action := none
  deadline := now + drain

theorem alarm_ended (drain now : Nat) (outcome : Except ActionFault String) (r : UploadRun) :
    (r.ended drain now outcome).alarm = tick (now + drain) := rfl

/-- The end of the action touches the claim of nobody. -/
theorem settle_eq (drain now : Nat) (outcome : Except ActionFault String) (c : Collector) (r : UploadRun) :
    ∃ c₁, c₁.claim = c.claim ∧ settle drain now outcome c r = proceed c₁ (r.ended drain now outcome) := by
  unfold settle ended
  cases outcome >>= keyOf with
  | ok p => exact ⟨_, Collector.claim_register _, rfl⟩
  | error f => exact ⟨c, rfl, rfl⟩

theorem proceed_eq_finished_iff {c after : Collector} {r : UploadRun} {outcome : Except RunFault Upload} :
    proceed c r = .finished after outcome ↔
      r.upload.isComplete = true ∧ after = c.reset.dismiss ∧ outcome = .ok r.upload.freeze := by
  unfold proceed finish
  cases r.upload.isComplete <;> simp [eq_comm]

variable {s : RunSettings} {m : Moment} {c c' : Collector} {r r' : UploadRun}

/-- A run goes on after the end of the action, a match of its own, or one of another session. -/
theorem next_shape (h : turn s m c r = .next c' r') :
    (∃ a, r.action = some a ∧ a.after ≤ m.now ∧ ready m c r = .actionEnd ∧
      r' = r.ended s.uploadDrain m.now a.value) ∨
    (ready m c r ≠ .actionEnd ∧ (r' = r ∨ ∃ d, r' = r.withMatch d)) := by
  rcases next_cases h with ⟨a, ha, hdue, hready, hsettle⟩ | ⟨d, -, hready, -, hr'⟩ | ⟨-, hready, -, hr'⟩
  · obtain ⟨c₁, -, heq⟩ := settle_eq s.uploadDrain m.now a.value c r
    obtain ⟨-, -, hr'⟩ := proceed_eq_next_iff.mp (heq.symm.trans hsettle)
    exact Or.inl ⟨a, ha, hdue, hready, hr'⟩
  · exact Or.inr ⟨by simp [hready], Or.inr ⟨d, hr'⟩⟩
  · exact Or.inr ⟨by simp [hready], Or.inl hr'⟩

/-- A run that returns finds the queue closed, or returns its upload frozen: as it was cancelled, complete
after the end of the action, complete after a match, or as it is at the deadline. -/
theorem finished_cases {outcome : Except RunFault Upload} (h : turn s m c r = .finished c' outcome) :
    (outcome = .error .channelClosed ∧ c' = c.dismiss ∧ ready m c r = .closure) ∨
    ∃ (c₁ : Collector) (u : Upload), c₁.claim = c.claim ∧ c' = c₁.reset.dismiss ∧ outcome = .ok u.freeze ∧
      ((m.cancelled = true ∧ ready m c r = .cancellation) ∨
        (u.isComplete = true ∧ ready m c r ≠ .deadline ∧
          ((∃ a, r.action = some a ∧ u = (r.ended s.uploadDrain m.now a.value).upload) ∨
            ∃ d, u = (r.withMatch d).upload)) ∨
        (r.action = none ∧ tick r.deadline ≤ m.now ∧ u = r.upload)) := by
  have hbranch := turn_branch s m c r
  rw [h] at hbranch
  generalize hfinished : RunTurn.finished c' outcome = result at hbranch
  generalize ready m c r = found at hbranch ⊢
  cases hbranch with
  | cancellation hcancelled =>
      cases hfinished
      exact Or.inr ⟨c, _, rfl, rfl, rfl, Or.inl ⟨hcancelled, rfl⟩⟩
  | @actionEnd a _ ha =>
      obtain ⟨c₁, hclaim, heq⟩ := settle_eq s.uploadDrain m.now a.value c r
      obtain ⟨hcomplete, rfl, rfl⟩ := proceed_eq_finished_iff.mp (hfinished.trans heq).symm
      exact Or.inr ⟨c₁, _, hclaim, rfl, rfl, Or.inr (Or.inl ⟨hcomplete, by simp, Or.inl ⟨a, ha, rfl⟩⟩)⟩
  | deadline _ ha hdue =>
      cases hfinished
      exact Or.inr ⟨c, _, rfl, rfl, rfl, Or.inr (Or.inr ⟨ha, hdue, rfl⟩)⟩
  | @ownMatch d after _ _ hreceive =>
      obtain ⟨hcomplete, rfl, rfl⟩ := proceed_eq_finished_iff.mp hfinished.symm
      exact Or.inr ⟨after, _, (Collector.receive_frame (Or.inl ⟨d, hreceive⟩)).2.1, rfl, rfl,
        Or.inr (Or.inl ⟨hcomplete, by simp, Or.inr ⟨d, rfl⟩⟩)⟩
  | foreignMatch => cases hfinished
  | closure =>
      cases hfinished
      exact Or.inl ⟨rfl, rfl, rfl⟩
  | nothing => cases hfinished

theorem due_of_ready (s : RunSettings) (h : ready m c r = .deadline) :
    r.action = none ∧ tick r.deadline ≤ m.now := by
  have hbranch := turn_branch s m c r
  rw [h] at hbranch
  generalize turn s m c r = result at hbranch
  cases hbranch with
  | deadline _ ha hdue => exact ⟨ha, hdue⟩

/-! What an upload has told -/

/-- An upload under way has told nothing while its action goes on, and after that either its content id or
why there is none. -/
structure Telling (r : UploadRun) : Prop where
  settled : r.upload.Settled
  active : r.upload.frozen = false
  acting : r.action.isSome = true → r.upload.published = none ∧ r.upload.error = none
  ended : r.action = none → r.upload.published.isSome = !r.upload.error.isSome

theorem Telling.ended_of_acting (h : r.Telling) {a : Timed (Except ActionFault String)}
    (ha : r.action = some a) (drain now : Nat) (outcome : Except ActionFault String) :
    (r.ended drain now outcome).Telling := by
  obtain ⟨hpublished, herror⟩ := h.acting (by simp [ha])
  unfold UploadRun.ended
  cases outcome >>= keyOf with
  | ok p =>
      have hsome : (r.upload.publish p.contentId p.rawKey).published = some p := by
        rw [Upload.published_publish, h.active]
        rfl
      have hquiet : (r.upload.publish p.contentId p.rawKey).error = none := by
        rw [Upload.error_publish, herror]
      refine ⟨h.settled.publish hpublished _ _, ?_, by simp, fun _ => by simp [hsome, hquiet]⟩
      exact (@Upload.frozen_step r.upload (.publish p.contentId p.rawKey) nofun).trans h.active
  | error f =>
      have hfailed : (r.upload.fail f.message).error = some f.message := by
        simp [Upload.fail, herror, joinError]
      refine ⟨h.settled.fail _, h.active, by simp, fun _ => ?_⟩
      simp only [hfailed, Option.isSome_some, Bool.not_true]
      simpa [Upload.fail] using hpublished

theorem Telling.withMatch (h : r.Telling) (d : Delivery) : (r.withMatch d).Telling := by
  have hpublished : (r.withMatch d).upload.published = r.upload.published := Upload.published_ingest _ _
  have herror : (r.withMatch d).upload.error = r.upload.error := Upload.error_ingest _ _
  refine ⟨h.settled.ingest d.batch, ?_, ?_, ?_⟩
  · exact (@Upload.frozen_step r.upload (.ingest d.batch) nofun).trans h.active
  · intro hacting
    rw [hpublished, herror]
    exact h.acting hacting
  · intro hended
    rw [hpublished, herror]
    exact h.ended hended

/-- An upload is complete only after it has told its content id. -/
theorem Telling.action_eq_none (h : r.Telling) (hcomplete : r.upload.isComplete = true) :
    r.action = none := by
  cases ha : r.action with
  | none => rfl
  | some a =>
      obtain ⟨hpublished, -⟩ := h.acting (by simp [ha])
      have hpopulated : r.upload.populated = true := hcomplete
      rw [h.settled.populated, h.settled.provide, hpublished] at hpopulated
      simp at hpopulated

end UploadRun

/-- An upload under a schedule. -/
structure UploadCourse where
  settings : RunSettings
  trace : TraceId
  size : Nat
  action : Timed (Except ActionFault String)
  schedule : Schedule

namespace UploadCourse

variable (x : UploadCourse)

/-- The instant at which the run begins. -/
def begin : Nat := x.schedule.now 0

/-- The time limit of the action. -/
def limit : Nat := x.settings.uploadAction

def drain : Nat := x.settings.uploadDrain

/-- The action under its time limit. -/
def bounded : Timed (Except ActionFault String) := x.action.within (timeLimit x.begin x.limit)

def arm (c : Collector) : Collector × UploadRun :=
  UploadRun.start x.settings x.begin x.trace x.size x.action c

def start : UploadRun := (x.arm (x.schedule 0).collector).2

/-- The run before a turn, unless it has finished earlier. -/
def before (n : Nat) : Option UploadRun := x.schedule.runAt (UploadRun.turn x.settings) x.start n

def turnAt (n : Nat) (r : UploadRun) : RunTurn UploadRun Upload :=
  x.schedule.turnAt (UploadRun.turn x.settings) n r

/-- What the run finds ready at a turn. -/
def readyAt (n : Nat) (r : UploadRun) : Ready :=
  UploadRun.ready (x.schedule n).moment (x.schedule n).collector r

/-- The run returns at a turn, and this is what its session leaves behind. -/
def Returns (n : Nat) (c : Collector) (outcome : Except RunFault Upload) : Prop :=
  ∃ r, x.before n = some r ∧ x.turnAt n r = .finished c outcome

/-- The schedule keeps to the clock. -/
def Clocked : Prop := x.schedule.Clocked (UploadRun.turn x.settings) x.start UploadRun.alarm

/-- The clock gets on. -/
def Reaches : Prop := x.schedule.Reaches (UploadRun.turn x.settings) x.start UploadRun.alarm

/-- A session at a collector makes the run, amid what others do there. -/
def Hosted (session : Nat) (hosts : Nat → Sessions) : Prop :=
  x.schedule.Hosted (UploadRun.turn x.settings) x.start x.arm session hosts

/-- The instant of the turn, before a given one, that took note of the end of the action. -/
def endedBy (n : Nat) : Option Nat :=
  x.schedule.firstAt? (UploadRun.turn x.settings) x.start UploadRun.ready .actionEnd n

/-- The instant at which the timer of the action's time limit rings. -/
def cutOff : Nat := tick (x.begin + x.limit)

/-- No run goes on after this instant. -/
def latest : Nat := tick (x.cutOff + x.drain)

/-- What holds before a turn: the action ends when it is due, the drain runs from there, and neither its end nor
the timer of the drain lies behind. -/
structure Draining (n : Nat) (r : UploadRun) : Prop where
  action : r.action =
    if (x.endedBy n).isSome then none else some ⟨x.begin + x.bounded.after, x.bounded.value⟩
  ended : ∀ t ∈ x.endedBy n, t = x.begin + x.bounded.after ∧ r.deadline = t + x.drain
  early : x.schedule.now n ≤ r.alarm
  telling : r.Telling

variable {x}

theorem Draining.start : x.Draining 0 x.start where
  action := rfl
  ended := by simp [endedBy, Schedule.firstAt?_zero]
  early := Nat.le_add_right _ _
  telling := ⟨.start _ _, rfl, fun _ => ⟨rfl, rfl⟩, fun h => by cases h⟩

theorem end_le_cutOff (x : UploadCourse) : x.begin + x.bounded.after ≤ x.cutOff := by
  have hlimit : x.bounded.after ≤ (timeLimit x.begin x.limit).after := x.action.after_within_le _
  rw [cutOff, ← add_after_timeLimit]
  exact Nat.add_le_add_left hlimit x.begin

theorem Draining.alarm_le_latest {n : Nat} {r : UploadRun} (h : x.Draining n r) : r.alarm ≤ x.latest := by
  have haction := h.action
  unfold UploadRun.alarm
  cases hended : x.endedBy n with
  | none =>
      simp only [hended, Option.isSome_none, Bool.false_eq_true, if_false] at haction
      simp only [haction]
      calc x.begin + x.bounded.after
        _ ≤ x.cutOff + x.drain := x.end_le_cutOff.trans (Nat.le_add_right _ _)
        _ ≤ x.latest := le_tick _
  | some t =>
      obtain ⟨hend, hdeadline⟩ := h.ended t hended
      simp only [hended, Option.isSome_some, if_true] at haction
      simp only [haction, hdeadline]
      apply tick_mono
      rw [hend]
      exact Nat.add_le_add_right x.end_le_cutOff x.drain

/-- The turn that takes note of the end of the action. -/
theorem Draining.settle {n : Nat} {r : UploadRun} (h : x.Draining n r) (hr : x.before n = some r)
    {a : Timed (Except ActionFault String)} (ha : r.action = some a) (hdue : a.after ≤ x.schedule.now n)
    (hready : x.readyAt n r = .actionEnd) (hnow : x.schedule.now (n + 1) = x.schedule.now n) :
    x.Draining (n + 1) (r.ended x.drain (x.schedule.now n) a.value) := by
  have haction := h.action
  rw [ha] at haction
  split at haction
  · cases haction
  · rename_i hnone
    have hnone : x.endedBy n = none := by simpa using hnone
    obtain rfl := Option.some.inj haction
    have hended : x.endedBy (n + 1) = some (x.schedule.now n) :=
      Schedule.firstAt?_succ_of_eq hr hnone hready
    have hearly : x.schedule.now n ≤ x.begin + x.bounded.after := by
      simpa only [UploadRun.alarm, ha] using h.early
    refine ⟨by simp [UploadRun.ended, hended], ?_, ?_, h.telling.ended_of_acting ha _ _ _⟩
    · simp only [hended, Option.mem_some_iff, forall_eq']
      exact ⟨Nat.le_antisymm hearly hdue, rfl⟩
    · rw [hnow, UploadRun.alarm_ended]
      exact (Nat.le_add_right _ _).trans (le_tick _)

/-- A turn that does not bring the end of the action. -/
theorem Draining.keep {n : Nat} {r r' : UploadRun} (h : x.Draining n r)
    (hended : x.endedBy (n + 1) = x.endedBy n) (haction : r'.action = r.action)
    (hdeadline : r'.deadline = r.deadline) (hnow : x.schedule.now (n + 1) ≤ r.alarm)
    (htelling : r'.Telling) : x.Draining (n + 1) r' where
  action := by rw [haction, hended, h.action]
  ended := by
    rw [hended, hdeadline]
    exact h.ended
  early := by
    unfold UploadRun.alarm at hnow ⊢
    rw [haction, hdeadline]
    exact hnow
  telling := htelling

theorem Draining.next (hclock : x.Clocked) {n : Nat} {r r' : UploadRun} {c : Collector}
    (hr : x.before n = some r) (h : x.Draining n r) (hturn : x.turnAt n r = .next c r') :
    x.Draining (n + 1) r' := by
  have hnow : x.schedule.now (n + 1) = x.schedule.now n := hclock.still n r c r' hr hturn
  rcases UploadRun.next_shape hturn with ⟨a, ha, hdue, hready, rfl⟩ | ⟨hready, hr'⟩
  · exact h.settle hr ha hdue hready hnow
  · have hended : x.endedBy (n + 1) = x.endedBy n := Schedule.firstAt?_succ_of_ne hr hready
    have hearly : x.schedule.now (n + 1) ≤ r.alarm := by
      rw [hnow]
      exact h.early
    rcases hr' with rfl | ⟨d, rfl⟩
    · exact h.keep hended rfl rfl hearly h.telling
    · exact h.keep hended rfl rfl hearly (h.telling.withMatch d)

theorem Draining.blocked (hclock : x.Clocked) {n : Nat} {r : UploadRun} (hr : x.before n = some r)
    (h : x.Draining n r) (hturn : x.turnAt n r = .blocked) : x.Draining (n + 1) r := by
  have hnow : x.schedule.now (n + 1) ≤ r.alarm := (hclock.moves n r hr hturn).2
  obtain ⟨hready, -⟩ := UploadRun.nothing_of_blocked hturn
  exact h.keep (Schedule.firstAt?_succ_of_ne hr (by simp [hready])) rfl rfl hnow h.telling

theorem draining (hclock : x.Clocked) {n : Nat} {r : UploadRun} (hr : x.before n = some r) :
    x.Draining n r :=
  Schedule.runAt_induction .start (fun _ _ _ _ hr h hturn => h.next hclock hr hturn)
    (fun _ _ hr h hturn => h.blocked hclock hr hturn) hr

/-- Whoever reaches the deadline has ended its action, and reaches it just when its timer rings. -/
theorem Draining.now_eq_of_due {n : Nat} {r : UploadRun} (h : x.Draining n r) (ha : r.action = none)
    (hdue : tick r.deadline ≤ x.schedule.now n) :
    ∃ t ∈ x.endedBy n, t = x.begin + x.bounded.after ∧ x.schedule.now n = tick (t + x.drain) := by
  have haction := h.action
  have hearly := h.early
  rw [ha] at haction
  simp only [UploadRun.alarm, ha] at hearly
  split at haction
  · rename_i hsome
    obtain ⟨t, ht⟩ := Option.isSome_iff_exists.mp hsome
    obtain ⟨hend, hdeadline⟩ := h.ended t ht
    exact ⟨t, ht, hend, hdeadline ▸ hearly.antisymm hdue⟩
  · cases haction

/-- A run that returns leaves the registry empty and the claim free. -/
theorem Hosted.given_back {session : Nat} {hosts : Nat → Sessions} (h : x.Hosted session hosts) {n : Nat}
    {c : Collector} {outcome : Except RunFault Upload} (hreturns : x.Returns n c outcome) :
    c.registry = .empty ∧ c.claim = .free := by
  obtain ⟨r, hr, hturn⟩ := hreturns
  have hclaim : (x.schedule n).collector.claim = .held session := by
    rw [← h.collector]
    exact (UploadRun.armed_of_underway (h.underway hr)).2.claim
  rcases UploadRun.finished_cases hturn with ⟨-, rfl, -⟩ | ⟨c₁, u, hkept, rfl, -, -⟩
  · exact Collector.dismiss_of_held hclaim
  · exact Collector.reset_dismiss_of_held (hkept.trans hclaim)

/-- Unless it was cancelled, an upload that is returned has told its content id or why there is none. -/
theorem telling_of_returns (hclock : x.Clocked) {n : Nat} {c : Collector} {u : Upload}
    (hreturns : x.Returns n c (.ok u)) (hcancelled : (x.schedule n).moment.cancelled = false) :
    u.published.isSome = !u.error.isSome := by
  obtain ⟨r, hr, hturn⟩ := hreturns
  have htelling := (draining hclock hr).telling
  rcases UploadRun.finished_cases hturn with ⟨hclosed, -⟩ | ⟨c₁, u, -, -, hok, hcause⟩
  · cases hclosed
  · obtain rfl := Except.ok.inj hok
    rcases hcause with ⟨hcancel, -⟩ | ⟨hcomplete, -, ⟨a, ha, rfl⟩ | ⟨d, rfl⟩⟩ | ⟨ha, -, rfl⟩
    · rw [hcancelled] at hcancel
      cases hcancel
    · exact (htelling.ended_of_acting ha _ _ _).ended rfl
    · have htold := htelling.withMatch d
      exact htold.ended (htold.action_eq_none hcomplete)
    · exact htelling.ended ha

/-- A run that is neither cancelled nor complete when it returns has had its full drain. -/
theorem drained_of_returns (hclock : x.Clocked) {n : Nat} {c : Collector} {u : Upload}
    (hreturns : x.Returns n c (.ok u)) (hcancelled : (x.schedule n).moment.cancelled = false)
    (hincomplete : u.isComplete = false) :
    ∃ t ∈ x.endedBy n, t = x.begin + x.bounded.after ∧ x.schedule.now n = tick (t + x.drain) := by
  obtain ⟨r, hr, hturn⟩ := hreturns
  rcases UploadRun.finished_cases hturn with ⟨hclosed, -⟩ | ⟨c₁, u, -, -, hok, hcause⟩
  · cases hclosed
  · obtain rfl := Except.ok.inj hok
    rcases hcause with ⟨hcancel, -⟩ | ⟨hcomplete, -, -⟩ | ⟨ha, hdue, -⟩
    · rw [hcancelled] at hcancel
      cases hcancel
    · rw [show u.isComplete = false from hincomplete] at hcomplete
      cases hcomplete
    · exact (draining hclock hr).now_eq_of_due ha hdue

theorem frozen_of_returns {n : Nat} {c : Collector} {u : Upload} (hreturns : x.Returns n c (.ok u)) :
    u.frozen = true ∧ u.store.pending = .empty := by
  obtain ⟨r, -, hturn⟩ := hreturns
  rcases UploadRun.finished_cases hturn with ⟨hclosed, -⟩ | ⟨c₁, u, -, -, hok, -⟩
  · cases hclosed
  · rw [Except.ok.inj hok]
    exact ⟨rfl, rfl⟩

/-- The collector once the first session has begun. -/
def claimed : Collector := { Collector.start 8 100 none with claim := .held 1, sessions := 1 }

end UploadCourse

end ContentProbe
