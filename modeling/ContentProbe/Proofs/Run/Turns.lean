import ContentProbe.Proofs.Collector.Steps
import ContentProbe.Run.Download
import ContentProbe.Run.Upload

/-!
What a turn of a run comes to, by what it finds ready first. There is one case for each branch, with all that
the branches before it have ruled out; whatever holds of every turn is shown by these cases. Both runs come to
an end for the same reasons, which are stated once for all that follows from them.
-/

namespace ContentProbe

open ContentProbe.Time

/-- What a run finds ready, the first thing of all in the order in which it looks. -/
inductive Ready where
  | cancellation
  | actionEnd
  | deadline
  | ownMatch
  | foreignMatch
  | closure
  | nothing
  deriving DecidableEq, Repr

/-- What is in the queue, or that nothing is and nothing can come. -/
def Collector.ready (c : Collector) (isOpen : Bool) : Ready :=
  match c.receive with
  | .own _ _ => .ownMatch
  | .foreign _ => .foreignMatch
  | .nothing => if isOpen then .nothing else .closure

/-- What brings a run to its end, of which something tells whether its action goes on. It waits only before its
alarm and while it is not cancelled; and it goes on when its action ends, which it does once, or when it takes
a match before its alarm. -/
structure Progresses {σ α : Type} (turn : Moment → Collector → σ → RunTurn σ α) (alarm : σ → Nat)
    (isActing : σ → Bool) : Prop where
  blocked : ∀ {m c r}, turn m c r = .blocked → m.cancelled = false ∧ m.now < alarm r
  next : ∀ {m c r c' r'}, turn m c r = .next c' r' →
    (isActing r = true ∧ isActing r' = false ∧ c'.queue = c.queue ∧ c'.waiting = c.waiting) ∨
      (m.now < alarm r ∧ isActing r' = isActing r ∧ ∃ d, c.take = some (d, c'))

namespace Progresses

variable {σ α : Type} {turn : Moment → Collector → σ → RunTurn σ α} {alarm : σ → Nat} {isActing : σ → Bool}

/-- At its alarm a run finishes, or its action ends. -/
theorem finished_or_ended (h : Progresses turn alarm isActing) {m : Moment} {r : σ} (hdue : alarm r ≤ m.now)
    (c : Collector) :
    (∃ c' outcome, turn m c r = .finished c' outcome) ∨
      (isActing r = true ∧ ∃ c' r', turn m c r = .next c' r' ∧ isActing r' = false) := by
  cases hturn : turn m c r with
  | blocked => exact absurd (h.blocked hturn).2 (Nat.not_lt_of_le hdue)
  | finished c' outcome => exact Or.inl ⟨c', outcome, rfl⟩
  | next c' r' =>
      rcases h.next hturn with ⟨hacting, hended, -⟩ | ⟨hearly, -⟩
      · exact Or.inr ⟨hacting, c', r', rfl, hended⟩
      · exact absurd hearly (Nat.not_lt_of_le hdue)

/-- A run whose action has ended finishes at its alarm. -/
theorem finished (h : Progresses turn alarm isActing) {m : Moment} {r : σ} (hended : isActing r = false)
    (hdue : alarm r ≤ m.now) (c : Collector) : ∃ c' outcome, turn m c r = .finished c' outcome := by
  refine (h.finished_or_ended hdue c).resolve_right ?_
  rintro ⟨hacting, -⟩
  cases hended.symm.trans hacting

end Progresses

/-- A run leaves the claim of its session alone while it goes on, and has given it up when it finishes. -/
structure Releases {σ α : Type} (turn : Moment → Collector → σ → RunTurn σ α) : Prop where
  next : ∀ {m c r c' r'}, turn m c r = .next c' r' → c'.claim = c.claim
  finished : ∀ {m c r c' outcome session}, turn m c r = .finished c' outcome → c.claim = .held session →
    c'.claim = .free

theorem Collector.register_frame (c : Collector) (matchers : List Matcher) :
    (c.register matchers).queue = c.queue ∧ (c.register matchers).waiting = c.waiting := by
  unfold Collector.register
  split <;> exact ⟨rfl, rfl⟩

namespace UploadRun

def ready (m : Moment) (c : Collector) (r : UploadRun) : Ready :=
  if m.cancelled then .cancellation
  else if r.action.any (·.after ≤ m.now) then .actionEnd
  else if r.action.isNone && decide (tick r.deadline ≤ m.now) then .deadline
  else c.ready m.isOpen

/-- The run after a match of its own. -/
def withMatch (d : Delivery) (r : UploadRun) : UploadRun :=
  { r with upload := (r.upload.ingest d.batch).1 }

/-- What a turn of an upload does, by what it finds ready. -/
inductive Branch (s : RunSettings) (m : Moment) (c : Collector) (r : UploadRun) :
    Ready → RunTurn UploadRun Upload → Prop where
  | cancellation (h : m.cancelled = true) :
      Branch s m c r .cancellation (finish c (r.upload.fail cancelledText))
  | actionEnd {a : Timed (Except ActionFault String)} (h : m.cancelled = false)
      (ha : r.action = some a) (hdue : a.after ≤ m.now) :
      Branch s m c r .actionEnd (settle s.uploadDrain m.now a.value c r)
  | deadline (h : m.cancelled = false) (ha : r.action = none) (hdue : tick r.deadline ≤ m.now) :
      Branch s m c r .deadline (finish c r.upload)
  | ownMatch {d : Delivery} {after : Collector} (h : m.cancelled = false) (hearly : m.now < r.alarm)
      (hreceive : c.receive = .own d after) :
      Branch s m c r .ownMatch (proceed after (r.withMatch d))
  | foreignMatch {after : Collector} (h : m.cancelled = false) (hearly : m.now < r.alarm)
      (hreceive : c.receive = .foreign after) : Branch s m c r .foreignMatch (.next after r)
  | closure (h : m.cancelled = false) (hearly : m.now < r.alarm) (hreceive : c.receive = .nothing)
      (hclosed : m.isOpen = false) :
      Branch s m c r .closure (.finished c.dismiss (.error .channelClosed))
  | nothing (h : m.cancelled = false) (hearly : m.now < r.alarm) (hreceive : c.receive = .nothing)
      (hopen : m.isOpen = true) : Branch s m c r .nothing .blocked

theorem branch_collect (s : RunSettings) {m : Moment} {c : Collector} {r : UploadRun}
    (h : m.cancelled = false) (hearly : m.now < r.alarm) :
    Branch s m c r (c.ready m.isOpen) (collect m c r) := by
  unfold Collector.ready collect
  cases hreceive : c.receive with
  | own d after => exact .ownMatch h hearly hreceive
  | foreign after => exact .foreignMatch h hearly hreceive
  | nothing =>
      cases hopen : m.isOpen with
      | true => exact .nothing h hearly hreceive hopen
      | false => exact .closure h hearly hreceive hopen

theorem turn_branch (s : RunSettings) (m : Moment) (c : Collector) (r : UploadRun) :
    Branch s m c r (ready m c r) (turn s m c r) := by
  unfold ready turn
  cases h : m.cancelled with
  | true => exact .cancellation h
  | false =>
      cases ha : r.action with
      | some a =>
          by_cases hdue : a.after ≤ m.now
          · simpa [hdue] using Branch.actionEnd h ha hdue
          · have hearly : m.now < r.alarm := by simpa [alarm, ha] using hdue
            simpa [hdue] using branch_collect s h hearly
      | none =>
          by_cases hdue : tick r.deadline ≤ m.now
          · simpa [hdue] using Branch.deadline h ha hdue
          · have hearly : m.now < r.alarm := by simpa [alarm, ha] using hdue
            simpa [hdue] using branch_collect s h hearly

theorem proceed_eq_next_iff {c after : Collector} {r r' : UploadRun} :
    proceed c r = .next after r' ↔ r.upload.isComplete = false ∧ after = c ∧ r' = r := by
  unfold proceed finish
  cases r.upload.isComplete <;> simp [eq_comm]

theorem proceed_ne_blocked (c : Collector) (r : UploadRun) : proceed c r ≠ .blocked := by
  unfold proceed finish
  split <;> simp

/-- A run goes on after the end of the action, a match of its own, or one of another session. -/
theorem next_cases {s : RunSettings} {m : Moment} {c c' : Collector} {r r' : UploadRun}
    (h : turn s m c r = .next c' r') :
    (∃ a, r.action = some a ∧ a.after ≤ m.now ∧ ready m c r = .actionEnd ∧
      settle s.uploadDrain m.now a.value c r = .next c' r') ∨
    (∃ d, c.receive = .own d c' ∧ ready m c r = .ownMatch ∧ m.now < r.alarm ∧ r' = r.withMatch d) ∨
    (c.receive = .foreign c' ∧ ready m c r = .foreignMatch ∧ m.now < r.alarm ∧ r' = r) := by
  have hbranch := turn_branch s m c r
  rw [h] at hbranch
  generalize hnext : RunTurn.next c' r' = result at hbranch
  generalize ready m c r = found at hbranch ⊢
  cases hbranch with
  | cancellation => cases hnext
  | @actionEnd a _ ha hdue => exact Or.inl ⟨a, ha, hdue, rfl, rfl⟩
  | deadline => cases hnext
  | @ownMatch d _ _ hearly hreceive =>
      obtain ⟨-, rfl, rfl⟩ := proceed_eq_next_iff.mp hnext.symm
      exact Or.inr (Or.inl ⟨d, hreceive, rfl, hearly, rfl⟩)
  | foreignMatch _ hearly hreceive =>
      cases hnext
      exact Or.inr (Or.inr ⟨hreceive, rfl, hearly, rfl⟩)
  | closure => cases hnext
  | nothing => cases hnext

/-- The end of the action leaves the queue and the line as they are. -/
theorem settle_eq_next {drain now : Nat} {outcome : Except ActionFault String} {c c' : Collector}
    {r r' : UploadRun} (h : settle drain now outcome c r = .next c' r') :
    r'.action = none ∧ c'.queue = c.queue ∧ c'.waiting = c.waiting := by
  unfold settle at h
  extract_lets r₁ at h
  split at h
  · obtain ⟨-, rfl, rfl⟩ := proceed_eq_next_iff.mp h
    exact ⟨rfl, c.register_frame _⟩
  · obtain ⟨-, rfl, rfl⟩ := proceed_eq_next_iff.mp h
    exact ⟨rfl, rfl, rfl⟩

theorem settle_ne_blocked (drain now : Nat) (outcome : Except ActionFault String) (c : Collector) (r : UploadRun) :
    settle drain now outcome c r ≠ .blocked := by
  unfold settle
  extract_lets r₁
  split <;> exact proceed_ne_blocked _ _

/-- A run waits only if nothing is ready, and not beyond its alarm. -/
theorem nothing_of_blocked {s : RunSettings} {m : Moment} {c : Collector} {r : UploadRun}
    (h : turn s m c r = .blocked) : ready m c r = .nothing ∧ m.cancelled = false ∧ m.now < r.alarm := by
  have hbranch := turn_branch s m c r
  rw [h] at hbranch
  generalize hblocked : RunTurn.blocked = result at hbranch
  generalize ready m c r = found at hbranch ⊢
  cases hbranch with
  | cancellation => cases hblocked
  | actionEnd => exact absurd hblocked.symm (settle_ne_blocked _ _ _ _ _)
  | deadline => cases hblocked
  | ownMatch => exact absurd hblocked.symm (proceed_ne_blocked _ _)
  | foreignMatch => cases hblocked
  | closure => cases hblocked
  | nothing hgoing hearly => exact ⟨rfl, hgoing, hearly⟩

theorem progresses (s : RunSettings) : Progresses (turn s) alarm (·.action.isSome) where
  blocked h := (nothing_of_blocked h).2
  next := by
    intro m c r c' r' h
    rcases next_cases h with ⟨a, ha, -, -, hsettle⟩ | ⟨d, hreceive, -, hearly, rfl⟩ | ⟨hreceive, -, hearly, rfl⟩
    · obtain ⟨hended, hframe⟩ := settle_eq_next hsettle
      exact Or.inl ⟨by simp [ha], by simp [hended], hframe⟩
    · exact Or.inr ⟨hearly, rfl, d, (Collector.receive_eq_own_iff.mp hreceive).1⟩
    · obtain ⟨d, htake, -⟩ := Collector.receive_eq_foreign_iff.mp hreceive
      exact Or.inr ⟨hearly, rfl, d, htake⟩

end UploadRun

namespace DownloadRun

def ready (m : Moment) (c : Collector) (r : DownloadRun) : Ready :=
  if m.cancelled then .cancellation
  else if r.transfer.any (·.after ≤ m.now) then .actionEnd
  else if tick r.deadline ≤ m.now then .deadline
  else c.ready m.isOpen

/-- The run after a match of its own at an instant. -/
def withMatch (tail now : Nat) (d : Delivery) (r : DownloadRun) : DownloadRun :=
  let r := { r with download := (r.download.ingest d.batch).1 }
  if r.seen then r else postpone (now + tail) { r with seen := true }

/-- What a turn of a download does, by what it finds ready. -/
inductive Branch (s : RunSettings) (m : Moment) (c : Collector) (r : DownloadRun) :
    Ready → RunTurn DownloadRun Download → Prop where
  | cancellation (h : m.cancelled = true) :
      Branch s m c r .cancellation (finish c (r.download.fail cancelledText))
  | actionEnd {t : Timed Fetch} (h : m.cancelled = false) (ht : r.transfer = some t)
      (hdue : t.after ≤ m.now) :
      Branch s m c r .actionEnd (settle s.tailWait m.now t.value c r)
  | deadline (h : m.cancelled = false) (hearly : ∀ t ∈ r.transfer, m.now < t.after)
      (hdue : tick r.deadline ≤ m.now) : Branch s m c r .deadline (finish c r.download)
  | ownMatch {d : Delivery} {after : Collector} (h : m.cancelled = false) (hearly : m.now < r.alarm)
      (hreceive : c.receive = .own d after) :
      Branch s m c r .ownMatch (proceed after (r.withMatch s.tailWait m.now d))
  | foreignMatch {after : Collector} (h : m.cancelled = false) (hearly : m.now < r.alarm)
      (hreceive : c.receive = .foreign after) : Branch s m c r .foreignMatch (.next after r)
  | closure (h : m.cancelled = false) (hearly : m.now < r.alarm) (hreceive : c.receive = .nothing)
      (hclosed : m.isOpen = false) :
      Branch s m c r .closure (.finished c.dismiss (.error .channelClosed))
  | nothing (h : m.cancelled = false) (hearly : m.now < r.alarm) (hreceive : c.receive = .nothing)
      (hopen : m.isOpen = true) : Branch s m c r .nothing .blocked

theorem lt_alarm_iff {r : DownloadRun} {now : Nat} :
    now < r.alarm ↔ (∀ t ∈ r.transfer, now < t.after) ∧ now < tick r.deadline := by
  unfold alarm
  cases r.transfer with
  | none => simp
  | some t =>
      simp only [Option.mem_some_iff, forall_eq']
      exact Nat.lt_min

theorem le_alarm_iff {r : DownloadRun} {now : Nat} :
    now ≤ r.alarm ↔ (∀ t ∈ r.transfer, now ≤ t.after) ∧ now ≤ tick r.deadline := by
  unfold alarm
  cases r.transfer with
  | none => simp
  | some t =>
      simp only [Option.mem_some_iff, forall_eq']
      exact Nat.le_min

theorem branch_drain (s : RunSettings) {m : Moment} {c : Collector} {r : DownloadRun}
    (h : m.cancelled = false) (hearly : ∀ t ∈ r.transfer, m.now < t.after) :
    Branch s m c r (if tick r.deadline ≤ m.now then .deadline else c.ready m.isOpen)
      (drain s.tailWait m c r) := by
  unfold drain
  split
  · rename_i hdue
    exact .deadline h hearly hdue
  · rename_i hdue
    have hearly : m.now < r.alarm := lt_alarm_iff.mpr ⟨hearly, Nat.lt_of_not_le hdue⟩
    unfold Collector.ready collect
    cases hreceive : c.receive with
    | own d after => exact .ownMatch h hearly hreceive
    | foreign after => exact .foreignMatch h hearly hreceive
    | nothing =>
        cases hopen : m.isOpen with
        | true => exact .nothing h hearly hreceive hopen
        | false => exact .closure h hearly hreceive hopen

theorem turn_branch (s : RunSettings) (m : Moment) (c : Collector) (r : DownloadRun) :
    Branch s m c r (ready m c r) (turn s m c r) := by
  unfold ready turn
  cases h : m.cancelled with
  | true => exact .cancellation h
  | false =>
      cases ht : r.transfer with
      | some t =>
          by_cases hdue : t.after ≤ m.now
          · simpa [hdue] using Branch.actionEnd h ht hdue
          · have hearly : ∀ t ∈ r.transfer, m.now < t.after := by simpa [ht] using hdue
            simpa [hdue] using branch_drain s h hearly
      | none =>
          have hearly : ∀ t ∈ r.transfer, m.now < t.after := by simp [ht]
          simpa using branch_drain s h hearly

theorem proceed_eq_next_iff {c after : Collector} {r r' : DownloadRun} :
    proceed c r = .next after r' ↔ r.download.isComplete = false ∧ after = c ∧ r' = r := by
  unfold proceed finish
  cases r.download.isComplete <;> simp [eq_comm]

theorem proceed_ne_blocked (c : Collector) (r : DownloadRun) : proceed c r ≠ .blocked := by
  unfold proceed finish
  split <;> simp

/-- A run that does not go on after new data is complete. -/
theorem isComplete_of_proceed {c after : Collector} {r : DownloadRun} {d : Download}
    (h : proceed c r = .finished after (.ok d)) : d.isComplete = true := by
  unfold proceed finish at h
  split at h
  · rename_i hcomplete
    cases h
    exact hcomplete
  · cases h

theorem withMatch_of_seen {tail now : Nat} {d : Delivery} {r : DownloadRun} (h : r.seen = true) :
    r.withMatch tail now d = { r with download := (r.download.ingest d.batch).1 } := by
  simp [withMatch, h]

/-- The first match puts the deadline off. -/
theorem withMatch_of_unseen {tail now : Nat} {d : Delivery} {r : DownloadRun} (h : r.seen = false) :
    r.withMatch tail now d = { r with
      download := (r.download.ingest d.batch).1, deadline := max r.deadline (now + tail), seen := true } := by
  simp [withMatch, h, postpone]

@[simp] theorem transfer_withMatch (tail now : Nat) (d : Delivery) (r : DownloadRun) :
    (r.withMatch tail now d).transfer = r.transfer := by
  cases h : r.seen with
  | true => rw [withMatch_of_seen h]
  | false => rw [withMatch_of_unseen h]

variable {s : RunSettings} {m : Moment} {c c' : Collector} {r r' : DownloadRun}

/-- A run goes on after the end of the transfer, a match of its own, or one of another session. -/
theorem next_cases (h : turn s m c r = .next c' r') :
    (∃ t, r.transfer = some t ∧ t.after ≤ m.now ∧ ready m c r = .actionEnd ∧ c' = c ∧
      r'.deadline = max r.deadline (m.now + s.tailWait) ∧ r'.transfer = none ∧
      r'.seen = r.seen) ∨
    (∃ d, c.receive = .own d c' ∧ ready m c r = .ownMatch ∧ m.now < r.alarm ∧
      r' = r.withMatch s.tailWait m.now d) ∨
    (c.receive = .foreign c' ∧ ready m c r = .foreignMatch ∧ m.now < r.alarm ∧ r' = r) := by
  have hbranch := turn_branch s m c r
  rw [h] at hbranch
  generalize hnext : RunTurn.next c' r' = result at hbranch
  generalize ready m c r = found at hbranch ⊢
  cases hbranch with
  | cancellation => cases hnext
  | @actionEnd t _ ht hdue =>
      obtain ⟨-, rfl, rfl⟩ := proceed_eq_next_iff.mp hnext.symm
      exact Or.inl ⟨t, ht, hdue, rfl, rfl, rfl, rfl, rfl⟩
  | deadline => cases hnext
  | @ownMatch d _ _ hearly hreceive =>
      obtain ⟨-, rfl, rfl⟩ := proceed_eq_next_iff.mp hnext.symm
      exact Or.inr (Or.inl ⟨d, hreceive, rfl, hearly, rfl⟩)
  | foreignMatch _ hearly hreceive =>
      cases hnext
      exact Or.inr (Or.inr ⟨hreceive, rfl, hearly, rfl⟩)
  | closure => cases hnext
  | nothing => cases hnext

/-- A run waits only if nothing is ready, and not beyond its alarm. -/
theorem nothing_of_blocked (h : turn s m c r = .blocked) :
    ready m c r = .nothing ∧ m.cancelled = false ∧ m.now < r.alarm := by
  have hbranch := turn_branch s m c r
  rw [h] at hbranch
  generalize hblocked : RunTurn.blocked = result at hbranch
  generalize ready m c r = found at hbranch ⊢
  cases hbranch with
  | cancellation => cases hblocked
  | actionEnd => exact absurd hblocked.symm (proceed_ne_blocked _ _)
  | deadline => cases hblocked
  | ownMatch => exact absurd hblocked.symm (proceed_ne_blocked _ _)
  | foreignMatch => cases hblocked
  | closure => cases hblocked
  | nothing hgoing hearly => exact ⟨rfl, hgoing, hearly⟩

theorem progresses (s : RunSettings) : Progresses (turn s) alarm (·.transfer.isSome) where
  blocked h := (nothing_of_blocked h).2
  next := by
    intro m c r c' r' h
    rcases next_cases h with
      ⟨t, ht, -, -, rfl, -, hended, -⟩ | ⟨d, hreceive, -, hearly, rfl⟩ | ⟨hreceive, -, hearly, rfl⟩
    · exact Or.inl ⟨by simp [ht], by simp [hended], rfl, rfl⟩
    · exact Or.inr ⟨hearly, by rw [transfer_withMatch], d, (Collector.receive_eq_own_iff.mp hreceive).1⟩
    · obtain ⟨d, htake, -⟩ := Collector.receive_eq_foreign_iff.mp hreceive
      exact Or.inr ⟨hearly, rfl, d, htake⟩

/-- A run that returns a download was cancelled, is complete, or has reached its deadline. -/
theorem cause_of_finished {d : Download} (h : turn s m c r = .finished c' (.ok d)) :
    m.cancelled = true ∨ d.isComplete = true ∨ tick r.deadline ≤ m.now := by
  have hbranch := turn_branch s m c r
  rw [h] at hbranch
  generalize hfinished : RunTurn.finished c' (.ok d) = result at hbranch
  generalize ready m c r = found at hbranch
  cases hbranch with
  | cancellation hcancelled => exact Or.inl hcancelled
  | actionEnd => exact Or.inr (Or.inl (isComplete_of_proceed hfinished.symm))
  | deadline _ _ hdue => exact Or.inr (Or.inr hdue)
  | ownMatch => exact Or.inr (Or.inl (isComplete_of_proceed hfinished.symm))
  | foreignMatch => cases hfinished
  | closure => cases hfinished
  | nothing => cases hfinished

end DownloadRun

/-- Settings under which runs are short. -/
def shortRuns : RunSettings :=
  ⟨60 * millisecond, 60 * millisecond, 30 * millisecond, 10 * millisecond, 12 * millisecond, 100⟩

end ContentProbe
