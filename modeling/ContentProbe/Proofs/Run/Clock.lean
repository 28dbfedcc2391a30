import ContentProbe.Proofs.Run.Drain
import ContentProbe.Proofs.Run.Recorded
import ContentProbe.Proofs.Run.Returns

/-!
The clock of a timeline keeps a run to a schedule: while the run goes on nobody else does anything, and when
it waits the exporters go on, or the clock moves to the next timer, of which the alarm of the run is one. What
exporters do to the collector is traffic, so that the run is hosted as well. So what holds of every schedule
holds of probes under a clock, and every probe is one.
-/

namespace ContentProbe

open ContentProbe.Time Relation

/-! What a run makes of its session -/

theorem UploadRun.claim_start (s : RunSettings) (trace : TraceId) (size : Nat)
    (action : Timed (Except ActionFault String)) (now : Nat) (c : Collector) :
    (UploadRun.start s now trace size action c).1.claim = c.claim :=
  Collector.claim_register _

theorem DownloadRun.claim_start (s : RunSettings) (wallClock : Nat) (trace : TraceId) (contentId : String)
    (payload : Payload) (now : Nat) (c : Collector) :
    (DownloadRun.start s now (wallClock + now) trace contentId payload c).1.claim = c.claim :=
  Collector.claim_register _

theorem UploadRun.releases (s : RunSettings) : Releases (UploadRun.turn s) where
  next := by
    intro m c r c' r' h
    rcases next_cases h with ⟨a, -, -, -, hsettle⟩ | ⟨d, hreceive, -⟩ | ⟨hreceive, -⟩
    · obtain ⟨c₁, hclaim, heq⟩ := settle_eq s.uploadDrain m.now a.value c r
      obtain ⟨-, rfl, -⟩ := proceed_eq_next_iff.mp (heq.symm.trans hsettle)
      exact hclaim
    · exact (Collector.receive_frame (Or.inl ⟨d, hreceive⟩)).2.1
    · exact (Collector.receive_frame (Or.inr hreceive)).2.1
  finished := by
    intro m c r c' outcome session h hheld
    rcases finished_cases h with ⟨-, rfl, -⟩ | ⟨c₁, u, hclaim, rfl, -⟩
    · exact (Collector.dismiss_of_held hheld).2
    · exact (Collector.reset_dismiss_of_held (hclaim.trans hheld)).2

theorem DownloadRun.releases (s : RunSettings) : Releases (DownloadRun.turn s) where
  next := by
    intro m c r c' r' h
    rcases next_cases h with ⟨t, -, -, -, rfl, -⟩ | ⟨d, hreceive, -⟩ | ⟨hreceive, -⟩
    · rfl
    · exact (Collector.receive_frame (Or.inl ⟨d, hreceive⟩)).2.1
    · exact (Collector.receive_frame (Or.inr hreceive)).2.1
  finished := by
    intro m c r c' outcome session h hheld
    have hbranch := turn_branch s m c r
    rw [h] at hbranch
    generalize hfinished : RunTurn.finished c' outcome = result at hbranch
    generalize ready m c r = found at hbranch
    cases hbranch with
    | cancellation =>
        cases hfinished
        exact (Collector.reset_dismiss_of_held hheld).2
    | actionEnd =>
        rw [settle_eq] at hfinished
        obtain ⟨-, rfl, -⟩ := proceed_eq_finished_iff.mp hfinished.symm
        exact (Collector.reset_dismiss_of_held hheld).2
    | deadline =>
        cases hfinished
        exact (Collector.reset_dismiss_of_held hheld).2
    | @ownMatch d after _ _ hreceive =>
        obtain ⟨-, rfl, -⟩ := proceed_eq_finished_iff.mp hfinished.symm
        have hclaim : after.claim = c.claim := (Collector.receive_frame (Or.inl ⟨d, hreceive⟩)).2.1
        exact (Collector.reset_dismiss_of_held (hclaim.trans hheld)).2
    | foreignMatch => cases hfinished
    | closure =>
        cases hfinished
        exact (Collector.dismiss_of_held hheld).2
    | nothing => cases hfinished

namespace Timeline

variable {σ α : Type} {turn : Moment → Collector → σ → RunTurn σ α} {alarm : σ → Nat} {isActing : σ → Bool}

/-- A schedule by which a run takes its turns from one state of a timeline to another, with the sessions at
its turns and the number of the last one. -/
structure Played (turn : Moment → Collector → σ → RunTurn σ α) (alarm : σ → Nat) (cancelAt : Option Nat)
    (session : Nat) (t : Timeline) (s : Sessions) (start : σ) (t' : Timeline) (outcome : Except RunFault α)
    (o : Schedule) (hosts : Nat → Sessions) (n : Nat) : Prop where
  begins : o.now 0 = t.now
  host : hosts 0 = s
  clocked : o.Clocked turn start alarm
  amid : o.Amid turn start session hosts
  finished : ∃ r, o.runAt turn start n = some r ∧ o.turnAt turn n r = .finished t'.collector outcome
  ends : o.now n = t'.now
  cancelled : (o n).moment.cancelled = t'.isCancelled cancelAt

/-- A turn that goes on, or waits for the others or the clock, goes before the schedule of the rest. -/
theorem Played.cons {cancelAt : Option Nat} {session n : Nat} {t t₁ t' : Timeline} {s s₁ : Sessions}
    {start next : σ} {outcome : Except RunFault α} {o : Schedule} {hosts : Nat → Sessions}
    (h : Played turn alarm cancelAt session t₁ s₁ next t' outcome o hosts n) {a : Occasion}
    (ha : a.moment.now = t.now) (hs : s.collector = a.collector)
    (hgo : (∃ c, turn a.moment a.collector start = .next c next ∧ t₁.now = t.now ∧
        s₁ = s.told session c) ∨
      (turn a.moment a.collector start = .blocked ∧ start = next ∧
        (t.now ≤ t₁.now ∧ t₁.now ≤ alarm start) ∧ Sessions.Meanwhile session s s₁)) :
    Played turn alarm cancelAt session t s start t' outcome (o.cons a) (fun k => k.casesOn s hosts)
      (n + 1) := by
  obtain ⟨r, hr, hfinished⟩ := h.finished
  have hclocked : (o.cons a).Clocked turn start alarm := by
    apply h.clocked.cons
    rw [h.begins, ha]
    rcases hgo with ⟨c, hturn, hnow, -⟩ | ⟨hturn, heq, hnow, -⟩
    · exact Or.inl ⟨c, hturn, hnow⟩
    · exact Or.inr ⟨hturn, heq, hnow⟩
  have hamid : (o.cons a).Amid turn start session fun k => k.casesOn s hosts := by
    apply h.amid.cons hs
    rw [h.host]
    rcases hgo with ⟨c, hturn, -, rfl⟩ | ⟨hturn, heq, -, hothers⟩
    · exact Or.inl ⟨c, hturn, .refl⟩
    · exact Or.inr ⟨hturn, heq, hothers⟩
  have hshift : (o.cons a).runAt turn start (n + 1) = o.runAt turn next n := by
    apply Schedule.runAt_cons
    rcases hgo with ⟨c, hturn, -⟩ | ⟨hturn, heq, -⟩
    · exact Or.inl ⟨c, hturn⟩
    · exact Or.inr ⟨hturn, heq⟩
  exact ⟨ha, rfl, hclocked, hamid, ⟨r, hshift.trans hr, hfinished⟩, h.ends, h.cancelled⟩

/-- A run that returns has taken its turns by a schedule. -/
theorem exists_played_of_turns (hprogresses : Progresses turn alarm isActing) {cancelAt pending : Option Nat}
    (session : Nat) {fuel : Nat} {t t' : Timeline} {start : σ} {outcome : Except RunFault α}
    (h : t.turns (runTurn cancelAt turn) (fun r => earliest (some (alarm r)) pending) fuel start =
      (t', some outcome)) {s : Sessions} (hs : s.collector = t.collector) :
    ∃ o hosts n, Played turn alarm cancelAt session t s start t' outcome o hosts n := by
  induction fuel generalizing t start s with
  | zero => cases h
  | succ fuel ih =>
      let a : Occasion := ⟨⟨t.now, t.isCancelled cancelAt, t.isOpen⟩, t.collector⟩
      cases hturn : turn ⟨t.now, t.isCancelled cancelAt, t.isOpen⟩ t.collector start with
      | finished c result =>
          simp only [turns, runTurn, hturn, Prod.mk.injEq, Option.some.injEq] at h
          obtain ⟨rfl, rfl⟩ := h
          exact ⟨.always a, fun _ => s, 0, rfl, rfl, Schedule.clocked_always hturn,
            Schedule.amid_always hs hturn, ⟨start, rfl, hturn⟩, rfl, rfl⟩
      | next c next =>
          simp only [turns, runTurn, hturn] at h
          obtain ⟨o, hosts, n, hplayed⟩ := ih (s := s.told session c) h rfl
          have hgo := hplayed.cons (t := t) (a := a) rfl hs (Or.inl ⟨c, hturn, rfl, rfl⟩)
          exact ⟨_, _, _, hgo⟩
      | blocked =>
          have hearly : t.now < alarm start := (hprogresses.blocked hturn).2
          simp only [turns, runTurn, hturn] at h
          split at h
          · obtain ⟨hnow, htraffic⟩ := settle_frame t
            have hothers : Sessions.Meanwhile session s { s with collector := t.settle.collector } :=
              .of_traffic (hs ▸ htraffic)
            have hmoves : t.now ≤ t.settle.now ∧ t.settle.now ≤ alarm start :=
              ⟨Nat.le_of_eq hnow.symm, Nat.le_of_lt (hnow ▸ hearly)⟩
            obtain ⟨o, hosts, n, hplayed⟩ := ih (s := { s with collector := t.settle.collector }) h rfl
            have hgo := hplayed.cons (t := t) (a := a) rfl hs (Or.inr ⟨hturn, rfl, hmoves, hothers⟩)
            exact ⟨_, _, _, hgo⟩
          · split at h
            · cases h
            · rename_i instant hinstant
              have hle : instant ≤ alarm start := by
                obtain ⟨i, hi, hialarm⟩ := earliest_eq_some_left (alarm start) pending
                rw [hi] at hinstant
                exact Nat.le_trans (earliest_le hinstant) hialarm
              have hmoves : t.now ≤ (t.advance instant).now ∧ (t.advance instant).now ≤ alarm start :=
                ⟨Nat.le_max_left _ _, Nat.max_le.mpr ⟨Nat.le_of_lt hearly, hle⟩⟩
              obtain ⟨o, hosts, n, hplayed⟩ := ih h hs
              have hgo := hplayed.cons (t := t) (a := a) rfl hs (Or.inr ⟨hturn, rfl, hmoves, .refl⟩)
              exact ⟨_, _, _, hgo⟩

/-! Probes -/

/-- Every probe at a collector that nobody has claimed returns and leaves it so, and has taken its turns by a
schedule, whichever sessions its collector has been seen with. -/
theorem exists_played (hprogresses : Progresses turn alarm isActing) (hreleases : Releases turn)
    {begin : Nat → Collector → Collector × σ} (hbegin : ∀ now c, (begin now c).1.claim = c.claim) {t : Timeline}
    (hfree : t.collector.claim = .free) (cancelAt : Option Nat) (a : Aftermath) :
    ∃ session claimed t' report, t.collector.acquire = some (session, claimed) ∧
      t.probe cancelAt a begin alarm turn = (t', some report) ∧ t'.collector.claim = .free ∧
      ∀ s : Sessions, s.collector = (begin t.now claimed).1 →
        ∃ t₁ o hosts n, t₁.now = t.now ∧
          Played turn alarm cancelAt session t₁ s (begin t.now claimed).2 t' report.outcome o hosts n := by
  obtain ⟨session, claimed, t', report, hacquire, hprobe, hleft, t₁, pending, hnow, hcollector, hdrive⟩ :=
    exists_probe hprogresses hreleases hbegin hfree cancelAt a
  refine ⟨session, claimed, t', report, hacquire, hprobe, hleft, fun s hs => ?_⟩
  unfold drive at hdrive
  obtain ⟨o, hosts, n, hplayed⟩ :=
    exists_played_of_turns hprogresses session hdrive (hs.trans hcollector.symm)
  exact ⟨t₁, o, hosts, n, hnow, hplayed⟩

/-! Downloads -/

/-- Every download at a collector that nobody has claimed returns and leaves it so, and has gone on by a
schedule. -/
theorem exists_downloadCourse {t : Timeline} (hfree : t.collector.claim = .free) (s : RunSettings)
    (cancelAt : Option Nat) (wallClock : Nat) (trace : TraceId) (contentId : String) (payload : Payload)
    (a : Aftermath) :
    ∃ t' report, t.download s cancelAt wallClock trace contentId payload a = (t', some report) ∧
      t'.collector.claim = .free ∧
      ∃ (x : DownloadCourse) (n : Nat), x.Clocked ∧ x.settings = s ∧ x.payload = payload ∧ x.begin = t.now ∧
        x.Returns n t'.collector report.outcome ∧ x.schedule.now n = t'.now ∧
        (x.schedule n).moment.cancelled = t'.isCancelled cancelAt := by
  obtain ⟨session, claimed, t', report, -, hprobe, hleft, hplays⟩ :=
    exists_played (DownloadRun.progresses s) (DownloadRun.releases s)
      (DownloadRun.claim_start s wallClock trace contentId payload) hfree cancelAt a
  obtain ⟨t₁, o, hosts, n, hnow, hplayed⟩ := hplays ⟨_, [], []⟩ rfl
  have hbegin : o.now 0 = t.now := hplayed.begins.trans hnow
  have hclock := hplayed.clocked
  have hfinished := hplayed.finished
  rw [← hbegin] at hclock hfinished
  exact ⟨t', report, hprobe, hleft, ⟨s, wallClock + o.now 0, trace, contentId, payload, o⟩, n, hclock, rfl, rfl,
    hbegin, hfinished, hplayed.ends, hplayed.cancelled⟩

/-- However long the exporters go on, a download returns, gives its session back, and has not gone on for longer
than its drain, or its time limit and a tail wait, and another tail wait. If its drain is no shorter than the
time limit of its transfer and it is not cancelled, it tells of the transfer, and has failed just if that has. -/
theorem download_returns {t : Timeline} (hfree : t.collector.claim = .free) (s : RunSettings)
    (cancelAt : Option Nat) (wallClock : Nat) (trace : TraceId) (contentId : String) (payload : Payload)
    (a : Aftermath) :
    let cutOff := tick (t.now + s.downloadAction)
    let fetch := payload.read s.maxBytes (timeLimit t.now s.downloadAction)
    ∃ t' report, t.download s cancelAt wallClock trace contentId payload a = (t', some report) ∧
      t'.collector.claim = .free ∧
      t'.now ≤ tick (tick (max (t.now + s.downloadDrain) (cutOff + s.tailWait)) + s.tailWait) ∧
      ∀ d, report.outcome = .ok d → t'.isCancelled cancelAt = false → s.downloadAction ≤ s.downloadDrain →
        d.transfer = some fetch.transfer ∧ d.error = fetch.fault.map ActionFault.message := by
  intro cutOff fetch
  obtain ⟨t', report, hdownload, hleft, x, n, hclock, rfl, rfl, hbegin, hreturns, hend, hcancelled⟩ :=
    exists_downloadCourse hfree s cancelAt wallClock trace contentId payload a
  refine ⟨t', report, hdownload, hleft, ?_, fun d hok hgoing htimes => ?_⟩
  · obtain ⟨r, hr, -⟩ := hreturns
    have hdraining := DownloadCourse.draining hclock hr
    have hlatest := hdraining.early.trans hdraining.alarm_le_latest
    rw [hend, DownloadCourse.latest, DownloadCourse.latestMatch, DownloadCourse.cutOff, hbegin] at hlatest
    exact hlatest
  · rw [hok] at hreturns
    rw [hgoing] at hcancelled
    have hended := DownloadCourse.ended_of_returns hclock htimes hreturns hcancelled
    have htransfer := DownloadCourse.transfer_of_returns hclock hreturns hcancelled
    have herror := DownloadCourse.error_of_returns hclock hreturns hcancelled hended
    rw [if_pos hended] at htransfer
    rw [DownloadCourse.fetch, hbegin] at htransfer herror
    exact ⟨htransfer, herror⟩

/-! Uploads -/

/-- Every upload at a collector that nobody has claimed returns and leaves it so. It has gone on by a schedule,
and the collector has hosted it. -/
theorem exists_uploadCourse {t : Timeline} (hfree : t.collector.claim = .free) {sessions : Sessions}
    (hreachable : sessions.Reachable) (hcollector : sessions.collector = t.collector) (s : RunSettings)
    (cancelAt : Option Nat) (trace : TraceId) (size : Nat) (action : Timed (Except ActionFault String))
    (a : Aftermath) :
    ∃ t' report, t.upload s cancelAt trace size action a = (t', some report) ∧ t'.collector.claim = .free ∧
      ∃ (x : UploadCourse) (session : Nat) (hosts : Nat → Sessions) (n : Nat), x.Clocked ∧ x.Hosted session hosts ∧
        x.settings = s ∧ x.action = action ∧ x.begin = t.now ∧ x.Returns n t'.collector report.outcome ∧
        x.schedule.now n = t'.now ∧ (x.schedule n).moment.cancelled = t'.isCancelled cancelAt := by
  obtain ⟨session, claimed, t', report, hacquire, hprobe, hleft, hplays⟩ :=
    exists_played (UploadRun.progresses s) (UploadRun.releases s)
      (UploadRun.claim_start s trace size action) hfree cancelAt a
  let told := Sessions.told
    ⟨claimed, sessions.live ++ [⟨session, false, []⟩], sessions.begun ++ [session]⟩ session
    (UploadRun.start s t.now trace size action claimed).1
  obtain ⟨t₁, o, hosts, n, hnow, hplayed⟩ := hplays told rfl
  have hbegin : o.now 0 = t.now := hplayed.begins.trans hnow
  have hclock := hplayed.clocked
  have hfinished := hplayed.finished
  have hamid := hplayed.amid
  have hhosted : o.Hosted (UploadRun.turn s) (UploadRun.start s t.now trace size action claimed).2
      (fun c => UploadRun.start s t.now trace size action c) session hosts := by
    refine ⟨hamid.collector, ⟨sessions, claimed, hreachable, hcollector ▸ hacquire, rfl, ?_⟩, hamid.next,
      hamid.blocked⟩
    rw [hplayed.host]
    exact .refl
  rw [← hbegin] at hclock hfinished hhosted
  exact ⟨t', report, hprobe, hleft, ⟨s, trace, size, action, o⟩, session, hosts, n, hclock, hhosted, rfl, rfl,
    hbegin, hfinished, hplayed.ends, hplayed.cancelled⟩

/-- An upload under the clock of a timeline returns, goes on for no longer than the time limit of its action and
its drain, and gives its session back. It returns its upload frozen; unless it was cancelled, the upload tells
its content id or why there is none, and if it is not complete it is returned a drain after the end of the
action. -/
theorem upload_returns {t : Timeline} (hfree : t.collector.claim = .free) {sessions : Sessions}
    (hreachable : sessions.Reachable) (hcollector : sessions.collector = t.collector) (s : RunSettings)
    (cancelAt : Option Nat) (trace : TraceId) (size : Nat) (action : Timed (Except ActionFault String))
    (a : Aftermath) :
    ∃ t' report, t.upload s cancelAt trace size action a = (t', some report) ∧
      t'.now ≤ tick (tick (t.now + s.uploadAction) + s.uploadDrain) ∧ t'.collector.registry = .empty ∧
      t'.collector.claim = .free ∧
      ∀ u, report.outcome = .ok u → u.frozen = true ∧ u.store.pending = .empty ∧
        (t'.isCancelled cancelAt = false → u.published.isSome = !u.error.isSome) ∧
        (t'.isCancelled cancelAt = false → u.isComplete = false →
          t'.now =
            tick (t.now + (action.within (timeLimit t.now s.uploadAction)).after + s.uploadDrain)) := by
  obtain ⟨t', report, hupload, -, x, session, hosts, n, hclock, hhosted, rfl, rfl, hbegin, hreturns, hend,
    hcancelled⟩ := exists_uploadCourse hfree hreachable hcollector s cancelAt trace size action a
  obtain ⟨hregistry, hclaim⟩ := hhosted.given_back hreturns
  refine ⟨t', report, hupload, ?_, hregistry, hclaim, fun u hok => ?_⟩
  · obtain ⟨r, hr, -⟩ := hreturns
    have hdraining := UploadCourse.draining hclock hr
    have hlatest := hdraining.early.trans hdraining.alarm_le_latest
    rw [hend, UploadCourse.latest, UploadCourse.cutOff, hbegin] at hlatest
    exact hlatest
  · rw [hok] at hreturns
    obtain ⟨hfrozen, hpending⟩ := UploadCourse.frozen_of_returns hreturns
    rw [← hcancelled, ← hend]
    refine ⟨hfrozen, hpending, UploadCourse.telling_of_returns hclock hreturns, fun hgoing hincomplete => ?_⟩
    obtain ⟨ended, -, hended, hnow⟩ := UploadCourse.drained_of_returns hclock hreturns hgoing hincomplete
    rw [hnow, hended, UploadCourse.bounded, hbegin]
    rfl

end Timeline

end ContentProbe
