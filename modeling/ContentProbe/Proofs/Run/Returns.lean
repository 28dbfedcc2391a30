import ContentProbe.Proofs.Collector.Pace
import ContentProbe.Proofs.Run.Hosting
import ContentProbe.Run.Probe

/-!
Every probe returns. If nobody has claimed the collector, it gets its session at once. Its run takes turns, and
each of them lowers what there is to do: a match is taken, the action ends, or time passes while the run waits.
The turns that the run is given are more than that, so that it finishes; and then its session has given up the
claim, so that the next probe finds the collector as this one did.
-/

namespace ContentProbe

open ContentProbe.Time Relation

/-! What exporters do is traffic -/

namespace Exporter

theorem proceed_traffic (now : Nat) (rest : List Export) (c : Collector) :
    ReflTransGen Sessions.Traffic c (proceed now rest c).1 := by
  induction rest generalizing c with
  | nil => exact .refl
  | cons e rest ih =>
      unfold proceed
      split
      · exact .refl
      · have hcall : ReflTransGen Sessions.Traffic c
            (((c.arrive e.batch e.timeout).scan c.calls now).resume c.calls now) :=
          ((ReflTransGen.single (.arrive c e.batch e.timeout)).tail (.scan _ c.calls now)).tail
            (.resume _ c.calls now)
        dsimp only
        split
        · exact hcall
        · exact hcall.trans (ih _)

theorem run_traffic (now : Nat) (e : Exporter) (c : Collector) :
    ReflTransGen Sessions.Traffic c (e.run now c).1 := by
  unfold run
  cases e.phase with
  | finished instant => exact .refl
  | asleep instant =>
      dsimp only
      split
      · exact .refl
      · exact proceed_traffic now e.rest c
  | sending call =>
      have hresume : ReflTransGen Sessions.Traffic c (c.resume call now) := .single (.resume c call now)
      dsimp only
      split
      · exact hresume
      · exact hresume.trans (proceed_traffic now e.rest _)

end Exporter

namespace Timeline

theorem runOne_frame (t : Timeline) (number : Nat) :
    (t.runOne number).now = t.now ∧
      ReflTransGen Sessions.Traffic t.collector (t.runOne number).collector := by
  unfold runOne
  split
  · exact ⟨rfl, .refl⟩
  · exact ⟨rfl, Exporter.run_traffic ..⟩

/-- Exporters that go on do not move the clock. -/
theorem settle_frame (t : Timeline) :
    t.settle.now = t.now ∧ ReflTransGen Sessions.Traffic t.collector t.settle.collector := by
  unfold settle
  suffices ∀ t : Timeline, ∀ numbers : List Nat, (numbers.foldl runOne t).now = t.now ∧
      ReflTransGen Sessions.Traffic t.collector (numbers.foldl runOne t).collector from this _ _
  intro t numbers
  induction numbers generalizing t with
  | nil => exact ⟨rfl, .refl⟩
  | cons number numbers ih =>
      obtain ⟨hnow, htraffic⟩ := runOne_frame t number
      obtain ⟨hnow', htraffic'⟩ := ih (t.runOne number)
      exact ⟨hnow'.trans hnow, htraffic.trans htraffic'⟩

/-! A run and its turns -/

variable {σ α : Type} {turn : Moment → Collector → σ → RunTurn σ α} {alarm : σ → Nat} {isActing : σ → Bool}

/-- What there is to do for a run itself: to wait for its alarm and for a cancellation, and to end its action, after
which it may have to wait for another alarm. -/
def ownToDo (alarm : σ → Nat) (isActing : σ → Bool) (pending : Option Nat) (now : Nat) (r : σ) : Nat :=
  toCome (alarm r) now + pending.elim 0 (toCome · now) + if isActing r then 2 else 0

theorem pending_le (pending : Option Nat) {now later : Nat} (hle : now ≤ later) :
    pending.elim 0 (toCome · later) ≤ pending.elim 0 (toCome · now) := by
  cases pending with
  | none => exact Nat.le_refl 0
  | some p => exact toCome_mono hle p

theorem ownToDo_le (alarm : σ → Nat) (isActing : σ → Bool) (pending : Option Nat) (now : Nat) (r : σ) :
    ownToDo alarm isActing pending now r ≤ 4 := by
  have halarm := toCome_le_one (alarm r) now
  have hpending : pending.elim 0 (toCome · now) ≤ 1 := by
    cases pending with
    | none => exact Nat.zero_le 1
    | some p => exact toCome_le_one p now
  unfold ownToDo
  split <;> omega

/-- It does not become more while time passes. -/
theorem ownToDo_mono {now later : Nat} (hle : now ≤ later) (pending : Option Nat) (r : σ) :
    ownToDo alarm isActing pending later r ≤ ownToDo alarm isActing pending now r :=
  Nat.add_le_add_right (Nat.add_le_add (toCome_mono hle (alarm r)) (pending_le pending hle)) _

theorem runTurn_eq_blocked {cancelAt : Option Nat} {t t' : Timeline} {r r' : σ}
    (h : runTurn cancelAt turn t r = (t', .blocked r')) :
    t' = t ∧ r' = r ∧ turn ⟨t.now, t.isCancelled cancelAt, t.isOpen⟩ t.collector r = .blocked := by
  unfold runTurn at h
  split at h
  · rename_i hblocked
    cases h
    exact ⟨rfl, rfl, hblocked⟩
  · cases h
  · cases h

/-- A run that has ended its action, or has taken a match before its alarm, has less to do then. -/
theorem toDo_next_lt (h : Progresses turn alarm isActing) {m : Moment} {t : Timeline} {c : Collector} {r r' : σ}
    (hm : m.now = t.now) (hturn : turn m t.collector r = .next c r') (pending : Option Nat) :
    (t.moved c).toDo + ownToDo alarm isActing pending t.now r' <
      t.toDo + ownToDo alarm isActing pending t.now r := by
  have hlater := toCome_le_one (alarm r') t.now
  unfold ownToDo
  rcases h.next hturn with ⟨hacting, hended, hqueue, hwaiting⟩ | ⟨hearly, hsame, d, htake⟩
  · rw [toDo_moved hqueue hwaiting, if_pos hacting, hended, if_neg Bool.false_ne_true]
    omega
  · have hless := toDo_moved_lt htake
    have halarm : toCome (alarm r) t.now = 1 := if_pos (hm ▸ hearly)
    rw [hsame, halarm]
    omega

/-- While a run waits, time passes that it has to wait for, or somebody else has something to do. -/
theorem toDo_advance_lt_of_blocked {cancelAt pending : Option Nat} (hpending : ∀ p ∈ pending, cancelAt = some p)
    {t : Timeline} {r : σ} (hgoing : t.isCancelled cancelAt = false) (hearly : t.now < alarm r)
    (hcalm : t.woken = []) :
    ∃ instant, earliest (earliest (some (alarm r)) pending) t.timer? = some instant ∧
      (t.advance instant).toDo + ownToDo alarm isActing pending (t.advance instant).now r <
        t.toDo + ownToDo alarm isActing pending t.now r := by
  obtain ⟨first, hfirst, -⟩ := earliest_eq_some_left (alarm r) pending
  obtain ⟨instant, hinstant, -⟩ := earliest_eq_some_left first t.timer?
  rw [hfirst]
  refine ⟨instant, hinstant, ?_⟩
  have hothers := toDo_advance_le hcalm instant
  have hle : t.now ≤ (t.advance instant).now := Nat.le_max_left _ _
  rcases earliest_eq_some hinstant with hown | htimer
  · obtain rfl : first = instant := Option.some.inj hown
    have hreached : first ≤ (t.advance first).now := Nat.le_max_right _ _
    refine Nat.add_lt_add_of_le_of_lt hothers (Nat.add_lt_add_right ?_ _)
    rcases earliest_eq_some hfirst with halarm | hcancel
    · obtain rfl : alarm r = first := Option.some.inj halarm
      exact Nat.add_lt_add_of_lt_of_le (toCome_lt hearly hreached) (pending_le pending hle)
    · have hcancelAt : cancelAt = some first := hpending first hcancel
      have hsoon : t.now < first := by simpa [isCancelled, hcancelAt] using hgoing
      rw [hcancel]
      exact Nat.add_lt_add_of_le_of_lt (toCome_mono hle (alarm r)) (toCome_lt hsoon hreached)
  · exact Nat.add_lt_add_of_lt_of_le (toDo_advance_lt hcalm htimer) (ownToDo_mono hle pending r)

/-- The run of a probe finishes within the turns that it is given. -/
theorem exists_drive_eq_some (h : Progresses turn alarm isActing) {cancelAt pending : Option Nat}
    (hpending : ∀ p ∈ pending, cancelAt = some p) (t : Timeline) (r : σ) :
    ∃ t' outcome, t.drive (runTurn cancelAt turn) (fun r => earliest (some (alarm r)) pending) r =
      (t', some outcome) := by
  apply exists_turns_eq_some fun t r => t.toDo + ownToDo alarm isActing pending t.now r
  · intro t r t' r' hturn
    unfold runTurn at hturn
    split at hturn
    · cases hturn
    · rename_i c next hnext
      cases hturn
      exact toDo_next_lt h rfl hnext pending
    · cases hturn
  · intro t r t' r' hturn hwoken
    obtain ⟨rfl, rfl, -⟩ := runTurn_eq_blocked hturn
    rw [(settle_frame t').1]
    exact Nat.add_lt_add_right (toDo_settle_lt hwoken) _
  · intro t r t' r' hturn hcalm
    obtain ⟨rfl, rfl, hblocked⟩ := runTurn_eq_blocked hturn
    obtain ⟨hgoing, hearly⟩ := h.blocked hblocked
    exact toDo_advance_lt_of_blocked hpending hgoing hearly hcalm
  · have hothers := t.toDo_le_work
    have hown := ownToDo_le alarm isActing pending t.now r
    omega

/-! Probes -/

/-- What is found at the first turn is not waited for. -/
theorem await_of_done {β : Type} {find : Timeline → Timeline × Turn Unit β} {t t' : Timeline} {b : β}
    (h : find t = (t', .done b)) (limit : Option Nat) : t.await find limit = (t', some b) := by
  unfold await drive
  simp only [turns, h, Option.join_some]

/-- At a collector that nobody has claimed, a session begins at once. -/
theorem acquire_eq {t : Timeline} {session : Nat} {claimed : Collector}
    (h : t.collector.acquire = some (session, claimed)) : t.acquire none = (t.moved claimed, some session) := by
  unfold acquire
  apply await_of_done
  simp only [h]

theorem invoke_frame (a : Aftermath) (t : Timeline) :
    (t.invoke a).now = t.now ∧ (t.invoke a).collector = t.collector := by
  unfold invoke
  split <;> exact ⟨rfl, rfl⟩

/-- A probe that has its session at once drives its run from there. -/
theorem probe_eq {t : Timeline} {session : Nat} {claimed : Collector}
    (h : t.collector.acquire = some (session, claimed)) (cancelAt : Option Nat) (a : Aftermath)
    (begin : Nat → Collector → Collector × σ) (alarm : σ → Nat) (turn : Moment → Collector → σ → RunTurn σ α) :
    ∃ (t₁ : Timeline) (pending : Option Nat) (invoked : Bool), t₁.now = t.now ∧
      t₁.collector = (begin t.now claimed).1 ∧ (∀ p ∈ pending, cancelAt = some p) ∧
      ∀ t' outcome, t₁.drive (runTurn cancelAt turn) (fun r => earliest (some (alarm r)) pending)
          (begin t.now claimed).2 = (t', outcome) →
        t.probe cancelAt a begin alarm turn =
          (t', outcome.map fun outcome => ⟨outcome, t'.now - t.now, invoked⟩) := by
  have hacquired := acquire_eq h
  unfold probe
  extract_lets begun
  split
  · rename_i hnone
    cases hacquired.symm.trans hnone
  · rename_i began session' hsome
    obtain ⟨rfl, -⟩ := Prod.mk.inj (hacquired.symm.trans hsome)
    split
    rename_i c run hbegin
    extract_lets t₂ invoked t₃ pending
    obtain ⟨hnow, hcollector⟩ : t₃.now = t.now ∧ t₃.collector = c := by
      unfold t₃
      split
      · exact invoke_frame a t₂
      · exact ⟨rfl, rfl⟩
    have hbegin : begin t.now claimed = (c, run) := hbegin
    rw [hbegin]
    refine ⟨t₃, pending, invoked, hnow, hcollector, fun p hp => (Option.filter_eq_some_iff.mp hp).1, ?_⟩
    intro t' outcome hdrive
    split
    rename_i t₄ outcome' hdriven
    obtain ⟨rfl, rfl⟩ := Prod.mk.inj (hdrive.symm.trans hdriven)
    rfl

theorem claim_of_traffic {c after : Collector} (h : ReflTransGen Sessions.Traffic c after) :
    after.claim = c.claim := by
  induction h with
  | refl => rfl
  | tail _ htraffic ih => exact htraffic.frame.2.1.trans ih

/-- A run that returns from its turns has given up the claim which it had. -/
theorem free_of_drive (hreleases : Releases turn) {cancelAt : Option Nat} {alarm : σ → Option Nat} {t t' : Timeline}
    {session : Nat} (hclaim : t.collector.claim = .held session) {r : σ} {outcome : Except RunFault α}
    (hdrive : t.drive (runTurn cancelAt turn) alarm r = (t', some outcome)) : t'.collector.claim = .free := by
  refine turns_induction (P := fun t => t.collector.claim = .held session)
    (Q := fun t' _ => t'.collector.claim = .free) ?_ ?_ ?_ ?_ ?_ hclaim hdrive
  · exact fun t ht => (claim_of_traffic (settle_frame t).2).trans ht
  · exact fun t instant ht => ht
  · intro t r t' r' ht hturn
    unfold runTurn at hturn
    split at hturn
    · cases hturn
    · rename_i c next hnext
      cases hturn
      exact (hreleases.next hnext).trans ht
    · cases hturn
  · intro t r t' r' ht hturn
    obtain ⟨rfl, -, -⟩ := runTurn_eq_blocked hturn
    exact ht
  · intro t r t' outcome ht hturn
    unfold runTurn at hturn
    split at hturn
    · cases hturn
    · cases hturn
    · rename_i c outcome hfinished
      cases hturn
      exact hreleases.finished hfinished ht

/-- Every probe at a collector that nobody has claimed returns, and leaves it so. Its run has been driven from the
instant at which the probe began, at the collector with the matchers of the run. -/
theorem exists_probe (h : Progresses turn alarm isActing) (hreleases : Releases turn)
    {begin : Nat → Collector → Collector × σ} (hbegin : ∀ now c, (begin now c).1.claim = c.claim) {t : Timeline}
    (hfree : t.collector.claim = .free) (cancelAt : Option Nat) (a : Aftermath) :
    ∃ session claimed t' report, t.collector.acquire = some (session, claimed) ∧
      t.probe cancelAt a begin alarm turn = (t', some report) ∧ t'.collector.claim = .free ∧
      ∃ (t₁ : Timeline) (pending : Option Nat), t₁.now = t.now ∧ t₁.collector = (begin t.now claimed).1 ∧
        t₁.drive (runTurn cancelAt turn) (fun r => earliest (some (alarm r)) pending) (begin t.now claimed).2 =
          (t', some report.outcome) := by
  have hacquire := Sessions.acquire_eq_some_iff.mpr ⟨hfree, rfl, rfl⟩
  obtain ⟨t₁, pending, invoked, hnow, hcollector, hpending, hprobe⟩ :=
    probe_eq hacquire cancelAt a begin alarm turn
  obtain ⟨t', outcome, hdrive⟩ := exists_drive_eq_some h hpending t₁ (begin t.now _).2
  have hclaim : t₁.collector.claim = .held (t.collector.sessions + 1) := by
    rw [hcollector, hbegin]
  exact ⟨_, _, t', _, hacquire, hprobe t' _ hdrive, free_of_drive hreleases hclaim hdrive, t₁, pending, hnow,
    hcollector, hdrive⟩

end Timeline

end ContentProbe
