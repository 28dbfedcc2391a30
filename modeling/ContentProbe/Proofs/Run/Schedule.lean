import ContentProbe.Proofs.Run.Turns

/-!
Runs under a clock. A schedule tells what a run meets at each of its turns: the instant, what has come into
the queue by then, whether the run is cancelled and whether anything can still come. Any schedule will do
that keeps to the clock: it stands still while the run goes on, and it moves when the run waits, though not
past the instant at which the run has something to do again.
-/

namespace ContentProbe

/-- What a run meets at a turn. -/
structure Occasion where
  moment : Moment
  collector : Collector

abbrev Schedule := Nat → Occasion

namespace Schedule

variable {σ α : Type}

/-- The instant of a turn. -/
def now (o : Schedule) (n : Nat) : Nat := (o n).moment.now

section

variable (turn : Moment → Collector → σ → RunTurn σ α) (o : Schedule) (start : σ)

/-- What a turn of the schedule leads to. -/
def turnAt (n : Nat) (r : σ) : RunTurn σ α := turn (o n).moment (o n).collector r

/-- The run before a turn, unless it has finished earlier. -/
def runAt : Nat → Option σ
  | 0 => some start
  | n + 1 => (runAt n).bind fun r =>
      match o.turnAt turn n r with
      | .blocked => some r
      | .next _ r' => some r'
      | .finished _ _ => none

/-- The schedule keeps to the clock. -/
structure Clocked (alarm : σ → Nat) : Prop where
  still : ∀ n r c r', o.runAt turn start n = some r → o.turnAt turn n r = .next c r' →
    o.now (n + 1) = o.now n
  moves : ∀ n r, o.runAt turn start n = some r → o.turnAt turn n r = .blocked →
    o.now n ≤ o.now (n + 1) ∧ o.now (n + 1) ≤ alarm r

/-- The clock gets on: time and again it comes to the alarm of the run, as long as that goes on. -/
def Reaches (alarm : σ → Nat) : Prop :=
  ∀ n, ∃ m, n ≤ m ∧ ∀ r, o.runAt turn start m = some r → alarm r ≤ o.now m

/-- The instant of the first turn, before a given one, at which the run finds something ready. -/
def firstAt? (ready : Moment → Collector → σ → Ready) (what : Ready) (n : Nat) : Option Nat :=
  ((List.range n).find? fun k =>
    (o.runAt turn start k).any fun r => ready (o k).moment (o k).collector r = what).map o.now

end

variable {turn : Moment → Collector → σ → RunTurn σ α} {o : Schedule} {start : σ}

/-- A run goes on from a turn to the next one, or waits there. -/
theorem runAt_succ_eq_some_iff {n : Nat} {r' : σ} :
    o.runAt turn start (n + 1) = some r' ↔
      ∃ r, o.runAt turn start n = some r ∧
        ((∃ c, o.turnAt turn n r = .next c r') ∨ (o.turnAt turn n r = .blocked ∧ r = r')) := by
  rw [runAt, Option.bind_eq_some_iff]
  refine exists_congr fun r => and_congr_right fun _ => ?_
  cases o.turnAt turn n r <;> simp

theorem exists_of_runAt_succ {n : Nat} {r' : σ} (h : o.runAt turn start (n + 1) = some r') :
    ∃ r, o.runAt turn start n = some r ∧
      ((∃ c, o.turnAt turn n r = .next c r') ∨ (o.turnAt turn n r = .blocked ∧ r = r')) := by
  rwa [runAt_succ_eq_some_iff] at h

theorem runAt_succ_of_next {n : Nat} {r r' : σ} {c : Collector} (hr : o.runAt turn start n = some r)
    (hturn : o.turnAt turn n r = .next c r') : o.runAt turn start (n + 1) = some r' := by
  rw [runAt_succ_eq_some_iff]
  exact ⟨r, hr, Or.inl ⟨c, hturn⟩⟩

theorem runAt_succ_of_blocked {n : Nat} {r : σ} (hr : o.runAt turn start n = some r)
    (hturn : o.turnAt turn n r = .blocked) : o.runAt turn start (n + 1) = some r := by
  rw [runAt_succ_eq_some_iff]
  exact ⟨r, hr, Or.inr ⟨hturn, rfl⟩⟩

/-- A run that goes on at a turn was going on at all earlier ones. -/
theorem exists_runAt_of_le {n m : Nat} (h : n ≤ m) {r' : σ} (hr' : o.runAt turn start m = some r') :
    ∃ r, o.runAt turn start n = some r := by
  induction h generalizing r' with
  | refl => exact ⟨r', hr'⟩
  | step _ ih =>
      obtain ⟨r, hr, -⟩ := exists_of_runAt_succ hr'
      exact ih hr

/-- What every going on and every waiting leaves to hold. -/
theorem runAt_induction {P : Nat → σ → Prop} (hstart : P 0 start)
    (hnext : ∀ n r c r', o.runAt turn start n = some r → P n r → o.turnAt turn n r = .next c r' →
      P (n + 1) r')
    (hblocked : ∀ n r, o.runAt turn start n = some r → P n r → o.turnAt turn n r = .blocked → P (n + 1) r)
    {n : Nat} {r : σ} (hr : o.runAt turn start n = some r) : P n r := by
  induction n generalizing r with
  | zero =>
      obtain rfl : start = r := by simpa [runAt] using hr
      exact hstart
  | succ n ih =>
      obtain ⟨r₀, hr₀, ⟨c, hturn⟩ | ⟨hturn, rfl⟩⟩ := exists_of_runAt_succ hr
      · exact hnext n r₀ c r hr₀ (ih hr₀) hturn
      · exact hblocked n r₀ hr₀ (ih hr₀) hturn

/-- No run goes on after it has finished. -/
theorem le_of_finished {n k : Nat} {r r' : σ} {c : Collector} {outcome : Except RunFault α}
    (hr : o.runAt turn start n = some r) (hturn : o.turnAt turn n r = .finished c outcome)
    (hr' : o.runAt turn start k = some r') : k ≤ n := by
  refine Nat.le_of_not_lt fun hlater => ?_
  obtain ⟨r₁, hr₁⟩ := exists_runAt_of_le hlater hr'
  obtain ⟨r₀, hr₀, hgo⟩ := exists_of_runAt_succ hr₁
  obtain rfl : r = r₀ := Option.some.inj (hr.symm.trans hr₀)
  simp [hturn] at hgo

/-- The clock never goes back. -/
theorem Clocked.now_le {alarm : σ → Nat} (h : o.Clocked turn start alarm) {n m : Nat} (hle : n ≤ m) {r : σ}
    (hr : o.runAt turn start m = some r) : o.now n ≤ o.now m := by
  induction hle generalizing r with
  | refl => exact Nat.le_refl _
  | @step m _ ih =>
      obtain ⟨r₀, hr₀, ⟨c, hturn⟩ | ⟨hturn, -⟩⟩ := exists_of_runAt_succ hr
      · rw [h.still m r₀ c r hr₀ hturn]
        exact ih hr₀
      · exact Nat.le_trans (ih hr₀) (h.moves m r₀ hr₀ hturn).1

/-! Runs that come to an end -/

section Progresses

variable {alarm : σ → Nat} {isActing : σ → Bool} (h : Progresses turn alarm isActing)

include h

end Progresses

/-- A clock has nothing left to get to once a run has finished. -/
theorem reaches_of_finished {alarm : σ → Nat} {n : Nat} {r : σ} {c : Collector} {outcome : Except RunFault α}
    (hr : o.runAt turn start n = some r) (hturn : o.turnAt turn n r = .finished c outcome) :
    o.Reaches turn start alarm := by
  intro m
  refine ⟨m + (n + 1), Nat.le_add_right m _, fun r' hr' => ?_⟩
  have hle : m + (n + 1) ≤ n := le_of_finished hr hturn hr'
  omega

/-! Schedules that are followed to their ends -/

/-- The turn at which a run finishes and what comes of it, if it takes no more turns than a number and its
schedule keeps to the clock all the way. -/
def follow (turn : Moment → Collector → σ → RunTurn σ α) (o : Schedule) (alarm : σ → Nat) :
    Nat → Nat → σ → Option (Nat × Collector × Except RunFault α)
  | 0, _, _ => none
  | turns + 1, n, r =>
      match o.turnAt turn n r with
      | .blocked =>
          if o.now n ≤ o.now (n + 1) ∧ o.now (n + 1) ≤ alarm r then follow turn o alarm turns (n + 1) r else none
      | .next _ r' => if o.now (n + 1) = o.now n then follow turn o alarm turns (n + 1) r' else none
      | .finished c outcome => some (n, c, outcome)

/-- What holds before a turn and before all later ones. -/
theorem forall_le_of_forall_lt {P : Nat → σ → Prop} {n : Nat} {r : σ} (hr : o.runAt turn start n = some r)
    (h : P n r) (hlater : ∀ m, n < m → ∀ r', o.runAt turn start m = some r' → P m r') :
    ∀ m, n ≤ m → ∀ r', o.runAt turn start m = some r' → P m r' := by
  intro m hle r' hr'
  rcases Nat.eq_or_lt_of_le hle with rfl | hlt
  · obtain rfl : r = r' := Option.some.inj (hr.symm.trans hr')
    exact h
  · exact hlater m hlt r' hr'

/-- Every turn that is followed keeps to the clock, and there are no others. -/
theorem of_follow {alarm : σ → Nat} {turns n k : Nat} {r : σ} {c : Collector} {outcome : Except RunFault α}
    (hr : o.runAt turn start n = some r) (h : o.follow turn alarm turns n r = some (k, c, outcome)) :
    (∃ r', o.runAt turn start k = some r' ∧ o.turnAt turn k r' = .finished c outcome) ∧
      ∀ m, n ≤ m → ∀ r', o.runAt turn start m = some r' →
        (∀ c' r'', o.turnAt turn m r' = .next c' r'' → o.now (m + 1) = o.now m) ∧
        (o.turnAt turn m r' = .blocked → o.now m ≤ o.now (m + 1) ∧ o.now (m + 1) ≤ alarm r') := by
  induction turns generalizing n r with
  | zero => cases h
  | succ turns ih =>
      rw [follow] at h
      cases hturn : o.turnAt turn n r with
      | blocked =>
          obtain ⟨hmoves, h⟩ := Option.ite_none_right_eq_some.mp (hturn ▸ h)
          have hr' : o.runAt turn start (n + 1) = some r := runAt_succ_of_blocked hr hturn
          obtain ⟨hfinished, hlater⟩ := ih hr' h
          exact ⟨hfinished, forall_le_of_forall_lt hr (by simp [hturn, hmoves]) hlater⟩
      | next c' next =>
          obtain ⟨hstill, h⟩ := Option.ite_none_right_eq_some.mp (hturn ▸ h)
          have hr' : o.runAt turn start (n + 1) = some next := runAt_succ_of_next hr hturn
          obtain ⟨hfinished, hlater⟩ := ih hr' h
          exact ⟨hfinished, forall_le_of_forall_lt hr (by simp [hturn, hstill]) hlater⟩
      | finished c' outcome' =>
          rw [hturn] at h
          obtain ⟨rfl, rfl, rfl⟩ : n = k ∧ c' = c ∧ outcome' = outcome := by simpa using h
          refine ⟨⟨r, hr, hturn⟩, forall_le_of_forall_lt hr (by simp [hturn]) fun m hlt r' hr' => ?_⟩
          exact absurd (le_of_finished hr hturn hr') (Nat.not_le_of_lt hlt)

/-- A run is followed to the turn at which it finishes, and what it returns there passes a check. -/
def returnsAt (turn : Moment → Collector → σ → RunTurn σ α) (o : Schedule) (start : σ) (alarm : σ → Nat)
    (n : Nat) (check : α → Bool) : Bool :=
  (o.follow turn alarm (n + 1) 0 start).any fun (k, _, outcome) => k == n && outcome.toOption.any check

/-- Such a schedule keeps to the clock and gets on. -/
theorem clocked_of_returnsAt {alarm : σ → Nat} {n : Nat} {check : α → Bool}
    (h : o.returnsAt turn start alarm n check = true) :
    o.Clocked turn start alarm ∧ o.Reaches turn start alarm ∧
      ∃ c a, (∃ r, o.runAt turn start n = some r ∧ o.turnAt turn n r = .finished c (.ok a)) ∧ check a = true := by
  obtain ⟨⟨k, c, outcome⟩, hfollow, hseen⟩ := (Option.any_eq_true _ _).mp h
  obtain ⟨⟨r, hr, hturn⟩, hkeeps⟩ := of_follow rfl hfollow
  refine ⟨⟨?_, ?_⟩, reaches_of_finished hr hturn, ?_⟩
  · intro m r' c' r'' hm hnext
    exact (hkeeps m (Nat.zero_le m) r' hm).1 c' r'' hnext
  · intro m r' hm hblocked
    exact (hkeeps m (Nat.zero_le m) r' hm).2 hblocked
  · obtain ⟨hk, hcheck⟩ := (Bool.and_eq_true _ _).mp hseen
    obtain rfl : k = n := beq_iff_eq.mp hk
    cases outcome with
    | error fault => cases hcheck
    | ok a => exact ⟨c, a, ⟨r, hr, hturn⟩, hcheck⟩

/-! First occasions -/

variable {ready : Moment → Collector → σ → Ready} {what : Ready}

theorem exists_of_firstAt? {n t : Nat} (h : o.firstAt? turn start ready what n = some t) :
    ∃ k r, k < n ∧ o.runAt turn start k = some r ∧ ready (o k).moment (o k).collector r = what ∧
      o.now k = t := by
  obtain ⟨k, hfind, hnow⟩ := Option.map_eq_some_iff.mp h
  have hk : k < n := List.mem_range.mp (List.mem_of_find?_eq_some hfind)
  have hfound := List.find?_some hfind
  cases hr : o.runAt turn start k with
  | none => simp [hr] at hfound
  | some r => exact ⟨k, r, hk, hr, by simpa [hr] using hfound, hnow⟩

theorem firstAt?_zero : o.firstAt? turn start ready what 0 = none := rfl

theorem firstAt?_succ {n : Nat} {r : σ} (hr : o.runAt turn start n = some r) :
    o.firstAt? turn start ready what (n + 1) =
      (o.firstAt? turn start ready what n).or
        (if ready (o n).moment (o n).collector r = what then some (o.now n) else none) := by
  rw [firstAt?, firstAt?, List.range_succ, List.find?_append, Option.map_or, List.find?_singleton]
  simp only [hr, Option.any_some]
  split <;> simp_all

/-- What was found before a turn remains the first. -/
theorem firstAt?_succ_of_isSome {n : Nat} {r : σ} (hr : o.runAt turn start n = some r)
    (h : (o.firstAt? turn start ready what n).isSome = true) :
    o.firstAt? turn start ready what (n + 1) = o.firstAt? turn start ready what n := by
  rw [firstAt?_succ hr, Option.or_of_isSome h]

theorem firstAt?_succ_of_ne {n : Nat} {r : σ} (hr : o.runAt turn start n = some r)
    (h : ready (o n).moment (o n).collector r ≠ what) :
    o.firstAt? turn start ready what (n + 1) = o.firstAt? turn start ready what n := by
  rw [firstAt?_succ hr, if_neg h, Option.or_none]

theorem firstAt?_succ_of_eq {n : Nat} {r : σ} (hr : o.runAt turn start n = some r)
    (hnew : o.firstAt? turn start ready what n = none)
    (h : ready (o n).moment (o n).collector r = what) :
    o.firstAt? turn start ready what (n + 1) = some (o.now n) := by
  rw [firstAt?_succ hr, hnew, if_pos h, Option.none_or]

/-! A turn before a schedule -/

/-- The same occasion at every turn. -/
def always (a : Occasion) : Schedule := fun _ => a

def cons (a : Occasion) (o : Schedule) : Schedule
  | 0 => a
  | n + 1 => o n

theorem runAt_cons {a : Occasion} {next : σ}
    (hgo : (∃ c, turn a.moment a.collector start = .next c next) ∨
      (turn a.moment a.collector start = .blocked ∧ start = next)) (n : Nat) :
    (cons a o).runAt turn start (n + 1) = o.runAt turn next n := by
  induction n with
  | zero => exact runAt_succ_eq_some_iff.mpr ⟨start, rfl, hgo⟩
  | succ n ih =>
      rw [runAt, ih]
      rfl

theorem runAt_always {a : Occasion} {c : Collector} {outcome : Except RunFault α}
    (hfinished : turn a.moment a.collector start = .finished c outcome) (n : Nat) :
    (always a).runAt turn start (n + 1) = none := by
  cases hr : (always a).runAt turn start (n + 1) with
  | none => rfl
  | some r =>
      obtain ⟨r₁, hr₁⟩ := exists_runAt_of_le (Nat.le_add_left 1 n) hr
      obtain ⟨r₀, hr₀, hturn⟩ := exists_of_runAt_succ hr₁
      obtain rfl : start = r₀ := by simpa [runAt] using hr₀
      simp [turnAt, always, hfinished] at hturn

theorem clocked_always {a : Occasion} {alarm : σ → Nat} {c : Collector} {outcome : Except RunFault α}
    (hfinished : turn a.moment a.collector start = .finished c outcome) :
    (always a).Clocked turn start alarm := by
  constructor
  · intro n r c' r' _ _
    rfl
  · intro n r hr hturn
    cases n with
    | zero =>
        obtain rfl : start = r := by simpa [runAt] using hr
        simp [turnAt, always, hfinished] at hturn
    | succ n =>
        rw [runAt_always hfinished] at hr
        cases hr

theorem Clocked.cons {a : Occasion} {alarm : σ → Nat} {next : σ} (ho : o.Clocked turn next alarm)
    (hgo : (∃ c, turn a.moment a.collector start = .next c next ∧ o.now 0 = a.moment.now) ∨
      (turn a.moment a.collector start = .blocked ∧ start = next ∧
        a.moment.now ≤ o.now 0 ∧ o.now 0 ≤ alarm start)) :
    (o.cons a).Clocked turn start alarm := by
  have hshift (n : Nat) : (o.cons a).runAt turn start (n + 1) = o.runAt turn next n := by
    apply runAt_cons
    rcases hgo with ⟨c, hturn, -⟩ | ⟨hturn, heq, -⟩
    · exact Or.inl ⟨c, hturn⟩
    · exact Or.inr ⟨hturn, heq⟩
  refine ⟨fun n r c r' hr hturn => ?_, fun n r hr hturn => ?_⟩
  · cases n with
    | zero =>
        obtain rfl : start = r := Option.some.inj hr
        rcases hgo with ⟨c, -, hnow⟩ | ⟨hblocked, -⟩
        · exact hnow
        · cases hblocked.symm.trans hturn
    | succ n => exact ho.still n r c r' (hshift n ▸ hr) hturn
  · cases n with
    | zero =>
        obtain rfl : start = r := Option.some.inj hr
        rcases hgo with ⟨c, hnext, -⟩ | ⟨-, -, hnow⟩
        · cases hnext.symm.trans hturn
        · exact hnow
    | succ n => exact ho.moves n r (hshift n ▸ hr) hturn

end Schedule

end ContentProbe
