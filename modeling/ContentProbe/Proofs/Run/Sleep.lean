import ContentProbe.Proofs.Run.Returns

/-!
A sleep reaches its instant. Whoever only waits for an instant is done once it has come, and the turns of the
timeline suffice for that: whenever the clock stops short of the instant, it stops at a timer, and there is less
to do after that.
-/

namespace ContentProbe

open ContentProbe.Time

namespace Timeline

/-- A foreground that only waits for an instant is done when that has come. -/
def idle (limit : Nat) (t : Timeline) (_ : Unit) : Timeline × Turn Unit (Option Unit) :=
  if limit ≤ t.now then (t, .done none) else (t, .blocked ())

theorem idle_eq_blocked {limit : Nat} {t t' : Timeline} {s s' : Unit} (h : idle limit t s = (t', .blocked s')) :
    t' = t ∧ t.now < limit := by
  unfold idle at h
  split at h
  · cases h
  · rename_i hearly
    cases h
    exact ⟨rfl, Nat.lt_of_not_le hearly⟩

/-- The turns of a timeline are enough to get to any instant. -/
theorem exists_drive_idle (t : Timeline) (limit : Nat) :
    ∃ t' found, t.drive (idle limit) (fun _ => some limit) () = (t', some found) := by
  apply exists_turns_eq_some fun t _ => t.toDo + toCome limit t.now
  · intro t s t' s' hturn
    unfold idle at hturn
    split at hturn <;> cases hturn
  · intro t s t' s' hturn hwoken
    obtain ⟨rfl, -⟩ := idle_eq_blocked hturn
    rw [(settle_frame t').1]
    exact Nat.add_lt_add_right (toDo_settle_lt hwoken) _
  · intro t s t' s' hturn hcalm
    obtain ⟨rfl, hearly⟩ := idle_eq_blocked hturn
    obtain ⟨instant, hinstant, -⟩ := earliest_eq_some_left limit t'.timer?
    refine ⟨instant, hinstant, ?_⟩
    rcases earliest_eq_some hinstant with hlimit | htimer
    · obtain rfl := Option.some.inj hlimit
      exact Nat.add_lt_add_of_le_of_lt (toDo_advance_le hcalm limit) (toCome_lt hearly (Nat.le_max_right _ _))
    · exact Nat.add_lt_add_of_lt_of_le (toDo_advance_lt hcalm htimer) (toCome_mono (Nat.le_max_left _ _) limit)
  · have hothers := t.toDo_le_work
    have hown := toCome_le_one limit t.now
    omega

/-- Whoever is done has seen the instant come. Nobody has claimed the collector meanwhile, nor given it up. -/
theorem drive_idle_frame (t : Timeline) (limit : Nat) :
    let t' := (t.drive (idle limit) (fun _ => some limit) ()).1
    limit ≤ t'.now ∧ t'.collector.claim = t.collector.claim := by
  obtain ⟨t', found, hdrive⟩ := exists_drive_idle t limit
  rw [hdrive]
  refine turns_induction (P := fun t' => t'.collector.claim = t.collector.claim)
    (Q := fun t' _ => limit ≤ t'.now ∧ t'.collector.claim = t.collector.claim) ?_ ?_ ?_ ?_ ?_ rfl hdrive
  · intro t hclaim
    exact (claim_of_traffic (settle_frame t).2).trans hclaim
  · intro t instant hclaim
    exact hclaim
  · intro t s t' s' _ hturn
    unfold idle at hturn
    split at hturn <;> cases hturn
  · intro t s t' s' hclaim hturn
    rw [(idle_eq_blocked hturn).1]
    exact hclaim
  · intro t s t' found hclaim hturn
    unfold idle at hturn
    split at hturn
    · rename_i hcome
      cases hturn
      exact ⟨hcome, hclaim⟩
    · cases hturn

/-- To wait without looking for anything is to be idle. -/
theorem await_blocked (t : Timeline) (limit : Nat) :
    (t.await (fun t => (t, Turn.blocked ())) (some limit) : Timeline × Option Unit).1 =
      (t.drive (idle limit) (fun _ => some limit) ()).1 := by
  have hidle : idle limit = fun t _ =>
      if (some limit).any (· ≤ t.now) then (t, .done none) else (t, .blocked ()) := by
    funext t s
    simp [idle]
  rw [hidle]
  unfold await
  -- the result is taken apart first: a projection of it would be run
  generalize drive _ _ t () = result
  obtain ⟨t', found⟩ := result
  rfl

theorem sleep_eq (t : Timeline) (time : Nat) :
    t.sleep time =
      (t.drive (idle (tick (t.now + time))) (fun _ => some (tick (t.now + time))) ()).1 := by
  -- unfolded as a function: at its arguments it would be run
  have hsleep : Timeline.sleep = fun t time =>
      (t.await (fun t => (t, Turn.blocked ())) (some (tick (t.now + time))) : Timeline × Option Unit).1 := rfl
  rw [hsleep]
  exact await_blocked _ _

/-- A sleep takes no less than its time. -/
theorem le_now_sleep (t : Timeline) (time : Nat) : t.now + time ≤ (t.sleep time).now := by
  rw [sleep_eq]
  exact (le_tick _).trans (drive_idle_frame t _).1

theorem claim_sleep (t : Timeline) (time : Nat) : (t.sleep time).collector.claim = t.collector.claim := by
  rw [sleep_eq]
  exact (drive_idle_frame t _).2

end Timeline

end ContentProbe
