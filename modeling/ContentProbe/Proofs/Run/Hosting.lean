import ContentProbe.Proofs.Run.Armed
import ContentProbe.Proofs.Run.Schedule
import Mathlib.Logic.Relation

/-!
Schedules that a collector lives through. Between the turns of a run others do what they can: calls arrive,
are scanned and wait for a place, and other sessions try to begin. A run that meets what it and the others
have left behind is under way at each of its turns. So it has the claim until it returns, and by then it has
emptied the registry and given up the claim.
-/

namespace ContentProbe

/-- What others do while a session goes on. -/
def Sessions.Meanwhile (session : Nat) : Sessions → Sessions → Prop :=
  Relation.ReflTransGen fun s s' => ∃ actor, Sessions.Step actor s s' ∧ actor ≠ some session

/-- What export calls do to the collector others do meanwhile. -/
theorem Sessions.Meanwhile.of_traffic {session : Nat} {s : Sessions} {c : Collector}
    (h : Relation.ReflTransGen Sessions.Traffic s.collector c) :
    Sessions.Meanwhile session s { s with collector := c } := by
  induction h with
  | refl => exact .refl
  | tail _ hstep ih => exact ih.tail ⟨none, .traffic hstep, by simp⟩

theorem Sessions.Reachable.traffic {s : Sessions} (hs : s.Reachable) {c : Collector}
    (h : Relation.ReflTransGen Sessions.Traffic s.collector c) :
    Sessions.Reachable { s with collector := c } := by
  induction h with
  | refl => exact hs
  | tail _ hstep ih => exact ih.step (.traffic hstep)

theorem Underway.meanwhile {σ α : Type} {session : Nat} {arm : Collector → Collector × σ}
    {turn : Moment → Collector → σ → RunTurn σ α} {s s' : Sessions} {r : σ}
    (h : Underway session arm turn s r) (hothers : Sessions.Meanwhile session s s') :
    Underway session arm turn s' r := by
  induction hothers with
  | refl => exact h
  | tail _ hstep ih =>
      obtain ⟨actor, hstep, hactor⟩ := hstep
      exact ih.others hstep hactor

namespace Schedule

variable {σ α : Type}

/-- The run is that of a session which has begun at a collector and armed its matchers, and each of its turns
meets the collector as the run and the others have left it. -/
structure Hosted (turn : Moment → Collector → σ → RunTurn σ α) (o : Schedule) (start : σ)
    (arm : Collector → Collector × σ) (session : Nat) (hosts : Nat → Sessions) : Prop where
  collector : ∀ n, (hosts n).collector = (o n).collector
  begins : ∃ s after, Sessions.Reachable s ∧ s.collector.acquire = some (session, after) ∧
    (arm after).2 = start ∧
    Sessions.Meanwhile session
      (Sessions.told ⟨after, s.live ++ [⟨session, false, []⟩], s.begun ++ [session]⟩ session
        (arm after).1)
      (hosts 0)
  next : ∀ n r c r', o.runAt turn start n = some r → o.turnAt turn n r = .next c r' →
    Sessions.Meanwhile session ((hosts n).told session c) (hosts (n + 1))
  blocked : ∀ n r, o.runAt turn start n = some r → o.turnAt turn n r = .blocked →
    Sessions.Meanwhile session (hosts n) (hosts (n + 1))

variable {turn : Moment → Collector → σ → RunTurn σ α} {o : Schedule} {start : σ}
  {arm : Collector → Collector × σ} {session : Nat} {hosts : Nat → Sessions}

/-- The run is under way at each of its turns. -/
theorem Hosted.underway (h : o.Hosted turn start arm session hosts) {n : Nat} {r : σ}
    (hr : o.runAt turn start n = some r) : Underway session arm turn (hosts n) r := by
  refine runAt_induction (P := fun n r => Underway session arm turn (hosts n) r) ?_ ?_ ?_ hr
  · obtain ⟨s, after, hs, hacquire, rfl, hothers⟩ := h.begins
    exact (Underway.arm hs hacquire).meanwhile hothers
  · intro n r c r' hr hunderway hturn
    have hturn' : turn (o n).moment (hosts n).collector r = .next c r' := by
      rw [h.collector]
      exact hturn
    exact (hunderway.turn _ hturn').meanwhile (h.next n r c r' hr hturn)
  · intro n r hr hunderway hturn
    exact hunderway.meanwhile (h.blocked n r hr hturn)

/-! A schedule of one turn more -/

/-- Each turn meets the collector as the run and the others have left it, whatever was before the first. -/
structure Amid (turn : Moment → Collector → σ → RunTurn σ α) (o : Schedule) (start : σ) (session : Nat)
    (hosts : Nat → Sessions) : Prop where
  collector : ∀ n, (hosts n).collector = (o n).collector
  next : ∀ n r c r', o.runAt turn start n = some r → o.turnAt turn n r = .next c r' →
    Sessions.Meanwhile session ((hosts n).told session c) (hosts (n + 1))
  blocked : ∀ n r, o.runAt turn start n = some r → o.turnAt turn n r = .blocked →
    Sessions.Meanwhile session (hosts n) (hosts (n + 1))

theorem amid_always {a : Occasion} {s : Sessions} (hcollector : s.collector = a.collector) {c : Collector}
    {outcome : Except RunFault α} (hfinished : turn a.moment a.collector start = .finished c outcome) :
    Amid turn (always a) start session fun _ => s := by
  refine ⟨fun _ => hcollector, fun n r c' r' hr hturn => ?_, fun _ _ _ _ => .refl⟩
  cases n with
  | zero =>
      obtain rfl : start = r := Option.some.inj hr
      cases hfinished.symm.trans hturn
  | succ n =>
      rw [runAt_always hfinished] at hr
      cases hr

theorem Amid.cons {next : σ} (h : o.Amid turn next session hosts) {a : Occasion} {s : Sessions}
    (hcollector : s.collector = a.collector)
    (hgo : (∃ c, turn a.moment a.collector start = .next c next ∧
        Sessions.Meanwhile session (s.told session c) (hosts 0)) ∨
      (turn a.moment a.collector start = .blocked ∧ start = next ∧
        Sessions.Meanwhile session s (hosts 0))) :
    (o.cons a).Amid turn start session fun n => n.casesOn s hosts := by
  have hshift (n : Nat) : (o.cons a).runAt turn start (n + 1) = o.runAt turn next n := by
    apply runAt_cons
    rcases hgo with ⟨c, hturn, -⟩ | ⟨hturn, heq, -⟩
    · exact Or.inl ⟨c, hturn⟩
    · exact Or.inr ⟨hturn, heq⟩
  refine ⟨fun n => ?_, fun n r c r' hr hturn => ?_, fun n r hr hturn => ?_⟩
  · cases n with
    | zero => exact hcollector
    | succ n => exact h.collector n
  · cases n with
    | zero =>
        obtain rfl : start = r := Option.some.inj hr
        rcases hgo with ⟨c₁, hnext, hothers⟩ | ⟨hblocked, -⟩
        · obtain ⟨rfl, -⟩ := RunTurn.next.inj (hnext.symm.trans hturn)
          exact hothers
        · cases hblocked.symm.trans hturn
    | succ n => exact h.next n r c r' (hshift n ▸ hr) hturn
  · cases n with
    | zero =>
        obtain rfl : start = r := Option.some.inj hr
        rcases hgo with ⟨c, hnext, -⟩ | ⟨-, -, hothers⟩
        · cases hnext.symm.trans hturn
        · exact hothers
    | succ n => exact h.blocked n r (hshift n ▸ hr) hturn

end Schedule

/-! The end of a session -/

namespace Collector

variable {c : Collector} {session : Nat}

theorem dismiss_of_held (h : c.claim = .held session) :
    c.dismiss.registry = .empty ∧ c.dismiss.claim = .free := by
  simp [dismiss, leave, h, retire, clear, release, unlock]

theorem reset_dismiss_of_held (h : c.claim = .held session) :
    c.reset.dismiss.registry = .empty ∧ c.reset.dismiss.claim = .free := by
  have hreset : c.reset.claim = .held session := by
    rw [reset, h]
    exact h
  exact dismiss_of_held hreset

theorem claim_register (matchers : List Matcher) : (c.register matchers).claim = c.claim := by
  unfold register
  split <;> rfl

end Collector

end ContentProbe
