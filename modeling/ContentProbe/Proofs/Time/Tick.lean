import ContentProbe.Time.Tick
import Mathlib.Algebra.Order.Ring.Nat
import Mathlib.Order.Lattice

/-!
When timers ring: never before their instants, less than a millisecond after them, and just at those that are
whole milliseconds. A timer that is set to a later instant does not ring earlier.
-/

namespace ContentProbe.Time

theorem le_tick (instant : Nat) : instant ≤ tick instant := by
  simp only [tick, millisecond]
  omega

theorem tick_lt (instant : Nat) : tick instant < instant + millisecond := by
  simp only [tick, millisecond]
  omega

theorem tick_of_dvd {instant : Nat} (h : millisecond ∣ instant) : tick instant = instant := by
  simp only [tick, millisecond] at h ⊢
  omega

theorem tick_mono : Monotone tick := by
  intro earlier later h
  simp only [tick, millisecond]
  omega

theorem tick_max (a b : Nat) : tick (max a b) = max (tick a) (tick b) := tick_mono.map_max

/-- A clock that shows whole milliseconds has passed an instant just when its timer has rung. -/
theorem tick_le_iff {instant now : Nat} (h : millisecond ∣ now) : tick instant ≤ now ↔ instant ≤ now :=
  ⟨(le_tick instant).trans, fun hle => (tick_mono hle).trans_eq (tick_of_dvd h)⟩

end ContentProbe.Time
