import ContentProbe.Decimal.Shortest
import Mathlib.Algebra.Order.Field.Power
import Mathlib.Data.Nat.Cast.Order.Field
import Mathlib.Data.Rat.Cast.Order
import Mathlib.Tactic.FieldSimp
import Mathlib.Tactic.Linarith
import Mathlib.Tactic.Ring

/-!
The shortest decimal of a double is no larger than the upper end of the reals that round to it.
-/

namespace ContentProbe.Decimal

theorem digitCount_pos (n : Nat) : 0 < digitCount n := by
  rw [digitCount]
  split <;> omega

theorem lt_pow_digitCount (n : Nat) : n < 10 ^ digitCount n := by
  induction n using digitCount.induct with
  | case1 n hn => rwa [digitCount, if_pos hn, pow_one]
  | case2 n hn ih =>
      rw [digitCount, if_neg hn, pow_succ]
      omega

/-- The number that a decimal denotes. -/
def Scaled.toRat (d : Scaled) : ℚ := d.digits * 10 ^ d.exponent

theorem Scaled.toRat_trimmed (d : Scaled) : d.trimmed.toRat = d.toRat := by
  induction d using Scaled.trimmed.induct with
  | case1 d hd ih =>
      have hdigits : (d.digits : ℚ) = (d.digits / 10 : Nat) * 10 := by
        exact_mod_cast (Nat.div_mul_cancel (Nat.dvd_of_mod_eq_zero hd.2)).symm
      rw [trimmed, if_pos hd, ih, toRat, toRat, hdigits, zpow_add₀ (by norm_num), zpow_one]
      ring
  | case2 d hd => rw [trimmed, if_neg hd]

namespace Interval

/-- A power with a signed exponent, as the quotient of two powers. -/
theorem zpow_eq_div {base : ℚ} (hbase : base ≠ 0) (e : Int) :
    base ^ e = base ^ e.toNat / base ^ (-e).toNat := by
  rw [eq_div_iff (pow_ne_zero _ hbase), ← zpow_natCast, ← zpow_natCast, ← zpow_add₀ hbase]
  congr 1
  omega

theorem toRat_le_of_holds {i : Interval} (hi : 0 < i.denominator) {d : Scaled} (h : i.holds d = true) :
    d.toRat ≤ i.high / i.denominator := by
  have hpoint : d.digits * 10 ^ d.exponent.toNat * i.denominator ≤ i.high * 10 ^ (-d.exponent).toNat := by
    simp only [holds, Nat.pow_eq] at h
    split at h <;> simp only [Bool.and_eq_true, decide_eq_true_eq] at h <;> omega
  have hpoint : (d.digits : ℚ) * 10 ^ d.exponent.toNat * i.denominator ≤
      i.high * 10 ^ (-d.exponent).toNat := by
    exact_mod_cast hpoint
  rw [Scaled.toRat, zpow_eq_div (by norm_num), ← mul_div_assoc,
    div_le_div_iff₀ (by positivity) (by exact_mod_cast hi)]
  exact hpoint

theorem holds_of_onGrid? {i : Interval} {e : Int} {d : Scaled} (h : i.onGrid? e = some d) :
    i.holds d = true := by
  simp only [onGrid?] at h
  split at h
  · split at h <;> cases h <;> assumption
  · cases h
    assumption
  · cases h
    assumption
  · cases h

theorem toRat_shortestFrom_le {i : Interval} (hi : 0 < i.denominator) (hvalue : i.value ≤ i.high)
    (fuel count : Nat) : (i.shortestFrom fuel count).toRat ≤ i.high / i.denominator := by
  induction fuel generalizing count with
  | zero =>
      rw [shortestFrom, Scaled.toRat, zpow_zero, mul_one]
      calc ((i.value / i.denominator : Nat) : ℚ) ≤ i.value / i.denominator := Nat.cast_div_le
        _ ≤ i.high / i.denominator := by gcongr
  | succ fuel ih =>
      rw [shortestFrom]
      split
      · rw [Scaled.toRat_trimmed]
        exact toRat_le_of_holds hi (holds_of_onGrid? ‹_›)
      · exact ih (count + 1)

end Interval

/-- The upper end of the reals that round to a double lies half a unit above it. -/
theorem toRat_shortest_le (m : Nat) (e : Int) (narrow : Bool) :
    (shortest m e narrow).toRat ≤ (4 * m + 2) * 2 ^ (e - 2) := by
  have hend := Interval.toRat_shortestFrom_le (i := .around m e narrow) (Nat.pow_pos two_pos)
    (Nat.mul_le_mul_right _ (Nat.le_add_right _ 2)) 17 1
  refine hend.trans_eq ?_
  have hneg : -(e - 2) = 2 - e := by ring
  rw [Interval.zpow_eq_div two_ne_zero, hneg, ← mul_div_assoc]
  simp only [Interval.around, Nat.pow_eq]
  push_cast
  rfl

end ContentProbe.Decimal
