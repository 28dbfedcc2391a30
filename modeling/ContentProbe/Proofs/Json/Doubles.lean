import ContentProbe.Json.Double
import ContentProbe.Proofs.Decimal.Binary64
import ContentProbe.Proofs.Decimal.Shortest
import ContentProbe.Proofs.Json.Documents

/-!
Every number that is written for a double can be read. The numeral denotes the shortest decimal, and reading
only drops digits, so that what is scaled is no larger; two roundings and the last place then stay below the
limit from which on results are infinite, for all doubles but the two largest, whose decimals are read one by
one.
-/

namespace ContentProbe

open ContentProbe.Text ContentProbe.Decimal ContentProbe.Binary64

/-- The number that a numeral denotes, its sign apart. -/
def Numeral.magnitude (n : Numeral) : ℚ :=
  (n.whole + ofDigits 10 n.fraction / 10 ^ n.fraction.length) * 10 ^ n.exponent.getD 0

namespace Json

/-! Writing -/

/-- Digits split at the point denote the digits as one number, divided by the places behind the point. -/
theorem split_digits (ds es : List Nat) :
    (ofDigits 10 ds : ℚ) + ofDigits 10 es / 10 ^ es.length = ofDigits 10 (ds ++ es) / 10 ^ es.length := by
  rw [ofDigits_append]
  push_cast
  field_simp

theorem ofDigits_digits (n : Nat) : ofDigits 10 (digitsFixed 10 (digitCount n) n) = n := by
  rw [ofDigits_digitsFixed, Nat.mod_eq_of_lt (lt_pow_digitCount n)]

theorem ofDigits_zeros (count : Nat) (ds : List Nat) :
    ofDigits 10 (List.replicate count 0 ++ ds) = ofDigits 10 ds := by
  induction count with
  | zero => rfl
  | succ count ih => rw [List.replicate_succ, List.cons_append, ofDigits_cons, ih, Nat.zero_mul, Nat.zero_add]

/-- However the point is placed, the numeral of a decimal denotes it. -/
theorem magnitude_numeralOfScaled (negative : Bool) (d : Scaled) :
    (numeralOfScaled negative d).magnitude = d.toRat := by
  have hcount := digitCount_pos d.digits
  have hvalue := ofDigits_digits d.digits
  have hlength := length_digitsFixed 10 (digitCount d.digits) d.digits
  have hten : (10 : ℚ) ≠ 0 := by norm_num
  unfold numeralOfScaled Scaled.toRat
  dsimp only
  generalize digitsFixed 10 (digitCount d.digits) d.digits = ds at *
  generalize digitCount d.digits = count at *
  -- The digits before and behind a point, scaled by a power.
  have hsplit (k : Nat) (hk : k ≤ count) (e : Int) :
      ((ofDigits 10 (ds.take k) : ℚ) + ofDigits 10 (ds.drop k) / 10 ^ (ds.drop k).length) * 10 ^ e =
        d.digits * 10 ^ (e - (count - k : Nat)) := by
    rw [split_digits, List.take_append_drop, hvalue, List.length_drop, hlength, zpow_sub₀ hten, zpow_natCast]
    ring
  split
  · obtain ⟨e, he⟩ := Int.eq_ofNat_of_zero_le (by omega : 0 ≤ d.exponent)
    simp [Numeral.magnitude, he, ofDigits]
  · split
    · have hexp : (0 : Int) - (count - (count + d.exponent).toNat : Nat) = d.exponent := by omega
      have hread := hsplit (count + d.exponent).toNat (by omega) 0
      rwa [hexp] at hread
    · split
      · have hexp : -(((-(count + d.exponent)).toNat + count : Nat) : Int) = d.exponent := by omega
        simp only [Numeral.magnitude, ofDigits_zeros, hvalue, List.length_append, List.length_replicate,
          hlength, Nat.cast_zero, zero_add, Option.getD_none, zpow_zero, mul_one]
        rw [← hexp, zpow_neg, zpow_natCast, div_eq_mul_inv, hexp]
      · have hexp : count + d.exponent - 1 - (count - 1 : Nat) = d.exponent := by omega
        have hread := hsplit 1 hcount (count + d.exponent - 1)
        rwa [hexp] at hread

/-- What stands before the point fits into 64 bits, and what stands behind it are digits. -/
theorem numeralOfScaled_fits (negative : Bool) (d : Scaled) :
    (numeralOfScaled negative d).whole < 2 ^ 64 ∧ ∀ n ∈ (numeralOfScaled negative d).fraction, n < 10 := by
  have hlt := lt_pow_digitCount d.digits
  have hdigits : ∀ n ∈ digitsFixed 10 (digitCount d.digits) d.digits, n < 10 :=
    fun n => lt_of_mem_digitsFixed (by decide)
  unfold numeralOfScaled
  dsimp only
  generalize digitsFixed 10 (digitCount d.digits) d.digits = ds at *
  generalize digitCount d.digits = count at *
  have htake {k : Nat} (hk : k ≤ 16) : ofDigits 10 (ds.take k) < 2 ^ 64 :=
    calc ofDigits 10 (ds.take k)
      _ < 10 ^ (ds.take k).length := ofDigits_lt fun n hn => hdigits n (List.mem_of_mem_take hn)
      _ ≤ 10 ^ 16 := Nat.pow_le_pow_right (by decide) ((List.length_take_le k ds).trans hk)
      _ < 2 ^ 64 := by decide
  have hdrop (k : Nat) : ∀ n ∈ ds.drop k, n < 10 := fun n hn => hdigits n (List.mem_of_mem_drop hn)
  split
  · refine ⟨?_, by simp⟩
    calc d.digits * 10 ^ d.exponent.toNat < 10 ^ count * 10 ^ d.exponent.toNat := by gcongr
      _ = 10 ^ (count + d.exponent.toNat) := (pow_add ..).symm
      _ ≤ 10 ^ 16 := Nat.pow_le_pow_right (by decide) (by omega)
      _ < 2 ^ 64 := by decide
  · split
    · exact ⟨htake (by omega), hdrop _⟩
    · split
      · refine ⟨Nat.two_pow_pos 64, fun n hn => ?_⟩
        rcases List.mem_append.mp hn with hn | hn
        · rw [(List.mem_replicate.mp hn).2]
          decide
        · exact hdigits n hn
      · exact ⟨htake (by decide), hdrop 1⟩

/-! Reading -/

namespace Significand

def toRat (s : Significand) : ℚ := s.value * 10 ^ s.exponent

/-- A whole part that fits is read as it is. -/
theorem foldl_pushWhole {ds : List Nat} (hds : ofDigits 10 ds < 2 ^ 64) :
    ds.foldl pushWhole (⟨0, 0⟩, false) = (⟨ofDigits 10 ds, 0⟩, false) := by
  induction ds using List.reverseRecOn with
  | nil => rfl
  | append_singleton ds d ih =>
      rw [ofDigits_append_singleton] at hds ⊢
      rw [List.foldl_append, ih (by omega), List.foldl_cons, List.foldl_nil, pushWhole, if_pos]
      simpa using hds

/-- The digits behind the point bring in no more than they denote. -/
theorem pushFraction_le (ds : List Nat) {s : Significand} (hs : s.value < 2 ^ 64) :
    (s.pushFraction ds).value < 2 ^ 64 ∧
      (s.pushFraction ds).toRat ≤ s.toRat + ofDigits 10 ds * 10 ^ (s.exponent - ds.length) := by
  induction ds generalizing s with
  | nil => exact ⟨hs, by simp [pushFraction, ofDigits]⟩
  | cons d ds ih =>
      rw [pushFraction]
      split
      · rename_i hfits
        obtain ⟨hvalue, hle⟩ := ih (s := ⟨s.value * 10 + d, s.exponent - 1⟩) hfits
        refine ⟨hvalue, hle.trans_eq ?_⟩
        have hexp : s.exponent - 1 - (ds.length : Int) = s.exponent - (ds.length + 1 : Nat) := by omega
        have hten : (10 : ℚ) ≠ 0 := by norm_num
        simp only [toRat, ofDigits_cons, List.length_cons, hexp]
        rw [zpow_sub₀ hten, zpow_sub₀ hten, zpow_natCast, pow_succ]
        push_cast
        field_simp
        ring
      · exact ⟨hs, le_add_of_nonneg_right (by positivity)⟩

end Significand

/-- Dividing never fails. -/
theorem isSome_scale?_of_neg (fuel : Nat) (x : Float) {e : Int} (he : e < 0) :
    (scale? fuel x e).isSome = true := by
  induction fuel generalizing x e with
  | zero => rfl
  | succ fuel ih =>
      have hneg : ¬ 0 ≤ e := by omega
      rw [scale?]
      split
      · rfl
      · split
        · rfl
        · exact ih _ (by omega)

/-- What may be written for a double that is not one of the two largest. -/
def readable : ℚ := 2 ^ 1024 - 5 * 2 ^ 970

/-- Two roundings by a part in `2 ^ 53` do not lead out of the doubles. -/
theorem readable_rounded : readable * (1 + 1 / 2 ^ 53) ^ 2 < limit := by
  have hlarge : (2 : ℚ) ^ 1024 = 2 ^ 106 * 2 ^ 918 := by rw [← pow_add]
  have hsmall : (2 : ℚ) ^ 970 = 2 ^ 52 * 2 ^ 918 := by rw [← pow_add]
  have hpos : (0 : ℚ) < 2 ^ 918 := pow_pos two_pos 918
  rw [readable, limit, hlarge, hsmall]
  generalize (2 : ℚ) ^ 918 = unit at hpos
  nlinarith

theorem isSome_scale? {s : Significand} (hfits : s.value < 2 ^ 64) (hs : s.toRat ≤ readable) :
    (scale? (s.exponent.natAbs / 308 + 2) (UInt64.ofNat s.value).toFloat s.exponent).isSome = true := by
  by_cases he : s.exponent < 0
  · exact isSome_scale?_of_neg _ _ he
  obtain ⟨e, hexp⟩ := Int.eq_ofNat_of_zero_le (by omega : 0 ≤ s.exponent)
  rw [Significand.toRat, hexp, zpow_natCast] at hs
  rw [hexp, Int.natAbs_natCast, scale?, Int.natAbs_natCast, if_pos (by omega : (0 : Int) ≤ (e : Nat))]
  split
  · rename_i hsmall
    have hproduct : s.value * (1 + 1 / 2 ^ 53) * (10 ^ e * (1 + 1 / 2 ^ 53)) < limit :=
      calc (s.value : ℚ) * (1 + 1 / 2 ^ 53) * (10 ^ e * (1 + 1 / 2 ^ 53))
          = s.value * 10 ^ e * (1 + 1 / 2 ^ 53) ^ 2 := by ring
        _ ≤ readable * (1 + 1 / 2 ^ 53) ^ 2 := by gcongr
        _ < limit := readable_rounded
    have hfinite := isInf_mul_of_within (within_ofNat hfits) (within_power hsmall) (by positivity) hproduct
    simp [hfinite]
  · rename_i hlarge
    have hzero : s.value = 0 := by
      by_contra hne
      have hone : (1 : ℚ) ≤ s.value := by exact_mod_cast Nat.one_le_iff_ne_zero.mpr hne
      have hnat : 2 ^ 1024 < 10 ^ 309 := by decide +kernel
      have habove : (2 : ℚ) ^ 1024 < 2 ^ 1024 :=
        calc (2 : ℚ) ^ 1024 < 10 ^ 309 := by exact_mod_cast hnat
          _ ≤ 10 ^ e := pow_le_pow_right₀ (by norm_num) (by omega)
          _ ≤ s.value * 10 ^ e := le_mul_of_one_le_left (by positivity) hone
          _ ≤ readable := hs
          _ ≤ 2 ^ 1024 := sub_le_self _ (by positivity)
      exact lt_irrefl _ habove
    have hnothing : ((UInt64.ofNat 0).toFloat == 0.0) = true := by decide +kernel
    rw [hzero, if_pos hnothing]
    rfl

end Json

/-- The digits of a numeral that are scaled. -/
def Numeral.significand (n : Numeral) : Json.Significand :=
  let start : Json.Significand × Bool := (⟨0, 0⟩, false)
  let s := ((digitsFixed 10 (digitCount n.whole) n.whole).foldl Json.Significand.pushWhole start).1
    |>.pushFraction n.fraction
  ⟨s.value, s.exponent + n.exponent.getD 0⟩

theorem Numeral.significand_le {n : Numeral} (hwhole : n.whole < 2 ^ 64) :
    n.significand.value < 2 ^ 64 ∧ n.significand.toRat ≤ n.magnitude := by
  have hread := Json.Significand.foldl_pushWhole ((Json.ofDigits_digits n.whole).trans_lt hwhole)
  rw [Json.ofDigits_digits] at hread
  obtain ⟨hfits, hle⟩ := Json.Significand.pushFraction_le n.fraction (s := ⟨n.whole, 0⟩) hwhole
  simp only [significand, hread]
  refine ⟨hfits, ?_⟩
  have hten : (10 : ℚ) ≠ 0 := by norm_num
  simp only [Json.Significand.toRat, magnitude, zpow_add₀ hten, ← mul_assoc] at hle ⊢
  gcongr
  simpa [zpow_sub₀ hten, div_eq_mul_inv] using hle

/-- A literal that is not among the largest doubles, or above them, is read. -/
theorem Numeral.isSome_toDouble? {n : Numeral} (hwhole : n.whole < 2 ^ 64)
    (hn : n.magnitude ≤ Json.readable) : n.toDouble?.isSome = true := by
  obtain ⟨hfits, hle⟩ := n.significand_le hwhole
  have hscale := Json.isSome_scale? hfits (hle.trans hn)
  change (Option.map _ (Json.scale? _ _ n.significand.exponent)).isSome = true
  rw [Option.isSome_map]
  exact hscale

/-! Doubles -/

theorem Decimal.Parts.ofBits_finite {bits : UInt64} {negative narrow : Bool} {m : Nat} {e : Int}
    (h : Parts.ofBits bits = .finite negative m e narrow) :
    m < 2 ^ 53 ∧ e ≤ 971 ∧ (narrow = true → m = 2 ^ 52) := by
  have hfield : bits.toNat / 2 ^ 52 % 2 ^ 11 < 2 ^ 11 := Nat.mod_lt _ (by decide)
  have hfraction : bits.toNat % 2 ^ 52 < 2 ^ 52 := Nat.mod_lt _ (by decide)
  simp only [Parts.ofBits, Nat.pow_eq] at h
  generalize bits.toNat / 2 ^ 52 % 2 ^ 11 = field at *
  generalize bits.toNat % 2 ^ 52 = fraction at *
  split at h
  · split at h <;> cases h
  · split at h
    · cases h
      exact ⟨hfraction.trans (by decide), by decide, nofun⟩
    · cases h
      refine ⟨by omega, by omega, fun hnarrow => ?_⟩
      simp only [Bool.and_eq_true, decide_eq_true_eq] at hnarrow
      rw [hnarrow.1, Nat.add_zero]

/-- All but the two largest doubles have decimals that are read, whatever they are rounded to. -/
theorem Json.toRat_shortest_le_readable {m : Nat} {e : Int} (narrow : Bool) (hm : m < 2 ^ 53) (he : e ≤ 971)
    (hlargest : e = 971 → m < 2 ^ 53 - 2) : (shortest m e narrow).toRat ≤ readable := by
  refine (toRat_shortest_le m e narrow).trans ?_
  have hlarge : readable = (2 ^ 56 - 20) * 2 ^ 968 := by
    have hunit : (2 : ℚ) ^ 1024 = 2 ^ 56 * 2 ^ 968 := by rw [← pow_add]
    have hsmall : (2 : ℚ) ^ 970 = 2 ^ 2 * 2 ^ 968 := by rw [← pow_add]
    rw [readable, hunit, hsmall]
    generalize (2 : ℚ) ^ 968 = unit
    ring
  rw [hlarge]
  rcases eq_or_lt_of_le he with rfl | hlt
  · have hm : (m : ℚ) ≤ 2 ^ 53 - 3 := by
      have hnat : m + 3 ≤ 2 ^ 53 := by omega
      rw [le_sub_iff_add_le]
      exact_mod_cast hnat
    have hunit : (2 : ℚ) ^ (971 - 2 : Int) = 2 * 2 ^ 968 := by
      have hexp : (971 - 2 : Int) = (968 + 1 : Nat) := rfl
      rw [hexp, zpow_natCast, pow_succ']
    have hpos : (0 : ℚ) < 2 ^ 968 := pow_pos two_pos 968
    rw [hunit]
    generalize (2 : ℚ) ^ 968 = unit at hpos
    nlinarith
  · have hm : (m : ℚ) ≤ 2 ^ 53 := by exact_mod_cast hm.le
    have hunit : (2 : ℚ) ^ (e - 2) ≤ 2 ^ 968 := by
      rw [← zpow_natCast]
      exact zpow_le_zpow_right₀ one_le_two (by omega)
    generalize (2 : ℚ) ^ 968 = unit at hunit
    have hpos : (0 : ℚ) < 2 ^ (e - 2) := zpow_pos two_pos _
    calc (4 * (m : ℚ) + 2) * 2 ^ (e - 2) ≤ (4 * m + 2) * unit := by gcongr
      _ ≤ (2 ^ 56 - 20) * unit := by
          have hle : 4 * (m : ℚ) + 2 ≤ 2 ^ 56 - 20 := by linarith
          exact mul_le_mul_of_nonneg_right hle (hpos.le.trans hunit)

/-- The text of the two largest doubles is within reach of reading too. -/
theorem Json.isSome_largest (negative : Bool) {m : Nat} (hm : m = 2 ^ 53 - 2 ∨ m = 2 ^ 53 - 1) :
    (numeralOfScaled negative (shortest m 971 false)).toDouble?.isSome = true := by
  rcases hm with rfl | rfl <;> cases negative <;> decide +kernel

/-- A double is written as `null`, or as a number that is read. -/
theorem Json.ofDouble_cases (x : Float) :
    ofDouble x = .null ∨
      ∃ n, ofDouble x = .number n ∧ (∀ d ∈ n.fraction, d < 10) ∧ n.toDouble?.isSome = true := by
  rw [ofDouble]
  cases hparts : Parts.ofBits x.toBits with
  | infinite negative => exact Or.inl rfl
  | notANumber => exact Or.inl rfl
  | finite negative m e narrow =>
      obtain ⟨hm, he, hnarrow⟩ := Parts.ofBits_finite hparts
      refine Or.inr ?_
      dsimp only
      split
      · refine ⟨_, rfl, by simp, ?_⟩
        cases negative <;> decide +kernel
      · obtain ⟨hwhole, hfraction⟩ := numeralOfScaled_fits negative (shortest m e narrow)
        refine ⟨_, rfl, hfraction, ?_⟩
        by_cases hlargest : e = 971 → m < 2 ^ 53 - 2
        · refine Numeral.isSome_toDouble? hwhole ?_
          rw [magnitude_numeralOfScaled]
          exact toRat_shortest_le_readable narrow hm he hlargest
        · obtain ⟨rfl, hlarge⟩ := Classical.not_imp.mp hlargest
          have hwide : narrow = false := by
            rw [Bool.eq_false_iff]
            intro h
            have := hnarrow h
            omega
          rw [hwide]
          exact isSome_largest negative (by omega)

theorem Json.Exact.ofDouble (x : Float) : Exact (ofDouble x) := by
  rcases ofDouble_cases x with hx | ⟨n, hx, hfraction, -⟩
  · rw [hx]
    trivial
  · rw [hx]
    exact hfraction

end ContentProbe
