import Mathlib

/-!
How far rounding moves a number up. A result is at most half a unit in the last place above what was rounded,
and so it is infinite only from half a unit above the largest double on. A whole number and a power of ten
become doubles that are above them by one part in `2 ^ 53` at most, and the product of two doubles is infinite
only where the exact product reaches that limit.
-/

namespace ContentProbe.Binary64

open Float.Model Float.Model.UnpackedFloat

/-! Shifting mantissas -/

theorem mantissa_shiftRight (em : ExtendedMantissa) (k : Nat) :
    (em >>> k).mantissa = em.mantissa / 2 ^ k := by
  induction k with
  | zero => exact (Nat.div_one _).symm
  | succ k ih =>
      change (em >>> k).mantissa / 2 = _
      rw [ih, Nat.div_div_eq_div_mul, pow_succ]

theorem roundBit_shiftRight (em : ExtendedMantissa) (k : Nat) :
    (em >>> (k + 1)).roundBit = (em.mantissa / 2 ^ k % 2 != 0) := by
  change ((em >>> k).mantissa % 2 != 0) = _
  rw [mantissa_shiftRight]

/-- Only a mantissa whose round bit is set is rounded up, and by one. -/
theorem roundedMantissa_le (em : ExtendedMantissa) :
    em.roundedMantissa ≤ em.mantissa + em.roundBit.toNat := by
  obtain ⟨m, round, sticky⟩ := em
  cases round <;> cases sticky <;>
    simp [ExtendedMantissa.roundedMantissa, ExtendedMantissa.accuracy, Accuracy.roundToNearestEven]
  omega

/-- A mantissa that loses bits is at most half of the last unit too large. -/
theorem roundedMantissa_shiftRight_le (m k : Nat) :
    2 * ((⟨m, false, false⟩ : ExtendedMantissa) >>> k).roundedMantissa * 2 ^ k ≤ 2 * m + 2 ^ k := by
  cases k with
  | zero =>
      have hexact : ((⟨m, false, false⟩ : ExtendedMantissa) >>> 0).roundedMantissa = m := rfl
      rw [hexact, pow_zero]
      omega
  | succ k =>
      have hround := roundedMantissa_le ((⟨m, false, false⟩ : ExtendedMantissa) >>> (k + 1))
      rw [mantissa_shiftRight, roundBit_shiftRight] at hround
      generalize ((⟨m, false, false⟩ : ExtendedMantissa) >>> (k + 1)).roundedMantissa = r at hround ⊢
      have hbit : (m / 2 ^ k % 2 != 0).toNat = m / 2 ^ k % 2 := by
        rcases Nat.mod_two_eq_zero_or_one (m / 2 ^ k) with h | h <;> simp [h]
      have hhalf : m / 2 ^ (k + 1) = m / 2 ^ k / 2 := by rw [pow_succ, Nat.div_div_eq_div_mul]
      dsimp only at hround
      have hdouble : 2 * r ≤ m / 2 ^ k + 1 := by
        rw [hbit, hhalf] at hround
        omega
      have hquotient := Nat.div_mul_le_self m (2 ^ k)
      calc 2 * r * 2 ^ (k + 1) = 2 * (2 * r * 2 ^ k) := by ring
        _ ≤ 2 * ((m / 2 ^ k + 1) * 2 ^ k) := by gcongr
        _ = 2 * (m / 2 ^ k * 2 ^ k) + 2 ^ (k + 1) := by ring
        _ ≤ 2 * m + 2 ^ (k + 1) := by omega

/-! What a double denotes -/

/-- From here on results are infinite. -/
def limit : ℚ := 2 ^ 1024 - 2 ^ 970

/-- A double that is finite, in a form that bits can have, and no larger than a number. -/
def Within (most : ℚ) : UnpackedFloat → Prop
  | .finite _ m e _ => (m : ℚ) * 2 ^ e ≤ most ∧ e ≤ 971 ∧ (2 ^ 52 ≤ m ∨ e = -1074)
  | .zero _ => True
  | .infinity _ => False
  | .notANumber => False

theorem Within.mono {p q : ℚ} (hpq : p ≤ q) {u : UnpackedFloat} (h : Within p u) : Within q u := by
  match u with
  | .finite _ _ _ _ => exact ⟨h.1.trans hpq, h.2⟩
  | .zero _ => trivial

theorem Within.isInf {q : ℚ} {u : UnpackedFloat} (h : Within q u) : u.isInf = false := by
  match u with
  | .finite _ _ _ _ => rfl
  | .zero _ => rfl

theorem unpack_pack_zero (s : Sign) : (Float.Model.pack (.zero s)).unpack = .zero s := by
  cases s <;> rfl

/-- What is packed with an exponent of a double does not grow, and stays finite. -/
theorem within_unpack_pack (s : Sign) {m : Nat} {e : Int} (hm : 0 < m) (hlow : -1074 ≤ e) (hhigh : e ≤ 971) :
    Within (m * 2 ^ e) (Float.Model.pack (.finite s m e hm)).unpack := by
  have hbias : (e + Format.binary64.exponentBias + Format.binary64.mantissaBitsWithoutImplicit).toNat =
      (e + 1075).toNat := by
    change (e + (1023 : Nat) + (52 : Nat)).toNat = _
    omega
  have hbits : Format.binary64.mantissaBits = 53 := rfl
  change Within _ (UnpackedFloat.unpack .binary64 (UnpackedFloat.pack .binary64 (.finite s m e hm)))
  rw [UnpackedFloat.pack]
  simp only [hbias, hbits]
  rw [if_neg (by omega)]
  split
  · have hlog : m.log2 = 52 := by omega
    have hlo : 2 ^ 52 ≤ m := hlog ▸ Nat.log2_self_le hm.ne'
    have hhi : m < 2 ^ 53 := by simpa [hlog] using Nat.lt_log2_self (n := m)
    have hvec : (BitVec.ofNat 11 (e + 1075).toNat).toNat = (e + 1075).toNat := by
      rw [BitVec.toNat_ofNat, Nat.mod_eq_of_lt (by omega)]
    have hmant : (1#1 ++ BitVec.ofNat 52 m).toNat = m := by
      rw [BitVec.toNat_append, ← Nat.shiftLeft_add_eq_or_of_lt (BitVec.ofNat 52 m).isLt, BitVec.toNat_ofNat,
        Nat.shiftLeft_eq, BitVec.toNat_ofNat]
      omega
    have hones : BitVec.ofNat 11 (e + 1075).toNat ≠ -1#11 := fun heq => by
      rw [heq] at hvec
      change 2047 = _ at hvec
      omega
    have hzero : BitVec.ofNat 11 (e + 1075).toNat ≠ 0#11 := fun heq => by
      rw [heq] at hvec
      change 0 = _ at hvec
      omega
    have hback : ((e + 1075).toNat : Int) - ((1023 : Nat) + (52 : Nat)) = e := by omega
    rw [UnpackedFloat.unpack]
    simp only [unpackMantissa_packComponents, unpackExponent_packComponents]
    rw [if_neg hones, if_neg hzero]
    rw [Within, hmant]
    have hexp : ((BitVec.ofNat 11 (e + 1075).toNat).toNat : Int) -
        (Format.binary64.exponentBias + Format.binary64.mantissaBitsWithoutImplicit) = e := by
      rw [hvec]
      exact hback
    rw [hexp]
    exact ⟨le_refl _, hhigh, Or.inl hlo⟩
  · rw [UnpackedFloat.unpack]
    simp only [unpackMantissa_packComponents, unpackExponent_packComponents]
    rw [if_neg (by decide), if_pos trivial]
    split
    · trivial
    · have hexp : (0 : Int) -
          (Format.binary64.exponentBias + Format.binary64.mantissaBitsWithoutImplicit) + 1 = -1074 := rfl
      refine ⟨?_, by decide, Or.inr hexp⟩
      have hmod : (BitVec.ofNat 52 m).toNat ≤ m := by
        rw [BitVec.toNat_ofNat]
        exact Nat.mod_le m _
      calc ((BitVec.ofNat 52 m).toNat : ℚ) * 2 ^ (-1074 : Int) ≤ m * 2 ^ (-1074 : Int) := by gcongr
        _ ≤ m * 2 ^ e := by
          gcongr
          exact one_le_two

/-- The exponent of the last place that a number keeps when it is rounded. -/
def place (m : Nat) (e : Int) : Int := max e (max (m.log2 + e - 52) (-1074))

theorem shiftToTarget_eq (m : Nat) (e : Int) :
    shiftToTargetExponent .binary64 m e .exact =
      ((⟨m, false, false⟩ : ExtendedMantissa) >>> (place m e - e).toNat, place m e) := by
  have htarget : Format.binary64.targetExponent (totalExponent m e) = max (m.log2 + e - 52) (-1074) := by
    change max ((m.log2 : Int) + 1 + e - (53 : Nat)) (-1074) = _
    omega
  have hshift : (max (m.log2 + e - 52) (-1074) - e).toNat = (place m e - e).toNat := by
    unfold place
    omega
  have hplace : e + (place m e - e).toNat = place m e := by
    unfold place
    omega
  simp only [shiftToTargetExponent, shiftToExponent, htarget, hshift, hplace]
  rfl

theorem min_le_place (m : Nat) (e : Int) : -1074 ≤ place m e := by
  unfold place
  omega

theorem le_place (m : Nat) (e : Int) : e ≤ place m e := le_max_left ..

/-- What is smaller than twice the largest power of two among the doubles has its last place among them. -/
theorem place_le {m : Nat} {e : Int} (hform : e ≤ 971 ∨ 2 ^ 52 ≤ m) (hlt : (m : ℚ) * 2 ^ e < 2 ^ 1024) :
    place m e ≤ 971 := by
  unfold place
  rcases Nat.eq_zero_or_pos m with rfl | hm
  · rw [Nat.log2_zero]
    omega
  · have hlog : (2 : ℚ) ^ ((m.log2 : Int) + e) < 2 ^ (1024 : Int) := by
      have hself : (2 : ℚ) ^ m.log2 ≤ m := by exact_mod_cast Nat.log2_self_le hm.ne'
      calc (2 : ℚ) ^ ((m.log2 : Int) + e) = 2 ^ m.log2 * 2 ^ e := by
            rw [zpow_add₀ two_ne_zero, zpow_natCast]
        _ ≤ m * 2 ^ e := by gcongr
        _ < 2 ^ (1024 : Int) := by exact_mod_cast hlt
    have hexp := (zpow_lt_zpow_iff_right₀ one_lt_two).mp hlog
    have hform : e ≤ 971 ∨ 52 ≤ m.log2 := hform.imp_right (Nat.le_log2 hm.ne').mpr
    omega

/-- A mantissa that was rounded at its last place is no larger after a carry, which shifts it once more. -/
theorem carried_bounds {m r : Nat} {e : Int} (hplace : place m e ≤ 971) (hlimit : (m : ℚ) * 2 ^ e < limit)
    (hround : 2 * r * 2 ^ (place m e - e).toNat ≤ 2 * m + 2 ^ (place m e - e).toNat) :
    place r (place m e) ≤ 971 ∧
      ((r / 2 ^ (place r (place m e) - place m e).toNat : Nat) : ℚ) * 2 ^ place r (place m e) ≤
        m * 2 ^ e + 2 ^ (place m e - 1) := by
  obtain ⟨k, hk⟩ : ∃ k : Nat, place m e = e + k := ⟨(place m e - e).toNat, by have := le_place m e; omega⟩
  have hshift : (place m e - e).toNat = k := by omega
  rw [hshift] at hround
  generalize place m e = p at *
  have hup : (r : ℚ) * 2 ^ p ≤ m * 2 ^ e + 2 ^ (p - 1) := by
    have hround : (2 : ℚ) * r * 2 ^ k ≤ 2 * m + 2 ^ k := by exact_mod_cast hround
    have hexp : (2 : ℚ) ^ p = 2 ^ e * 2 ^ k := by rw [hk, zpow_add₀ two_ne_zero, zpow_natCast]
    have hhalf : (2 : ℚ) ^ (p - 1) = 2 ^ p / 2 := zpow_sub_one₀ two_ne_zero p
    have hpos : (0 : ℚ) < 2 ^ e := zpow_pos two_pos e
    rw [hhalf, hexp]
    nlinarith
  have hhalf : (2 : ℚ) ^ (p - 1) ≤ 2 ^ 970 := by
    rw [← zpow_natCast]
    exact zpow_le_zpow_right₀ one_le_two (by omega)
  refine ⟨place_le (Or.inl hplace) ?_, le_trans ?_ hup⟩
  · calc (r : ℚ) * 2 ^ p ≤ m * 2 ^ e + 2 ^ 970 := hup.trans (by gcongr)
      _ < limit + 2 ^ 970 := by gcongr
      _ = 2 ^ 1024 := sub_add_cancel _ _
  · obtain ⟨c, hc⟩ : ∃ c : Nat, place r p = p + c := ⟨(place r p - p).toNat, by have := le_place r p; omega⟩
    have hcarry : (place r p - p).toNat = c := by omega
    have hdiv : ((r / 2 ^ c : Nat) : ℚ) * 2 ^ c ≤ r := by exact_mod_cast Nat.div_mul_le_self r (2 ^ c)
    calc ((r / 2 ^ (place r p - p).toNat : Nat) : ℚ) * 2 ^ place r p
        = ((r / 2 ^ c : Nat) : ℚ) * 2 ^ c * 2 ^ p := by
          rw [hcarry, hc, zpow_add₀ two_ne_zero, zpow_natCast]
          ring
      _ ≤ r * 2 ^ p := by gcongr

/-- Rounding goes up by half a unit in the last place at most, and what stays below the limit stays finite. -/
theorem within_round (s : Sign) {m : Nat} {e : Int} (hform : e ≤ 971 ∨ 2 ^ 52 ≤ m)
    (hlimit : (m : ℚ) * 2 ^ e < limit) :
    Within (m * 2 ^ e + 2 ^ (place m e - 1))
      (Float.Model.pack (roundWithAccuracy .binary64 s m e .exact)).unpack := by
  have hplace := place_le hform (hlimit.trans_le (by norm_num [limit]))
  obtain ⟨hcarry, hup⟩ := carried_bounds hplace hlimit (roundedMantissa_shiftRight_le m _)
  simp only [roundWithAccuracy, shiftToTarget_eq, mantissa_shiftRight]
  split
  · rw [unpack_pack_zero]
    trivial
  · exact (within_unpack_pack s _ (min_le_place _ _) hcarry).mono hup

/-- With as many bits as a double has, half a unit in the last place is one part in `2 ^ 53` at most. -/
theorem within_round_relative (s : Sign) {m : Nat} {e : Int} (hm : 2 ^ 52 ≤ m) (he : -1074 ≤ e)
    (hlimit : (m : ℚ) * 2 ^ e < limit) :
    Within (m * 2 ^ e * (1 + 1 / 2 ^ 53))
      (Float.Model.pack (roundWithAccuracy .binary64 s m e .exact)).unpack := by
  refine (within_round s (Or.inr hm) hlimit).mono ?_
  have hne : m ≠ 0 := by omega
  have hlog : 52 ≤ m.log2 := (Nat.le_log2 hne).mpr hm
  have hplace : place m e = m.log2 + e - 52 := by
    unfold place
    omega
  have hself : (2 : ℚ) ^ m.log2 ≤ m := by exact_mod_cast Nat.log2_self_le hne
  have hhalf : (2 : ℚ) ^ (place m e - 1) ≤ m * 2 ^ e / 2 ^ 53 := by
    have hexp : place m e - 1 = (m.log2 : Int) + e - (53 : Nat) := by omega
    rw [hexp, zpow_sub₀ two_ne_zero, zpow_add₀ two_ne_zero, zpow_natCast, zpow_natCast]
    gcongr
  linarith

/-! Whole numbers, powers of ten and products -/

theorem power_lt_limit : (10 : ℚ) ^ 308 < limit := by
  have hnat : 10 ^ 308 + 2 ^ 970 < 2 ^ 1024 := by decide +kernel
  rw [limit, lt_sub_iff_add_lt]
  exact_mod_cast hnat

/-- The double of a whole number of 64 bits. -/
theorem within_ofNat {n : Nat} (hn : n < 2 ^ 64) :
    Within (n * (1 + 1 / 2 ^ 53)) (UInt64.ofNat n).toFloat.toModel.unpack := by
  have hword : (UInt64.ofNat n).toNat = n := by
    rw [UInt64.toNat_ofNat', Nat.mod_eq_of_lt hn]
  change Within _
    (Float.Model.pack (UnpackedFloat.normalize .binary64 ((UInt64.ofNat n).toNat : Int) 0 .positive)).unpack
  rw [hword]
  rcases Nat.eq_zero_or_pos n with rfl | hpos
  · trivial
  · have hcompare : compare (n : Int) 0 = .gt := by
      rw [compare_gt_iff_gt]
      exact_mod_cast hpos
    have htarget : Format.binary64.targetExponent (totalExponent n 0) = n.log2 - 52 := by
      change max ((n.log2 : Int) + 1 + 0 - (53 : Nat)) (-1074) = _
      omega
    have hshift : ((0 : Int) - (n.log2 - 52)).toNat = 52 - n.log2 := by omega
    have hbits : 2 ^ 52 ≤ n * 2 ^ (52 - n.log2) :=
      calc 2 ^ 52 ≤ 2 ^ (n.log2 + (52 - n.log2)) := Nat.pow_le_pow_right two_pos (by omega)
        _ = 2 ^ n.log2 * 2 ^ (52 - n.log2) := pow_add ..
        _ ≤ n * 2 ^ (52 - n.log2) := Nat.mul_le_mul_right _ (Nat.log2_self_le hpos.ne')
    have hvalue : ((n * 2 ^ (52 - n.log2) : Nat) : ℚ) * 2 ^ ((0 : Int) - (52 - n.log2 : Nat)) = n := by
      rw [zero_sub, zpow_neg, zpow_natCast, Nat.cast_mul, Nat.cast_pow, Nat.cast_two,
        mul_inv_cancel_right₀ (pow_ne_zero _ two_ne_zero)]
    have hlimit : (n : ℚ) < limit :=
      calc (n : ℚ) < 10 ^ 20 := by exact_mod_cast hn.trans (by decide)
        _ ≤ 10 ^ 308 := pow_le_pow_right₀ (by norm_num) (by decide)
        _ < limit := power_lt_limit
    simp only [UnpackedFloat.normalize, hcompare, Int.toNat_natCast, UnpackedFloat.round, htarget,
      decreaseExponent, hshift, Nat.shiftLeft_eq]
    have hround := within_round_relative .positive hbits (by omega) (hvalue.trans_lt hlimit)
    rwa [hvalue] at hround

/-- The small powers of ten, which come from a table, are rounded as the others are. -/
theorem toModel_ofScientific (e : Nat) :
    (Float.ofScientific 1 false e).toModel = Float.Model.ofScientific 1 e := by
  have htable : ∀ e < 23, (Float.ofScientific 1 false e).toModel = Float.Model.ofScientific 1 e := by
    decide +kernel
  by_cases he : e < 23
  · exact htable e he
  · rw [Float.ofScientific, dif_neg (by omega)]
    rfl

/-- The double of a power of ten. -/
theorem within_power {e : Nat} (he : e ≤ 308) :
    Within (10 ^ e * (1 + 1 / 2 ^ 53)) (Float.ofScientific 1 false e).toModel.unpack := by
  have hbits : 2 ^ 52 ≤ 2 ^ 53 * 10 ^ e :=
    calc 2 ^ 52 ≤ 2 ^ 53 * 1 := by decide
      _ ≤ 2 ^ 53 * 10 ^ e := Nat.mul_le_mul_left _ (Nat.one_le_pow _ _ (by decide))
  have hvalue : ((2 ^ 53 * 10 ^ e : Nat) : ℚ) * 2 ^ (-53 + 0 : Int) = 10 ^ e := by
    have hunit : (2 : ℚ) ^ (-53 + 0 : Int) = 1 / 2 ^ 53 := by norm_num
    rw [hunit]
    push_cast
    ring
  have hlimit : (10 : ℚ) ^ e < limit :=
    (pow_le_pow_right₀ (by norm_num) he).trans_lt power_lt_limit
  have hround := within_round_relative .positive hbits (by decide) (hvalue.trans_lt hlimit)
  rw [hvalue] at hround
  rw [toModel_ofScientific, Float.Model.ofScientific, UnpackedFloat.ofScientific, dif_neg one_ne_zero,
    if_neg (by norm_num; omega), if_neg (by norm_num; omega), if_pos (by omega)]
  exact hround

/-- The product of two doubles is finite where the exact product stays below the limit. -/
theorem isInf_mul_of_within {x y : Float} {p q : ℚ} (hx : Within p x.toModel.unpack)
    (hy : Within q y.toModel.unpack) (hp : 0 ≤ p) (hlimit : p * q < limit) : (x * y).isInf = false := by
  change (Float.Model.pack
    (UnpackedFloat.mul .binary64 x.toModel.unpack y.toModel.unpack)).unpack.isInf = false
  generalize x.toModel.unpack = u at hx
  generalize y.toModel.unpack = v at hy
  match u, v with
  | .finite s m e hm, .finite t n d hn =>
      obtain ⟨hx, hex, hformx⟩ := hx
      obtain ⟨hy, hey, hformy⟩ := hy
      have hform : e + d ≤ 971 ∨ 2 ^ 52 ≤ m * n := by
        rcases hformx with hmx | hex
        · rcases hformy with hny | hey
          · exact Or.inr (hmx.trans (Nat.le_mul_of_pos_right m hn))
          · exact Or.inl (by omega)
        · exact Or.inl (by omega)
      have hproduct : ((m * n : Nat) : ℚ) * 2 ^ (e + d) < limit :=
        calc ((m * n : Nat) : ℚ) * 2 ^ (e + d) = m * 2 ^ e * (n * 2 ^ d) := by
              rw [Nat.cast_mul, zpow_add₀ two_ne_zero]
              ring
          _ ≤ p * q := by gcongr
          _ < limit := hlimit
      exact (within_round _ hform hproduct).isInf
  | .zero _, .zero _ => exact congrArg UnpackedFloat.isInf (unpack_pack_zero _)
  | .zero _, .finite .. => exact congrArg UnpackedFloat.isInf (unpack_pack_zero _)
  | .finite .., .zero _ => exact congrArg UnpackedFloat.isInf (unpack_pack_zero _)

end ContentProbe.Binary64
