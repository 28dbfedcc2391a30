import ContentProbe.Text.Bytes
import Mathlib.Algebra.Order.Ring.Nat
import Mathlib.Data.List.Induction
import Mathlib.Tactic.NormNum

/-!
Digits of a fixed count and the number that they denote determine each other.
-/

namespace ContentProbe.Text

theorem ofDigits_append_singleton (base : Nat) (ds : List Nat) (d : Nat) :
    ofDigits base (ds ++ [d]) = ofDigits base ds * base + d := by
  simp [ofDigits, List.foldl_append]

theorem ofDigits_lt {base : Nat} {ds : List Nat} (hds : ∀ d ∈ ds, d < base) :
    ofDigits base ds < base ^ ds.length := by
  induction ds using List.reverseRecOn with
  | nil => simp [ofDigits]
  | append_singleton ds d ih =>
      have hd : d < base := hds d (by simp)
      have hrest : ofDigits base ds + 1 ≤ base ^ ds.length := ih fun x hx => hds x (by simp [hx])
      rw [ofDigits_append_singleton, List.length_append, List.length_singleton, pow_succ]
      calc ofDigits base ds * base + d
          < (ofDigits base ds + 1) * base := by rw [Nat.add_mul, Nat.one_mul]; omega
        _ ≤ base ^ ds.length * base := Nat.mul_le_mul_right base hrest

/-- Writing the number that digits denote, with as many digits, gives the digits again. -/
theorem digitsFixed_ofDigits {base : Nat} {ds : List Nat} (hds : ∀ d ∈ ds, d < base) :
    digitsFixed base ds.length (ofDigits base ds) = ds := by
  induction ds using List.reverseRecOn with
  | nil => rfl
  | append_singleton ds d ih =>
      have hd : d < base := hds d (by simp)
      have hpos : 0 < base := Nat.zero_lt_of_lt hd
      have hquotient : (ofDigits base ds * base + d) / base = ofDigits base ds := by
        rw [Nat.add_comm, Nat.add_mul_div_right _ _ hpos, Nat.div_eq_of_lt hd, Nat.zero_add]
      have hremainder : (ofDigits base ds * base + d) % base = d := by
        rw [Nat.add_comm, Nat.add_mul_mod_self_right, Nat.mod_eq_of_lt hd]
      rw [ofDigits_append_singleton, List.length_append, List.length_singleton, digitsFixed, hquotient,
        hremainder, ih fun x hx => hds x (by simp [hx])]

/-- Digits denote zero if they all are. -/
theorem ofDigits_eq_zero_iff {base : Nat} (hbase : 0 < base) {ds : List Nat} :
    ofDigits base ds = 0 ↔ ∀ d ∈ ds, d = 0 := by
  induction ds using List.reverseRecOn with
  | nil => simp [ofDigits]
  | append_singleton ds d ih =>
      rw [ofDigits_append_singleton, Nat.add_eq_zero_iff, Nat.mul_eq_zero, ih]
      simp [hbase.ne', or_imp, forall_and]

theorem lt_of_mem_map_toNat (bytes : List UInt8) : ∀ d ∈ bytes.map UInt8.toNat, d < 256 := by
  intro d hd
  obtain ⟨b, -, rfl⟩ := List.mem_map.mp hd
  exact b.toNat_lt

theorem natOfBytes_lt (bytes : List UInt8) : natOfBytes bytes < 256 ^ bytes.length := by
  simpa [natOfBytes] using ofDigits_lt (lt_of_mem_map_toNat bytes)

theorem natOfBytes_eq_zero_iff {bytes : List UInt8} : natOfBytes bytes = 0 ↔ ∀ b ∈ bytes, b = 0 := by
  rw [natOfBytes, ofDigits_eq_zero_iff (by norm_num), List.forall_mem_map]
  refine forall₂_congr fun b _ => ?_
  rw [← UInt8.toNat_inj, UInt8.toNat_zero]

theorem bytesOfNat_natOfBytes (bytes : List UInt8) :
    bytesOfNat bytes.length (natOfBytes bytes) = bytes := by
  have hdigits := digitsFixed_ofDigits (lt_of_mem_map_toNat bytes)
  rw [List.length_map] at hdigits
  rw [bytesOfNat, natOfBytes, hdigits]
  simp [Function.comp_def]

end ContentProbe.Text
