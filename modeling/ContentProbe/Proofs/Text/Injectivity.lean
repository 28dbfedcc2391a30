import ContentProbe.Proofs.Text.Reading
import Mathlib.Tactic.IntervalCases

/-!
Texts that tell what they were written for: decimal text its number, and hexadecimal and base 64 text their bytes.
Base 64 text is written in groups of four characters, of which only the last one can hold equals signs; their count
tells how many bytes the group stands for.
-/

namespace ContentProbe.Text

/-! Numbers -/

theorem exists_digits_natText (n : Nat) : ∃ ds, (natText n).mapM digit? = some ds ∧ ofDigits 10 ds = n := by
  obtain ⟨ds, htext, hds, hvalue, -⟩ := natText_eq n
  refine ⟨ds, ?_, hvalue⟩
  rw [htext]
  exact mapM_map_eq_some fun d hd => digit?_hexChar (hds d hd)

theorem natText_injective : Function.Injective natText := by
  intro n m heq
  obtain ⟨ds, hds, rfl⟩ := exists_digits_natText n
  obtain ⟨es, hes, rfl⟩ := exists_digits_natText m
  rw [heq, hes] at hds
  rw [Option.some.inj hds]

theorem natText_ne_minus (n : Nat) (cs : List Char) : natText n ≠ '-' :: cs := by
  intro heq
  obtain ⟨ds, hds, -⟩ := exists_digits_natText n
  rw [heq] at hds
  cases hds

theorem intText_injective : Function.Injective intText := by
  intro n m heq
  cases n with
  | ofNat n =>
      cases m with
      | ofNat m => exact congrArg Int.ofNat (natText_injective heq)
      | negSucc m => exact absurd heq (natText_ne_minus n _)
  | negSucc n =>
      cases m with
      | ofNat m => exact absurd heq.symm (natText_ne_minus m _)
      | negSucc m =>
          have htext : natText (n + 1) = natText (m + 1) := (List.cons.inj heq).2
          rw [Nat.add_right_cancel (natText_injective htext)]

/-! Hexadecimal bytes -/

theorem bytesOfHex?_byteHex (bytes : List UInt8) : bytesOfHex? (byteHex bytes) = some bytes := by
  induction bytes with
  | nil => rfl
  | cons b bytes ih =>
      have hb : b.toNat < 256 := b.toNat_lt
      have hhigh : hexDigit? (hexChar (b.toNat / 16 % 16)) = some (b.toNat / 16 % 16) :=
        hexDigit?_hexChar (Nat.mod_lt _ (by decide))
      have hlow : hexDigit? (hexChar (b.toNat % 16)) = some (b.toNat % 16) :=
        hexDigit?_hexChar (Nat.mod_lt _ (by decide))
      have hvalue : b.toNat / 16 % 16 * 16 + b.toNat % 16 = b.toNat := by omega
      change bytesOfHex? (hexChar (b.toNat / 16 % 16) :: hexChar (b.toNat % 16) :: byteHex bytes) = _
      rw [bytesOfHex?, hhigh, hlow, ih]
      simp only [Option.bind_eq_bind, Option.bind_some, hvalue, UInt8.ofNat_toNat]
      rfl

theorem byteHex_injective : Function.Injective byteHex := by
  intro bytes bytes' heq
  have hread := bytesOfHex?_byteHex bytes
  rw [heq, bytesOfHex?_byteHex] at hread
  exact (Option.some.inj hread).symm

/-! Base 64 -/

/-- The sixty-four characters are different, and none of them is the sign that fills up. -/
theorem base64Char_table :
    ∀ n < 64, ((List.range 64).map base64Char).idxOf (base64Char n) = n ∧ base64Char n ≠ '=' := by
  decide

theorem map_base64Char_inj {ds es : List Nat} (hds : ∀ d ∈ ds, d < 64) (hes : ∀ e ∈ es, e < 64)
    (heq : ds.map base64Char = es.map base64Char) : ds = es := by
  have hback {l : List Nat} (hl : ∀ d ∈ l, d < 64) :
      (l.map base64Char).map ((List.range 64).map base64Char).idxOf = l := by
    rw [List.map_map]
    exact (List.map_congr_left fun d hd => (base64Char_table d (hl d hd)).1).trans (List.map_id l)
  rw [← hback hds, heq, hback hes]

/-- The group of one byte, two or three. -/
def base64Group (bytes : List UInt8) : List Char :=
  (digitsFixed 64 (bytes.length + 1) (natOfBytes bytes * 4 ^ (3 - bytes.length))).map base64Char ++
    List.replicate (3 - bytes.length) '='

theorem base64_eq {bytes : List UInt8} (hne : bytes ≠ []) :
    base64 bytes = base64Group (bytes.take 3) ++ base64 (bytes.drop 3) := by
  match bytes with
  | [a] => simp [base64, base64Group, natOfBytes, ofDigits]
  | [a, b] => simp [base64, base64Group]
  | a :: b :: c :: rest => simp [base64, base64Group]

theorem length_base64Group {bytes : List UInt8} (hlength : bytes.length ≤ 3) : (base64Group bytes).length = 4 := by
  rw [base64Group, List.length_append, List.length_map, length_digitsFixed, List.length_replicate]
  omega

theorem count_base64Group (bytes : List UInt8) : (base64Group bytes).count '=' = 3 - bytes.length := by
  have hnone :
      '=' ∉ (digitsFixed 64 (bytes.length + 1) (natOfBytes bytes * 4 ^ (3 - bytes.length))).map base64Char := by
    intro hmem
    obtain ⟨d, hd, heq⟩ := List.mem_map.mp hmem
    exact (base64Char_table d (lt_of_mem_digitsFixed (by decide) hd)).2 heq
  rw [base64Group, List.count_append, List.count_eq_zero_of_not_mem hnone, List.count_replicate_self, Nat.zero_add]

/-- The number of a group fits into its digits. -/
theorem natOfBytes_mul_lt {bytes : List UInt8} (hlength : bytes.length ≤ 3) :
    natOfBytes bytes * 4 ^ (3 - bytes.length) < 64 ^ (bytes.length + 1) := by
  have hlt := natOfBytes_lt bytes
  generalize bytes.length = count at *
  interval_cases count <;> omega

theorem base64Group_inj {bytes bytes' : List UInt8} (hlength : bytes.length ≤ 3) (hlength' : bytes'.length ≤ 3)
    (heq : base64Group bytes = base64Group bytes') : bytes = bytes' := by
  have hcount : 3 - bytes.length = 3 - bytes'.length := by
    rw [← count_base64Group, ← count_base64Group, heq]
  have hsame : bytes.length = bytes'.length := by omega
  have hlt := natOfBytes_mul_lt hlength
  have hlt' := natOfBytes_mul_lt hlength'
  rw [base64Group, base64Group, ← hsame] at heq
  rw [← hsame] at hlt'
  have hdigits := map_base64Char_inj (fun _ => lt_of_mem_digitsFixed (by decide))
    (fun _ => lt_of_mem_digitsFixed (by decide)) (List.append_cancel_right heq)
  have hnumber := congrArg (ofDigits 64) hdigits
  rw [ofDigits_digitsFixed, ofDigits_digitsFixed, Nat.mod_eq_of_lt hlt, Nat.mod_eq_of_lt hlt'] at hnumber
  have hvalue : natOfBytes bytes = natOfBytes bytes' := Nat.eq_of_mul_eq_mul_right (Nat.pow_pos (by decide)) hnumber
  rw [← bytesOfNat_natOfBytes bytes, hvalue, hsame, bytesOfNat_natOfBytes]

theorem base64_eq_nil_iff {bytes : List UInt8} : base64 bytes = [] ↔ bytes = [] := by
  constructor
  · intro h
    by_contra hne
    have hlength := congrArg List.length h
    rw [base64_eq hne, List.length_append, length_base64Group (List.length_take_le 3 bytes)] at hlength
    simp at hlength
  · rintro rfl
    rfl

theorem base64_injective : Function.Injective base64 := by
  intro bytes bytes' heq
  -- By the number of bytes, since a group is taken off at a time.
  induction hcount : bytes.length using Nat.strongRecOn generalizing bytes bytes' with
  | _ count ih =>
    by_cases hempty : bytes = []
    · subst hempty
      exact (base64_eq_nil_iff.mp heq.symm).symm
    · have hempty' : bytes' ≠ [] := fun h => hempty (base64_eq_nil_iff.mp (heq.trans (base64_eq_nil_iff.mpr h)))
      rw [base64_eq hempty, base64_eq hempty'] at heq
      have hlength : (base64Group (bytes.take 3)).length = (base64Group (bytes'.take 3)).length := by
        rw [length_base64Group (List.length_take_le ..), length_base64Group (List.length_take_le ..)]
      obtain ⟨hgroup, hrest⟩ := List.append_inj heq hlength
      have hshorter : (bytes.drop 3).length < count := by
        have hpos := List.length_pos_iff.mpr hempty
        rw [List.length_drop]
        omega
      rw [← List.take_append_drop 3 bytes, ← List.take_append_drop 3 bytes',
        base64Group_inj (List.length_take_le ..) (List.length_take_le ..) hgroup, ih _ hshorter hrest rfl]

end ContentProbe.Text
