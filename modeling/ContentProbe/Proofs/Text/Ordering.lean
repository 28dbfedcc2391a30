import ContentProbe.Text.Bytes
import Mathlib.Data.String.Basic

/-!
The order of texts is the order of their UTF-8 bytes. The bytes of a character come in the order of its number:
the first one counts how many follow, and more follow where the number is higher; with the same count, the
bytes are the digits of the number, the most significant first. So the first characters in which two texts
differ also have the first bytes in which they differ.
-/

namespace ContentProbe.Text

theorem toList_loop_eq (bytes : ByteArray) (i : Nat) (read : List UInt8) :
    ByteArray.toList.loop bytes i read = read.reverse ++ bytes.data.toList.drop i := by
  fun_induction ByteArray.toList.loop bytes i read with
  | case1 i read hi ih =>
      have hlt : i < bytes.data.toList.length := by simpa using hi
      rw [ih, List.drop_eq_getElem_cons hlt]
      simp [ByteArray.get!, hi]
  | case2 i read hi =>
      rw [List.drop_eq_nil_of_le (by simpa using hi), List.append_nil]

/-- The bytes of a text are those of its characters. -/
theorem utf8Bytes_ofList (cs : List Char) :
    utf8Bytes (String.ofList cs) = cs.flatMap String.utf8EncodeChar := by
  rw [utf8Bytes, String.toUTF8_eq_toByteArray, String.toByteArray_ofList, List.utf8Encode, ByteArray.toList,
    toList_loop_eq, List.toList_data_toByteArray]
  rfl

theorem ofNat_cons_lt_iff {m n : Nat} (hm : m < 256) (hn : n < 256) (xs ys : List UInt8) :
    UInt8.ofNat m :: xs < UInt8.ofNat n :: ys ↔ m < n ∨ m = n ∧ xs < ys := by
  rw [List.cons_lt_cons_iff, UInt8.lt_iff_toNat_lt, ← UInt8.toNat_inj, UInt8.toNat_ofNat_of_lt' hm,
    UInt8.toNat_ofNat_of_lt' hn]

theorem toNat_val_lt (c : Char) : c.val.toNat < 0x110000 := by
  have hvalid := c.valid
  simp only [UInt32.isValidChar, Nat.isValidChar] at hvalid
  omega

/-- Of two numbers the lower one has the lower quotient, or the same quotient and the lower remainder. -/
theorem div_lt_or_mod_lt {m n : Nat} (h : m < n) (base : Nat) :
    m / base < n / base ∨ m / base = n / base ∧ m % base < n % base := by
  rcases (Nat.div_le_div_right (c := base) h.le).lt_or_eq with hlt | heq
  · exact Or.inl hlt
  · refine Or.inr ⟨heq, ?_⟩
    have hm := Nat.div_add_mod m base
    have hn := Nat.div_add_mod n base
    rw [heq] at hm
    omega

/-- The bytes of the lower character come first, whatever comes after either. -/
theorem utf8EncodeChar_append_lt {c d : Char} (h : c < d) (xs ys : List UInt8) :
    String.utf8EncodeChar c ++ xs < String.utf8EncodeChar d ++ ys := by
  have hlt : c.val.toNat < d.val.toNat := UInt32.lt_iff_toNat_lt.mp h
  have hbound := toNat_val_lt d
  unfold String.utf8EncodeChar
  generalize c.val.toNat = m at *
  generalize d.val.toNat = n at *
  -- The bytes after the first are digits to the base 64; which one differs first decides.
  have hlast := div_lt_or_mod_lt hlt 64
  have hthird (h : m / 64 < n / 64) := div_lt_or_mod_lt h 64
  have hsecond (h : m / 64 / 64 < n / 64 / 64) := div_lt_or_mod_lt h 64
  have hquotients (k : Nat) : k / 4096 = k / 64 / 64 ∧ k / 262144 = k / 64 / 64 / 64 :=
    ⟨(Nat.div_div_eq_div_mul k 64 64).symm, by rw [Nat.div_div_eq_div_mul, Nat.div_div_eq_div_mul]⟩
  simp only [(hquotients m).1, (hquotients m).2, (hquotients n).1, (hquotients n).2]
  -- Of the pairs of sizes, those that would give the lower number more bytes contradict the order.
  split_ifs <;> simp only [List.cons_append, List.nil_append] <;>
    simp (disch := omega) only [ofNat_cons_lt_iff] <;> omega

theorem flatMap_utf8EncodeChar_lt {cs ds : List Char} (h : cs < ds) :
    cs.flatMap String.utf8EncodeChar < ds.flatMap String.utf8EncodeChar := by
  induction h with
  | nil =>
      rename_i d ds
      obtain ⟨b, bytes, hbytes⟩ := List.exists_cons_of_ne_nil (String.utf8EncodeChar_ne_nil (c := d))
      rw [List.flatMap_nil, List.flatMap_cons, hbytes]
      exact List.nil_lt_cons ..
  | rel hlt =>
      rw [List.flatMap_cons, List.flatMap_cons]
      exact utf8EncodeChar_append_lt hlt _ _
  | cons _ ih =>
      rw [List.flatMap_cons, List.flatMap_cons]
      exact List.append_left_lt ih

/-- A text comes before another exactly if its bytes do. -/
theorem utf8Bytes_lt_iff {s t : String} : utf8Bytes s < utf8Bytes t ↔ s < t := by
  have hmono {s t : String} (h : s < t) : utf8Bytes s < utf8Bytes t := by
    rw [← String.ofList_toList (s := s), ← String.ofList_toList (s := t), utf8Bytes_ofList, utf8Bytes_ofList]
    exact flatMap_utf8EncodeChar_lt (String.lt_iff.mp h)
  refine ⟨fun h => ?_, hmono⟩
  rcases lt_trichotomy s t with hlt | rfl | hgt
  · exact hlt
  · exact absurd h (List.lt_irrefl _)
  · exact absurd h (List.lt_asymm (hmono hgt))

theorem utf8Bytes_le_iff {s t : String} : utf8Bytes s ≤ utf8Bytes t ↔ s ≤ t := by
  rw [← List.not_lt, ← not_lt, utf8Bytes_lt_iff]

end ContentProbe.Text
