import ContentProbe.Proofs.Text.Digits

/-!
Reading back what was written. Digits of a fixed count denote the number modulo a power of the base, and
decimal text denotes the number itself and has no leading zero.
-/

namespace ContentProbe.Text

theorem length_digitsFixed (base count n : Nat) : (digitsFixed base count n).length = count := by
  induction count generalizing n with
  | zero => rfl
  | succ count ih => simp [digitsFixed, ih]

theorem length_hexText (count n : Nat) : (hexText count n).length = count := by
  rw [hexText, List.length_map, length_digitsFixed]

theorem lt_of_mem_digitsFixed {base : Nat} (hbase : 0 < base) {count n d : Nat}
    (hd : d ∈ digitsFixed base count n) : d < base := by
  induction count generalizing n with
  | zero => simp [digitsFixed] at hd
  | succ count ih =>
      rw [digitsFixed, List.mem_append, List.mem_singleton] at hd
      rcases hd with hd | rfl
      · exact ih hd
      · exact Nat.mod_lt n hbase

theorem ofDigits_digitsFixed (base count n : Nat) :
    ofDigits base (digitsFixed base count n) = n % base ^ count := by
  induction count generalizing n with
  | zero => simp [digitsFixed, ofDigits, Nat.mod_one]
  | succ count ih =>
      rw [digitsFixed, ofDigits_append_singleton, ih, pow_succ', Nat.mod_mul, Nat.add_comm, Nat.mul_comm base]

theorem ofDigits_append (base : Nat) (ds es : List Nat) :
    ofDigits base (ds ++ es) = ofDigits base ds * base ^ es.length + ofDigits base es := by
  induction es using List.reverseRecOn with
  | nil => simp [ofDigits]
  | append_singleton es e ih =>
      rw [← List.append_assoc, ofDigits_append_singleton, ih, ofDigits_append_singleton, List.length_append,
        List.length_singleton, pow_succ, Nat.add_mul, Nat.mul_assoc, Nat.add_assoc]

theorem ofDigits_cons (base d : Nat) (ds : List Nat) :
    ofDigits base (d :: ds) = d * base ^ ds.length + ofDigits base ds := by
  simpa [ofDigits] using ofDigits_append base [d] ds

/-! Characters of digits -/

theorem hexDigit?_hexChar {d : Nat} (hd : d < 16) : hexDigit? (hexChar d) = some d := by
  have hall : ∀ d < 16, hexDigit? (hexChar d) = some d := by decide
  exact hall d hd

theorem digit?_hexChar {d : Nat} (hd : d < 10) : digit? (hexChar d) = some d := by
  have hall : ∀ d < 10, digit? (hexChar d) = some d := by decide
  exact hall d hd

theorem digitChar_eq_hexChar {d : Nat} (hd : d < 10) : Nat.digitChar d = hexChar d := by
  have hall : ∀ d < 10, Nat.digitChar d = hexChar d := by decide
  exact hall d hd

/-- A reader that reads each item as it was written reads the whole list. -/
theorem mapM_map_eq_some {α β : Type} {write : α → β} {read : β → Option α} {as : List α}
    (hread : ∀ a ∈ as, read (write a) = some a) : (as.map write).mapM read = some as := by
  induction as with
  | nil => rfl
  | cons a as ih =>
      have hrest := ih fun b hb => hread b (List.mem_cons_of_mem a hb)
      rw [List.map_cons, List.mapM_cons, hread a List.mem_cons_self, hrest]
      rfl

/-! Decimal text -/

/-- The digits of a number, the most significant first; zero has one digit. -/
theorem natText_eq (n : Nat) : ∃ ds : List Nat, natText n = ds.map hexChar ∧ (∀ d ∈ ds, d < 10) ∧
    ofDigits 10 ds = n ∧ ds ≠ [] ∧ (ds.head? = some 0 → n = 0 ∧ ds = [0]) := by
  induction n using Nat.strongRecOn with
  | _ n ih =>
    by_cases hn : n < 10
    · refine ⟨[n], ?_, by simpa using hn, by simp [ofDigits], by simp, by simp⟩
      rw [natText, Nat.toDigits_of_lt_base hn, digitChar_eq_hexChar hn, List.map_singleton]
    · obtain ⟨ds, htext, hds, hvalue, hne, hzero⟩ := ih (n / 10) (by omega)
      have hlast : n % 10 < 10 := Nat.mod_lt n (by omega)
      refine ⟨ds ++ [n % 10], ?_, ?_, ?_, by simp, fun hhead => ?_⟩
      · rw [natText, Nat.toDigits_of_base_le (by omega) (by omega), digitChar_eq_hexChar hlast,
          List.map_append, ← htext]
        rfl
      · intro d hd
        rcases List.mem_append.mp hd with hd | hd
        · exact hds d hd
        · exact (List.mem_singleton.mp hd).symm ▸ hlast
      · rw [ofDigits_append_singleton, hvalue]
        omega
      · rw [List.head?_append, List.head?_eq_some_head hne, Option.some_or, ← List.head?_eq_some_head hne]
          at hhead
        have hquotient := (hzero hhead).1
        omega

end ContentProbe.Text
