import ContentProbe.Collector.Basic
import ContentProbe.Collector.CallTimeout
import ContentProbe.Proofs.Text.Denotation

/-!
The time that a call grants, as its header writes it: one to eight digits and a letter for the unit. The reader
of numbers also lets a plus sign stand in the place of the first digit; nothing else is read. What is read is the
amount in its unit and lies far inside the range of a length of time. A call whose header is not read waits as
long as the collector lets it.
-/

namespace ContentProbe.CallTimeout

open ContentProbe.Text ContentProbe.Time

/-- The letters of the units: hours, minutes, seconds, and the thousandths, millionths and billionths of
seconds. -/
def units : List (Char × Nat) :=
  [('H', 3600 * second), ('M', 60 * second), ('S', second), ('m', 10 ^ 6), ('u', 10 ^ 3), ('n', 1)]

/-- One digit or more, at most so many, and the letter of a unit: the time is the amount of the unit. -/
def Grants (most : Nat) (cs : List Char) (time : Nat) : Prop :=
  ∃ digits letter amount unit, cs = digits ++ [letter] ∧ digits ≠ [] ∧ digits.length ≤ most ∧
    Denotes 10 digits amount ∧ (letter, unit) ∈ units ∧ time = amount * unit

/-- The header of a time: at most eight digits and a unit, or a plus sign before at most seven digits. -/
def HeaderOf (text : String) (time : Nat) : Prop :=
  Grants 8 text.toList time ∨ ∃ rest, text.toList = '+' :: rest ∧ Grants 7 rest time

theorem unit?_eq_some_iff {letter : Char} {unit : Nat} : unit? letter = some unit ↔ (letter, unit) ∈ units := by
  constructor
  · intro h
    unfold unit? at h
    split at h
    case h_7 => cases h
    all_goals
      obtain rfl := Option.some.inj h
      decide
  · intro h
    simp only [units, List.mem_cons, Prod.mk.injEq, List.not_mem_nil, or_false] at h
    obtain ⟨rfl, rfl⟩ | ⟨rfl, rfl⟩ | ⟨rfl, rfl⟩ | ⟨rfl, rfl⟩ | ⟨rfl, rfl⟩ | ⟨rfl, rfl⟩ := h <;> rfl

/-- A header with a letter at its end is read in two parts. -/
theorem read?_of_toList {text : String} {digits : List Char} {letter : Char}
    (htext : text.toList = digits ++ [letter]) :
    read? text =
      if digits.length < 1 ∨ 8 < digits.length then none
      else (readNat? (Nat.pow 2 64) digits).bind fun amount => (unit? letter).map (amount * ·) := by
  have hbounds : (decide (digits.length + 1 < 2) || decide (9 < digits.length + 1)) = true ↔
      digits.length < 1 ∨ 8 < digits.length := by
    rw [Bool.or_eq_true, decide_eq_true_iff, decide_eq_true_iff]
    omega
  simp only [read?, htext, List.length_append, List.length_singleton, List.dropLast_concat,
    List.getLast?_concat, Option.bind_some, hbounds]
  split_ifs with hlength
  · rfl
  · cases readNat? (Nat.pow 2 64) digits with
    | none => rfl
    | some amount => cases unit? letter <;> rfl

/-- Numbers of eight digits are far below the bound of the reader. -/
theorem readNat?_of_short {digits : List Char} (hlength : digits.length ≤ 8) {amount : Nat} :
    readNat? (Nat.pow 2 64) digits = some amount ↔ unsigned digits ≠ [] ∧ Denotes 10 (unsigned digits) amount := by
  rw [readNat?_eq_some_iff, and_iff_right_iff_imp]
  rintro ⟨-, hdenotes⟩
  have hshort : (unsigned digits).length ≤ 8 := (length_unsigned_le digits).trans hlength
  calc amount < 10 ^ (unsigned digits).length := hdenotes.lt
    _ ≤ 10 ^ 8 := Nat.pow_le_pow_right (by decide) hshort
    _ ≤ Nat.pow 2 64 := by decide

theorem read?_of_parts {text : String} {digits : List Char} {letter : Char} {amount unit : Nat}
    (htext : text.toList = digits ++ [letter]) (hlength : digits.length ≤ 8)
    (hdigits : unsigned digits ≠ [] ∧ Denotes 10 (unsigned digits) amount) (hunit : (letter, unit) ∈ units) :
    read? text = some (amount * unit) := by
  have hpos : 0 < digits.length :=
    Nat.lt_of_lt_of_le (List.length_pos_of_ne_nil hdigits.1) (length_unsigned_le digits)
  rw [read?_of_toList htext, if_neg (by omega), (readNat?_of_short hlength).mpr hdigits, Option.bind_some,
    unit?_eq_some_iff.mpr hunit, Option.map_some]

/-- The headers that are read are those of times. -/
theorem read?_eq_some_iff {text : String} {time : Nat} : read? text = some time ↔ HeaderOf text time := by
  constructor
  · intro h
    obtain hnil | ⟨digits, letter, htext⟩ := text.toList.eq_nil_or_concat'
    · simp [read?, hnil] at h
    · rw [read?_of_toList htext] at h
      split_ifs at h with hlength
      obtain ⟨amount, hamount, hrest⟩ := Option.bind_eq_some_iff.mp h
      obtain ⟨unit, hunit, rfl⟩ := Option.map_eq_some_iff.mp hrest
      have hshort : digits.length ≤ 8 := by omega
      have hlisted := unit?_eq_some_iff.mp hunit
      obtain ⟨hne, hdenotes⟩ | ⟨rest, rfl, hne, hdenotes⟩ :=
        unsigned_denotes_iff.mp ((readNat?_of_short hshort).mp hamount)
      · exact Or.inl ⟨digits, letter, amount, unit, htext, hne, hshort, hdenotes, hlisted, rfl⟩
      · exact Or.inr ⟨rest ++ [letter], htext, rest, letter, amount, unit, rfl, hne,
          Nat.le_of_succ_le_succ hshort, hdenotes, hlisted, rfl⟩
  · rintro (⟨digits, letter, amount, unit, htext, hne, hshort, hdenotes, hunit, rfl⟩ |
      ⟨rest, hplus, digits, letter, amount, unit, rfl, hne, hshort, hdenotes, hunit, rfl⟩)
    · exact read?_of_parts htext hshort (unsigned_denotes_iff.mpr (Or.inl ⟨hne, hdenotes⟩)) hunit
    · have htext : text.toList = ('+' :: digits) ++ [letter] := hplus
      exact read?_of_parts htext (Nat.succ_le_succ hshort) ⟨hne, hdenotes⟩ hunit

/-- The amount of seconds of a time, of whatever unit, fits into 64 bits. -/
theorem Grants.lt {most : Nat} (hmost : most ≤ 8) {cs : List Char} {time : Nat} (h : Grants most cs time) :
    time < 2 ^ 64 * second := by
  obtain ⟨digits, letter, amount, unit, -, -, hlength, hdenotes, hunit, rfl⟩ := h
  have hamount : amount < 10 ^ 8 :=
    Nat.lt_of_lt_of_le hdenotes.lt (Nat.pow_le_pow_right (by decide) (hlength.trans hmost))
  have hall : ∀ p ∈ units, p.2 ≤ 3600 * second := by decide
  calc amount * unit ≤ 10 ^ 8 * (3600 * second) := Nat.mul_le_mul hamount.le (hall _ hunit)
    _ < 2 ^ 64 * second := by decide

theorem HeaderOf.lt {text : String} {time : Nat} (h : HeaderOf text time) : time < 2 ^ 64 * second := by
  obtain h | ⟨rest, -, h⟩ := h
  · exact h.lt (Nat.le_refl 8)
  · exact h.lt (by decide)

/-- A header is read as the time that it writes, which is never too long to be told, and as nothing if it writes
none. Accordingly a call waits for the time that it grants, if that is shorter than the limit of the collector,
and for that limit if its header is not read. -/
theorem call_times_read (text : String) :
    (∀ time, read? text = some time ↔ HeaderOf text time) ∧
    (∀ time ∈ read? text, time < 2 ^ 64 * second) ∧
    ∀ (c : Collector) (batch : Wire.Batch), ∃ limit,
      (c.arrive batch (read? text)).arrived = c.arrived ++ [⟨c.calls, batch, limit⟩] ∧
      ((∃ time, HeaderOf text time ∧ limit = min time c.sendLimit) ∨
        (∀ time, ¬HeaderOf text time) ∧ limit = c.sendLimit) := by
  refine ⟨fun time => read?_eq_some_iff, fun time htime => ?_, fun c batch => ?_⟩
  · exact (read?_eq_some_iff.mp htime).lt
  · cases hread : read? text with
    | none =>
        have hnone (time : Nat) : ¬HeaderOf text time := by
          rw [← read?_eq_some_iff, hread]
          exact fun h => by cases h
        exact ⟨c.sendLimit, rfl, Or.inr ⟨hnone, rfl⟩⟩
    | some time => exact ⟨min time c.sendLimit, rfl, Or.inl ⟨time, read?_eq_some_iff.mp hread, rfl⟩⟩

/-- The longest time of a header. -/
theorem longest_time_read :
    HeaderOf "99999999H" (99999999 * (3600 * second)) ∧ 99999999 * (3600 * second) < 2 ^ 64 * second := by
  obtain ⟨hheader, hlt, -⟩ := call_times_read "99999999H"
  have hread : read? "99999999H" = some (99999999 * (3600 * second)) := by decide
  exact ⟨(hheader _).mp hread, hlt _ hread⟩

/-- Digits and a unit are not all that is read: a plus sign may stand before them. -/
theorem signed_time_read : ¬∀ text time, read? text = some time ↔ Grants 8 text.toList time := by
  intro h
  have hread : read? "+5m" = some (5 * millisecond) := by decide
  obtain ⟨digits, letter, amount, unit, htext, -, -, hdenotes, -⟩ := (h _ _).mp hread
  have hparts : ['+', '5'] ++ ['m'] = digits ++ [letter] := htext
  obtain ⟨rfl, -⟩ := List.append_inj' hparts rfl
  exact not_denotes_plus 10 _ _ hdenotes

end ContentProbe.CallTimeout
