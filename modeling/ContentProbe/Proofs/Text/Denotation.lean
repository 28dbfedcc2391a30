import ContentProbe.Proofs.Text.Reading
import Mathlib.Data.List.Forall2
import Mathlib.Data.Nat.Digits.Defs

/-!
What digits denote, said without their readers: a digit is one of sixteen characters, in either case, and a
numeral is the sum of its digits times powers of the base. The readers of digits accept these characters and
no others.
-/

namespace ContentProbe.Text

def lowerDigits : List Char :=
  ['0', '1', '2', '3', '4', '5', '6', '7', '8', '9', 'a', 'b', 'c', 'd', 'e', 'f']

def upperDigits : List Char :=
  ['0', '1', '2', '3', '4', '5', '6', '7', '8', '9', 'A', 'B', 'C', 'D', 'E', 'F']

/-- The character is a digit to a base. -/
def DigitOf (base : Nat) (c : Char) (d : Nat) : Prop :=
  d < base ∧ (lowerDigits[d]? = some c ∨ upperDigits[d]? = some c)

/-- The characters are the digits of a number to a base, the most significant first. -/
def Denotes (base : Nat) (cs : List Char) (n : Nat) : Prop :=
  ∃ ds, List.Forall₂ (DigitOf base) cs ds ∧ Nat.ofDigits base ds.reverse = n

/-! Digits -/

/-- A character of a range is a fixed distance from the first one. -/
theorem eq_ofNat_of_range {a b c : Char} (h : a ≤ c ∧ c ≤ b) :
    c.toNat - a.toNat ≤ b.toNat - a.toNat ∧ c = Char.ofNat (a.toNat + (c.toNat - a.toNat)) := by
  have hlow : a.toNat ≤ c.toNat := h.1
  have hhigh : c.toNat ≤ b.toNat := h.2
  refine ⟨by omega, ?_⟩
  rw [Nat.add_sub_cancel' hlow, Char.ofNat_toNat]

/-- The characters of a range are digits if a table lists them in order, from a place on. -/
theorem digitOf_of_range {base place : Nat} {a b c : Char} (h : a ≤ c ∧ c ≤ b)
    (hbase : place + (b.toNat - a.toNat) < base)
    (htable : (∀ i ≤ b.toNat - a.toNat, lowerDigits[place + i]? = some (Char.ofNat (a.toNat + i))) ∨
      ∀ i ≤ b.toNat - a.toNat, upperDigits[place + i]? = some (Char.ofNat (a.toNat + i))) :
    DigitOf base c (place + (c.toNat - a.toNat)) := by
  obtain ⟨hle, hc⟩ := eq_ofNat_of_range h
  have hlisted := htable.imp (fun hall => hall _ hle) (fun hall => hall _ hle)
  rw [← hc] at hlisted
  exact ⟨by omega, hlisted⟩

/-- A reader that knows the tables knows the digits. -/
theorem eq_some_of_digitOf {base : Nat} {read : Char → Option Nat}
    (hlower : ∀ d < base, (lowerDigits[d]?).bind read = some d)
    (hupper : ∀ d < base, (upperDigits[d]?).bind read = some d)
    {c : Char} {d : Nat} (h : DigitOf base c d) : read c = some d := by
  obtain ⟨hlt, hc | hc⟩ := h
  · rw [← hlower d hlt, hc, Option.bind_some]
  · rw [← hupper d hlt, hc, Option.bind_some]

theorem digit?_eq_some_iff {c : Char} {d : Nat} : digit? c = some d ↔ DigitOf 10 c d := by
  constructor
  · intro h
    obtain ⟨hc, hd⟩ := Option.ite_none_right_eq_some.mp h
    obtain rfl := Option.some.inj hd
    have hdigit : DigitOf 10 c (0 + (c.toNat - '0'.toNat)) :=
      digitOf_of_range hc (by decide) (Or.inl (by decide))
    rwa [Nat.zero_add] at hdigit
  · exact eq_some_of_digitOf (by decide) (by decide)

theorem hexDigit?_eq_some_iff {c : Char} {d : Nat} : hexDigit? c = some d ↔ DigitOf 16 c d := by
  constructor
  · intro h
    unfold hexDigit? at h
    split_ifs at h with hdecimal hlower hupper <;> obtain rfl := Option.some.inj h
    · have hdigit : DigitOf 16 c (0 + (c.toNat - '0'.toNat)) :=
        digitOf_of_range hdecimal (by decide) (Or.inl (by decide))
      rwa [Nat.zero_add] at hdigit
    · rw [Nat.add_comm]
      exact digitOf_of_range hlower (by decide) (Or.inl (by decide))
    · rw [Nat.add_comm]
      exact digitOf_of_range hupper (by decide) (Or.inr (by decide))
  · exact eq_some_of_digitOf (by decide) (by decide)

theorem not_digitOf_plus (base d : Nat) : ¬DigitOf base '+' d := by
  rintro ⟨-, hc | hc⟩
  · exact absurd (List.mem_of_getElem? hc) (by decide)
  · exact absurd (List.mem_of_getElem? hc) (by decide)

/-! Numerals -/

theorem ofDigits_eq_ofDigits_reverse (base : Nat) (ds : List Nat) :
    ofDigits base ds = Nat.ofDigits base ds.reverse := by
  induction ds using List.reverseRecOn with
  | nil => rfl
  | append_singleton ds d ih =>
      rw [ofDigits_append_singleton, ih, List.reverse_append, List.reverse_singleton, List.singleton_append,
        Nat.ofDigits_cons, Nat.mul_comm, Nat.add_comm]

theorem mapM_eq_some_iff {α β : Type} {read : α → Option β} {as : List α} {bs : List β} :
    as.mapM read = some bs ↔ List.Forall₂ (fun a b => read a = some b) as bs := by
  induction as generalizing bs with
  | nil => cases bs <;> simp
  | cons a as ih =>
      simp only [List.mapM_cons, Option.bind_eq_bind, Option.pure_def, Option.bind_eq_some_iff,
        Option.some.injEq, ih, List.forall₂_cons_left_iff]
      constructor
      · rintro ⟨b, hb, rest, hrest, rfl⟩
        exact ⟨b, rest, hb, hrest, rfl⟩
      · rintro ⟨b, rest, hb, hrest, rfl⟩
        exact ⟨b, hb, rest, hrest, rfl⟩

/-- A reader that knows the digits reads what they denote. -/
theorem map_ofDigits_eq_some_iff {base : Nat} {read : Char → Option Nat}
    (hread : ∀ c d, read c = some d ↔ DigitOf base c d) {cs : List Char} {n : Nat} :
    (cs.mapM read).map (ofDigits base) = some n ↔ Denotes base cs n := by
  simp only [Option.map_eq_some_iff, mapM_eq_some_iff, hread, ofDigits_eq_ofDigits_reverse]
  rfl

/-- The reader may ask for one digit at least. -/
theorem readWith_eq_some_iff {base : Nat} {read : Char → Option Nat}
    (hread : ∀ c d, read c = some d ↔ DigitOf base c d) {cs : List Char} {n : Nat} :
    (if cs.isEmpty then none else (cs.mapM read).map (ofDigits base)) = some n ↔
      cs ≠ [] ∧ Denotes base cs n := by
  rw [Option.ite_none_left_eq_some, map_ofDigits_eq_some_iff hread, List.isEmpty_iff]

theorem lt_of_mem_of_digits {base : Nat} {cs : List Char} {ds : List Nat}
    (h : List.Forall₂ (DigitOf base) cs ds) : ∀ d ∈ ds, d < base := by
  induction h with
  | nil => simp
  | cons hc _ ih => exact List.forall_mem_cons.mpr ⟨hc.1, ih⟩

/-- The digits that are written for a number denote it. -/
theorem denotes_hexText {count n : Nat} (h : n < 16 ^ count) : Denotes 16 (hexText count n) n := by
  have hdigit : ∀ d ∈ digitsFixed 16 count n, DigitOf 16 (hexChar d) d := fun d hd =>
    hexDigit?_eq_some_iff.mp (hexDigit?_hexChar (lt_of_mem_digitsFixed (by decide) hd))
  refine ⟨digitsFixed 16 count n, List.forall₂_map_left_iff.mpr (List.forall₂_same.mpr hdigit), ?_⟩
  rw [← ofDigits_eq_ofDigits_reverse, ofDigits_digitsFixed, Nat.mod_eq_of_lt h]

/-- Digits denote a number below the power of the base that their count tells. -/
theorem Denotes.lt {base : Nat} {cs : List Char} {n : Nat} (h : Denotes base cs n) : n < base ^ cs.length := by
  obtain ⟨ds, hds, rfl⟩ := h
  rw [← ofDigits_eq_ofDigits_reverse, hds.length_eq]
  exact ofDigits_lt (lt_of_mem_of_digits hds)

theorem not_denotes_plus (base : Nat) (cs : List Char) (n : Nat) : ¬Denotes base ('+' :: cs) n := by
  rintro ⟨ds, hds, -⟩
  obtain ⟨d, -, hplus, -⟩ := List.forall₂_cons_left_iff.mp hds
  exact not_digitOf_plus base d hplus

/-- The characters without a plus sign before them. -/
def unsigned (cs : List Char) : List Char :=
  match cs with
  | '+' :: rest => rest
  | _ => cs

theorem length_unsigned_le (cs : List Char) : (unsigned cs).length ≤ cs.length := by
  unfold unsigned
  split
  · exact Nat.le_succ _
  · exact Nat.le_refl _

/-- One plus sign may stand before digits. -/
theorem unsigned_denotes_iff {base : Nat} {cs : List Char} {n : Nat} :
    unsigned cs ≠ [] ∧ Denotes base (unsigned cs) n ↔
      cs ≠ [] ∧ Denotes base cs n ∨ ∃ rest, cs = '+' :: rest ∧ rest ≠ [] ∧ Denotes base rest n := by
  unfold unsigned
  split
  next rest =>
    constructor
    · exact fun h => Or.inr ⟨rest, rfl, h⟩
    · rintro (⟨-, h⟩ | ⟨rest', heq, h⟩)
      · exact absurd h (not_denotes_plus base rest n)
      · obtain rfl := (List.cons.inj heq).2
        exact h
  next hplus =>
    constructor
    · exact Or.inl
    · rintro (h | ⟨rest, rfl, -⟩)
      · exact h
      · exact absurd rfl (hplus rest)

theorem readNat?_eq_some_iff {bound : Nat} {cs : List Char} {n : Nat} :
    readNat? bound cs = some n ↔ n < bound ∧ unsigned cs ≠ [] ∧ Denotes 10 (unsigned cs) n := by
  have hread : readNat? bound cs = (readDigits? (unsigned cs)).filter (· < bound) := rfl
  rw [hread, Option.filter_eq_some_iff, readDigits?, readWith_eq_some_iff fun _ _ => digit?_eq_some_iff,
    decide_eq_true_iff, and_comm]

end ContentProbe.Text
