import ContentProbe.Time.Calendar
import Mathlib.Tactic.Linarith

/-!
The calendar loses no day: the date of a day is valid and leads back to the day. The estimate of the year is
off by one at most since the start of a year lies within two days of its place in a calendar of years of mean
length, and the months of a year fill it.
-/

namespace ContentProbe.Time

/-- The start of a year beside that of a year of mean length, in days over 400. -/
theorem yearStart_bounds (year : Int) :
    146097 * year - 396 ≤ 400 * yearStart year ∧ 400 * yearStart year ≤ 146097 * year + 699 := by
  unfold yearStart
  omega

/-- The days of a year lie between the starts of it and of the next. -/
theorem yearOf_bounds (day : Int) : yearStart (yearOf day) ≤ day ∧ day < yearStart (yearOf day + 1) := by
  have hguess : 146097 * (day * 400 / 146097) ≤ 400 * day ∧
      400 * day < 146097 * (day * 400 / 146097 + 1) := by
    omega
  rw [yearOf]
  generalize day * 400 / 146097 = guess at hguess
  have hbefore := yearStart_bounds (guess - 1)
  have hafter := yearStart_bounds (guess + 1 + 1)
  split
  · rw [sub_add_cancel]
    exact ⟨by omega, ‹_›⟩
  · split
    · exact ⟨‹_›, by omega⟩
    · exact ⟨by omega, by omega⟩

theorem yearStart_succ (year : Int) :
    yearStart (year + 1) = yearStart year + if isLeap year then 366 else 365 := by
  have hleap : isLeap year = true ↔ year % 4 = 0 ∧ (year % 100 ≠ 0 ∨ year % 400 = 0) := by
    simp [isLeap]
  unfold yearStart
  split
  · have := hleap.mp ‹_›
    omega
  · have := hleap.not.mp ‹_›
    omega

theorem sum_monthLengths (year : Int) :
    ((monthLengths year).foldr (· + ·) 0 : Nat) = if isLeap year then 366 else 365 := by
  unfold monthLengths
  cases isLeap year <;> rfl

/-- A day within given months lies in one of them, after the days of the months before it. -/
theorem splitMonth_spec {lengths : List Nat} {n : Nat} (hn : n < lengths.foldr (· + ·) 0) :
    1 ≤ (splitMonth lengths n).1 ∧ (splitMonth lengths n).1 ≤ lengths.length ∧
      1 ≤ (splitMonth lengths n).2 ∧
      (splitMonth lengths n).2 ≤ lengths.getD ((splitMonth lengths n).1 - 1) 0 ∧
      (lengths.take ((splitMonth lengths n).1 - 1)).foldr (· + ·) 0 + (splitMonth lengths n).2 = n + 1 := by
  induction lengths generalizing n with
  | nil => exact absurd hn (Nat.not_lt_zero n)
  | cons length rest ih =>
      rw [List.foldr_cons] at hn
      rw [splitMonth]
      split
      · exact ⟨le_refl 1, Nat.succ_le_of_lt (Nat.zero_lt_succ _), Nat.succ_pos n, Nat.succ_le_of_lt ‹_›,
          Nat.zero_add _⟩
      · obtain ⟨hpos, hmonth, hday, hfits, hsum⟩ := ih (n := n - length) (by omega)
        generalize splitMonth rest (n - length) = split at hpos hmonth hday hfits hsum
        obtain ⟨month, day⟩ := split
        obtain ⟨month, rfl⟩ := Nat.exists_eq_add_of_le' hpos
        simp only [Nat.add_sub_cancel, List.length_cons, List.take_succ_cons, List.foldr_cons,
          List.getD_cons_succ] at hmonth hfits hsum ⊢
        exact ⟨by omega, by omega, hday, hfits, by omega⟩

namespace Date

theorem isValid_iff (d : Date) : d.isValid = true ↔
    1 ≤ d.month ∧ d.month ≤ 12 ∧ 1 ≤ d.day ∧ d.day ≤ (monthLengths d.year).getD (d.month - 1) 0 := by
  simp [isValid, and_assoc]

/-- What is known of the date of a day: its year holds the day, and its month and day fit into the year. -/
theorem ofDay_spec (day : Int) :
    (ofDay day).year = yearOf (day + epoch) ∧ (ofDay day).isValid = true ∧ (ofDay day).toDay = day := by
  obtain ⟨hstart, hnext⟩ := yearOf_bounds (day + epoch)
  have hlength := yearStart_succ (yearOf (day + epoch))
  have hsum := sum_monthLengths (yearOf (day + epoch))
  have hwithin : (day + epoch - yearStart (yearOf (day + epoch))).toNat <
      (monthLengths (yearOf (day + epoch))).foldr (· + ·) 0 := by
    rw [hsum]
    by_cases hleap : isLeap (yearOf (day + epoch)) = true
    · rw [if_pos hleap] at hlength ⊢
      omega
    · rw [if_neg hleap] at hlength ⊢
      omega
  obtain ⟨hpos, hmonth, hday, hfits, hdays⟩ := splitMonth_spec hwithin
  refine ⟨rfl, (isValid_iff _).mpr ⟨hpos, hmonth, hday, hfits⟩, ?_⟩
  simp only [toDay, ofDay]
  omega

theorem toDay_ofDay (day : Int) : (ofDay day).toDay = day := (ofDay_spec day).2.2

theorem isValid_ofDay (day : Int) : (ofDay day).isValid = true := (ofDay_spec day).2.1

/-- Valid dates have a month of the year and a day of a month. -/
theorem lt_of_isValid {d : Date} (hd : d.isValid = true) : d.month < 13 ∧ d.day < 32 := by
  obtain ⟨-, hmonth, -, hfits⟩ := (isValid_iff d).mp hd
  have hlengths : ∀ n ∈ monthLengths d.year, n ≤ 31 := by
    unfold monthLengths
    cases isLeap d.year <;> decide
  have hlength : (monthLengths d.year).getD (d.month - 1) 0 ≤ 31 := by
    rw [List.getD_eq_getElem?_getD]
    cases hlook : (monthLengths d.year)[d.month - 1]? with
    | none => exact Nat.zero_le 31
    | some n => exact hlengths n (List.mem_of_getElem? hlook)
  omega

/-- The years of the days that 64 bits of nanoseconds reach have four digits. -/
theorem year_ofDay_bounds {day : Int} (hpast : 0 ≤ day) (hfuture : day < 213504) :
    0 ≤ (ofDay day).year ∧ (ofDay day).year ≤ 9999 := by
  obtain ⟨hstart, hnext⟩ := yearOf_bounds (day + epoch)
  have hlow := yearStart_bounds (yearOf (day + epoch))
  have hhigh := yearStart_bounds (yearOf (day + epoch) + 1)
  rw [(ofDay_spec day).1]
  unfold epoch at *
  omega

end Date

end ContentProbe.Time
