import ContentProbe.Proofs.Text.Reading
import ContentProbe.Proofs.Time.Calendar
import ContentProbe.Time.Stamp

/-!
A point in time survives its text, for every count of nanoseconds in 64 bits. Each part of the text has digits
of a fixed count and ends where the reader ends it; the fraction of a second leaves out groups of zeros only,
which the reader's scale puts back.
-/

namespace ContentProbe.Time.Stamp

open ContentProbe.Text

/-! Numbers -/

theorem digit?_none_of_head {cs : List Char} (hend : ∀ c ∈ cs.head?, digit? c = none) :
    (cs.takeWhile fun c => (digit? c).isSome) = [] ∧ (cs.dropWhile fun c => (digit? c).isSome) = cs := by
  cases cs with
  | nil => exact ⟨rfl, rfl⟩
  | cons c cs => simp [hend c rfl]

/-- Digits are read up to the most that may be read, or to what is no digit. -/
theorem readUpTo_map {most : Nat} {ds : List Nat} {cs : List Char} (hds : ∀ d ∈ ds, d < 10) (hne : ds ≠ [])
    (hmost : ds.length ≤ most) (hend : ds.length = most ∨ ∀ c ∈ cs.head?, digit? c = none) :
    readUpTo most (ds.map hexChar ++ cs) = some (ofDigits 10 ds, cs) := by
  have hdigits : ∀ c ∈ ds.map hexChar, (digit? c).isSome = true := by
    intro c hc
    obtain ⟨d, hd, rfl⟩ := List.mem_map.mp hc
    rw [digit?_hexChar (hds d hd)]
    rfl
  have hrest : ((cs.take (most - ds.length)).takeWhile fun c => (digit? c).isSome) = [] := by
    rcases hend with hfull | hend
    · rw [hfull, Nat.sub_self]
      rfl
    · refine (digit?_none_of_head fun c hc => ?_).1
      rw [List.head?_take] at hc
      split at hc
      · exact nomatch hc
      · exact hend c hc
  have htake : (((ds.map hexChar ++ cs).take most).takeWhile fun c => (digit? c).isSome) =
      ds.map hexChar := by
    rw [List.take_append, List.take_of_length_le (by rw [List.length_map]; exact hmost), List.length_map,
      List.takeWhile_append_of_pos hdigits, hrest, List.append_nil]
  have hread : readDigits? (ds.map hexChar) = some (ofDigits 10 ds) := by
    rw [readDigits?, mapM_map_eq_some fun d hd => digit?_hexChar (hds d hd), if_neg (by simpa using hne)]
    rfl
  rw [readUpTo, htake, if_neg (by simpa using hne), hread, Option.map_some, List.drop_left]

theorem readUpTo_paddedText {most count n : Nat} {cs : List Char} (hpos : 0 < count) (hmost : count ≤ most)
    (hend : count = most ∨ ∀ c ∈ cs.head?, digit? c = none) (hn : n < 10 ^ count) :
    readUpTo most (paddedText count n ++ cs) = some (n, cs) := by
  have hlength := length_digitsFixed 10 count n
  have hread := readUpTo_map (fun d => lt_of_mem_digitsFixed (by decide))
    (List.ne_nil_of_length_pos (hlength.symm ▸ hpos)) (hlength.symm ▸ hmost) (hlength.symm ▸ hend)
  rwa [ofDigits_digitsFixed, Nat.mod_eq_of_lt hn] at hread

theorem isBlank_hexChar {d : Nat} (hd : d < 10) : isBlank (hexChar d) = false := by
  have hall : ∀ d < 10, isBlank (hexChar d) = false := by decide
  exact hall d hd

theorem trimStart_cons {c : Char} (hc : isBlank c = false) (cs : List Char) :
    trimStart (c :: cs) = c :: cs := by
  rw [trimStart, List.dropWhile_cons_of_neg (by simp [hc])]

/-- Text of digits begins with one. -/
theorem paddedText_head {count : Nat} (hpos : 0 < count) (n : Nat) :
    ∃ d ds, d < 10 ∧ paddedText count n = hexChar d :: ds := by
  obtain ⟨d, ds, hsplit⟩ := List.exists_cons_of_length_pos
    (l := digitsFixed 10 count n) (by rwa [length_digitsFixed])
  have hd : d ∈ digitsFixed 10 count n := hsplit ▸ List.mem_cons_self
  exact ⟨d, ds.map hexChar, lt_of_mem_digitsFixed (by decide) hd, by rw [paddedText, hsplit, List.map_cons]⟩

theorem trimStart_paddedText {count : Nat} (hpos : 0 < count) (n : Nat) (cs : List Char) :
    trimStart (paddedText count n ++ cs) = paddedText count n ++ cs := by
  obtain ⟨d, ds, hd, htext⟩ := paddedText_head hpos n
  rw [htext]
  exact trimStart_cons (isBlank_hexChar hd) _

/-! Parts of a date and a time -/

theorem readPart_paddedText {n : Nat} (hn : n < 100) (cs : List Char) :
    readPart (paddedText 2 n ++ cs) = some (n, cs) := by
  rw [readPart, trimStart_paddedText (by decide)]
  exact readUpTo_paddedText (by decide) (le_refl 2) (Or.inl rfl) hn

theorem afterChar?_cons {c : Char} (hc : isBlank c = false) (cs : List Char) :
    afterChar? c (c :: cs) = some cs := by
  rw [afterChar?, trimStart_cons hc]
  exact if_pos rfl

theorem readYear_yearText {year : Int} (hpast : 0 ≤ year) (hfuture : year ≤ 9999) (cs : List Char) :
    readYear (yearText year ++ cs) = some (year, cs) := by
  obtain ⟨n, rfl⟩ := Int.eq_ofNat_of_zero_le hpast
  obtain ⟨d, ds, hd, htext⟩ := paddedText_head (by decide : 0 < 4) n
  have hread : readUpTo 4 (paddedText 4 n ++ cs) = some (n, cs) :=
    readUpTo_paddedText (by decide) (le_refl 4) (Or.inl rfl) (by omega)
  have hsign : ∀ e < 10, hexChar e ≠ '-' ∧ hexChar e ≠ '+' := by decide
  rw [yearText, if_pos ⟨hpast, hfuture⟩, Int.toNat_natCast, readYear, trimStart_paddedText (by decide)]
  split
  · rename_i heq
    rw [htext] at heq
    exact absurd (List.cons.inj heq).1 (hsign d hd).1
  · rename_i heq
    rw [htext] at heq
    exact absurd (List.cons.inj heq).1 (hsign d hd).2
  · rw [hread]
    rfl

/-- A fraction of so many digits counts in units of the digits that it leaves out. -/
theorem readNanos_point (unit : Nat) {count n : Nat} {cs : List Char} (hpos : 0 < count) (hmost : count ≤ 9)
    (hunit : unit = 10 ^ (9 - count)) (hn : n < 10 ^ count) (hend : ∀ c ∈ cs.head?, digit? c = none) :
    readNanos ('.' :: paddedText count n ++ cs) = some (n * unit, cs) := by
  have hread := readUpTo_paddedText hpos hmost (Or.inr hend) hn
  have hcount : (paddedText count n ++ cs).length - cs.length = count := by
    rw [List.length_append, paddedText, List.length_map, length_digitsFixed]
    omega
  rw [List.cons_append, readNanos, hread]
  simp only [Option.bind_eq_bind, Option.bind_some, hcount, (digit?_none_of_head hend).2, hunit]
  rfl

/-- The digits of a second, however many of them are written. -/
theorem readNanos_fractionText {n : Nat} (hn : n < nanosPerSecond) (cs : List Char) :
    readNanos (fractionText n ++ 'Z' :: cs) = some (n, 'Z' :: cs) := by
  have hend : ∀ c ∈ ('Z' :: cs).head?, digit? c = none := by
    rintro c ⟨⟩
    decide
  unfold nanosPerSecond at hn
  unfold fractionText
  split
  · subst n
    rfl
  · split
    · rw [readNanos_point 1000000 (by decide) (by decide) rfl (by omega) hend,
        Nat.div_mul_cancel (Nat.dvd_of_mod_eq_zero ‹_›)]
    · split
      · rw [readNanos_point 1000 (by decide) (by decide) rfl (by omega) hend,
          Nat.div_mul_cancel (Nat.dvd_of_mod_eq_zero ‹_›)]
      · rw [readNanos_point 1 (by decide) (by decide) rfl (by omega) hend, Nat.mul_one]

theorem shift_zero {t : Stamp} (ht : t.second < secondsPerDay) : t.shift 0 = t := by
  obtain ⟨day, second, nano⟩ := t
  simp only [shift, secondsPerDay, mk.injEq, and_true] at ht ⊢
  omega

/-! Whole texts -/

/-- A point that has no leap second, on a day whose year has four digits. -/
structure Plain (t : Stamp) : Prop where
  second : t.second < secondsPerDay
  nano : t.nano < nanosPerSecond
  past : 0 ≤ (Date.ofDay t.day).year
  future : (Date.ofDay t.day).year ≤ 9999

theorem Plain.ofNanos {n : Nat} (hn : n < 2 ^ 64) : (ofNanos n).Plain := by
  have hday : ((n / nanosPerSecond / secondsPerDay : Nat) : Int) < 213504 := by
    unfold nanosPerSecond secondsPerDay
    omega
  have hyear := Date.year_ofDay_bounds (Int.natCast_nonneg _) hday
  exact ⟨Nat.mod_lt _ (by decide), Nat.mod_lt _ (by decide), hyear.1, hyear.2⟩

def clockOf (t : Stamp) : Clock := ⟨t.second / 3600, t.second / 60 % 60, t.second % 60, t.nano⟩

/-- The parts of a point in time make it up again. -/
theorem ofLocal?_clockOf {t : Stamp} (ht : t.Plain) : ofLocal? (Date.ofDay t.day) t.clockOf 0 = some t := by
  obtain ⟨hsecond, hnano, hpast, hfuture⟩ := ht
  have hclock : t.second / 3600 * 3600 + t.second / 60 % 60 * 60 + t.second % 60 = t.second := by omega
  have hhour : t.second / 3600 < 24 := by
    unfold secondsPerDay at hsecond
    omega
  have hminute : t.second / 60 % 60 < 60 := Nat.mod_lt _ (by decide)
  have hleap : t.second % 60 < 60 := Nat.mod_lt _ (by decide)
  have hyears : minYear ≤ (Date.ofDay t.day).year ∧ (Date.ofDay t.day).year ≤ maxYear := by
    unfold minYear maxYear
    omega
  have hhas : hasYear t.day = true := by simpa [hasYear] using hyears
  unfold ofLocal? clockOf
  simp only [if_neg (Nat.ne_of_lt hleap), hclock, Nat.add_zero, Date.toDay_ofDay]
  rw [shift_zero hsecond]
  exact if_pos ⟨Date.isValid_ofDay t.day, hyears.1, hyears.2, hhour, hminute, hleap.le, by decide, hhas⟩

theorem readDate_write {d : Date} (hvalid : d.isValid = true) (hpast : 0 ≤ d.year) (hfuture : d.year ≤ 9999)
    (cs : List Char) :
    readDate (yearText d.year ++ '-' :: (paddedText 2 d.month ++ '-' :: (paddedText 2 d.day ++ cs))) =
      some (d, cs) := by
  obtain ⟨hmonth, hday⟩ := Date.lt_of_isValid hvalid
  have hdash : isBlank '-' = false := by decide
  simp only [readDate, Option.bind_eq_bind, Option.bind_some, readYear_yearText hpast hfuture,
    afterChar?_cons hdash, readPart_paddedText (hmonth.trans (by decide)),
    readPart_paddedText (hday.trans (by decide))]
  rfl

theorem readClock_write {t : Stamp} (hsecond : t.second < secondsPerDay) (hnano : t.nano < nanosPerSecond)
    (cs : List Char) :
    readClock (paddedText 2 (t.second / 3600) ++ ':' :: (paddedText 2 (t.second / 60 % 60) ++
      ':' :: (paddedText 2 (t.second % 60) ++ (fractionText t.nano ++ 'Z' :: cs)))) =
        some (t.clockOf, 'Z' :: cs) := by
  have hcolon : isBlank ':' = false := by decide
  have hhour : t.second / 3600 < 100 := by
    unfold secondsPerDay at hsecond
    omega
  have hminute : t.second / 60 % 60 < 100 := (Nat.mod_lt _ (by decide)).trans (by decide)
  have hseconds : t.second % 60 < 100 := (Nat.mod_lt _ (by decide)).trans (by decide)
  simp only [readClock, Option.bind_eq_bind, Option.bind_some, afterChar?_cons hcolon,
    readPart_paddedText hhour, readPart_paddedText hminute, readPart_paddedText hseconds,
    readNanos_fractionText hnano]
  rfl

theorem read?_render {t : Stamp} (ht : t.Plain) : read? t.render = some t := by
  have htext : t.render = yearText (Date.ofDay t.day).year ++ '-' :: (paddedText 2 (Date.ofDay t.day).month ++
      '-' :: (paddedText 2 (Date.ofDay t.day).day ++ 'T' :: (paddedText 2 (t.second / 3600) ++
        ':' :: (paddedText 2 (t.second / 60 % 60) ++ ':' :: (paddedText 2 (t.second % 60) ++
          (fractionText t.nano ++ ['Z'])))))) := by
    simp only [render, Nat.div_eq_of_lt ht.nano, Nat.mod_eq_of_lt ht.nano, Nat.add_zero, List.append_assoc,
      List.cons_append]
  have hoffset : readOffset (trimStart ['Z']) = some (0, []) := by decide
  have hseparator : isSeparator 'T' = true := by decide
  rw [htext, read?, readDate_write (Date.isValid_ofDay t.day) ht.past ht.future]
  simp only [Option.bind_eq_bind, Option.bind_some, if_pos hseparator, readClock_write ht.second ht.nano,
    hoffset]
  exact ofLocal?_clockOf ht

/-- A point that 64 bits of nanoseconds reach. -/
def Reached (t : Stamp) : Prop := ∃ n < 2 ^ 64, t = ofNanos n

/-- Every count of nanoseconds in 64 bits is read back from its text. -/
theorem Reached.read?_render {t : Stamp} (ht : t.Reached) : read? t.render = some t := by
  obtain ⟨n, hn, rfl⟩ := ht
  exact Stamp.read?_render (.ofNanos hn)

/-- The last point that is reached, with all nine digits of a second. -/
example : String.ofList (ofNanos (2 ^ 64 - 1)).render = "2554-07-21T23:34:33.709551615Z" := by decide +kernel

end ContentProbe.Time.Stamp
