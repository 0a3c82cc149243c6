import SqlBuilder.Proofs.Digits
import SqlBuilder.Time.Written

/-!
# Instants are read back

A day of an era is taken apart into centuries, fours of years and years (`exists_dayOfEra`), which
turns the closed formula for its year into a sum (`yearOfEra_eq`).  From this the two directions of
the calendar are inverse, and the written form of an instant is read as that instant
(`Timestamp.read_write`), provided that its nanoseconds have not run on where there is no leap
second (`Timestamp.Regular`).
-/

namespace SqlBuilder

namespace Date

/-! ## The calendar -/

/-- How a day of an era lies in its century, its four years and its year.  A year of an era has a
day 365 if it is the last of four years, but for the last years of the first three centuries. -/
theorem exists_dayOfEra {d : Nat} (h : d < 146097) :
    ∃ c q z r, d = 36524 * c + 1461 * q + 365 * z + r ∧ c ≤ 3 ∧ q ≤ 24 ∧ z ≤ 3 ∧
      (r < 365 ∨ r = 365 ∧ z = 3 ∧ (q < 24 ∨ c = 3)) := by
  by_cases last : d = 146096
  · exact ⟨3, 24, 3, 365, by omega, by omega, by omega, by omega, by omega⟩
  by_cases leap : d % 36524 % 1461 = 1460
  · exact ⟨d / 36524, d % 36524 / 1461, 3, 365, by omega, by omega, by omega, by omega, by omega⟩
  · exact ⟨d / 36524, d % 36524 / 1461, d % 36524 % 1461 / 365, d % 36524 % 1461 % 365,
      by omega, by omega, by omega, by omega, by omega⟩

/-- The closed formula for the year of a day in its era. -/
theorem yearOfEra_eq {d c q z r : Nat} (h : d = 36524 * c + 1461 * q + 365 * z + r) (hc : c ≤ 3)
    (hq : q ≤ 24) (hz : z ≤ 3) (hr : r < 365 ∨ r = 365 ∧ z = 3 ∧ (q < 24 ∨ c = 3)) :
    (d - d / 1460 + d / 36524 - d / 146096) / 365 = 100 * c + 4 * q + z := by
  have centuries : d / 36524 - d / 146096 = c := by
    by_cases last : d = 146096
    · subst last
      omega
    · have inCentury : 1461 * q + 365 * z + r < 36524 := by omega
      have century : d / 36524 = c := by omega
      have era : d / 146096 = 0 := by omega
      omega
  have order : d / 146096 ≤ d / 36524 := by omega
  have fours : d / 1460 = 25 * c + q + (24 * c + q + (365 * z + r)) / 1460 := by omega
  omega

/-- What `ofDays` computes, from the year of the era and the day of the year, which begins on
1 March. -/
theorem exists_ofDays (n : Int) :
    ∃ (era : Int) (y r m : Nat), n + 719468 = era * 146097 + (365 * y + y / 4 - y / 100 + r : Nat) ∧
      y < 400 ∧ m = (5 * r + 2) / 153 ∧
      (r < 365 ∨ r = 365 ∧ (y + 1) % 4 = 0 ∧ ((y + 1) % 100 ≠ 0 ∨ (y + 1) % 400 = 0)) ∧
      ofDays n =
        { year := if m < 10 then era * 400 + y else era * 400 + y + 1
          month := if m < 10 then m + 3 else m - 9
          day := r - (153 * m + 2) / 5 + 1 } := by
  have days : (n + 719468).fdiv 146097 = (n + 719468) / 146097 :=
    Int.fdiv_eq_ediv_of_nonneg _ (by decide)
  obtain ⟨d, hd⟩ : ∃ d : Nat, (d : Int) = n + 719468 - (n + 719468) / 146097 * 146097 :=
    ⟨_, Int.toNat_of_nonneg (by omega)⟩
  obtain ⟨c, q, z, r, split, hc, hq, hz, hr⟩ := exists_dayOfEra (d := d) (by omega)
  have fours : (100 * c + 4 * q + z) / 4 = 25 * c + q := by omega
  have centuries : (100 * c + 4 * q + z) / 100 = c := by omega
  have dayOfYear : d - (365 * (100 * c + 4 * q + z) + (100 * c + 4 * q + z) / 4 -
      (100 * c + 4 * q + z) / 100) = r := by omega
  have march : (5 * r + 2) / 153 ≤ 11 := by omega
  refine ⟨(n + 719468) / 146097, 100 * c + 4 * q + z, r, (5 * r + 2) / 153, ?_, ?_, rfl, ?_, ?_⟩
  · omega
  · omega
  · omega
  · have year := yearOfEra_eq split hc hq hz hr
    simp only [ofDays, days, ← hd, Int.toNat_natCast, year, dayOfYear]
    congr 1
    split <;> split <;> omega

theorem toDays_ofDays (n : Int) : (ofDays n).toDays = n := by
  obtain ⟨era, y, r, m, days, hy, hm, hr, date⟩ := exists_ofDays n
  have era_eq : (era * 400 + y).fdiv 400 = era := by
    rw [Int.fdiv_eq_ediv_of_nonneg _ (by decide)]
    omega
  have within : (153 * m + 2) / 5 ≤ r := by omega
  rw [date]
  by_cases sameYear : m < 10
  · have year : ¬m + 3 ≤ 2 := by omega
    have month : (m + 3 + 9) % 12 = m := by omega
    simp only [toDays, sameYear, if_true, if_neg year, month, era_eq]
    omega
  · have year : m - 9 ≤ 2 := by omega
    have month : (m - 9 + 9) % 12 = m := by omega
    simp only [toDays, sameYear, if_false, if_pos year, month, Int.add_sub_cancel, era_eq]
    omega

/-- The number of days of a month, by the months from March on. -/
theorem daysInMonth_fromMarch (y : Int) {m : Nat} (h : m < 10) :
    daysInMonth y (m + 3) = (153 * (m + 1) + 2) / 5 - (153 * m + 2) / 5 := by
  rw [daysInMonth, if_neg (by omega)]
  revert m
  decide

theorem isValid_ofDays (n : Int) : (ofDays n).isValid = true := by
  obtain ⟨era, y, r, m, days, hy, hm, hr, date⟩ := exists_ofDays n
  rw [date]
  by_cases sameYear : m < 10
  · have month := daysInMonth_fromMarch (era * 400 + y) sameYear
    simp only [isValid, sameYear, if_true, month, Bool.and_eq_true, decide_eq_true_eq]
    omega
  by_cases january : m = 10
  · subst january
    simp [isValid, daysInMonth]
    omega
  · have february : m = 11 := by omega
    subst february
    by_cases last : r = 365
    · have leap : isLeapYear (era * 400 + y + 1) = true := by
        simp only [isLeapYear, Bool.and_eq_true, Bool.or_eq_true, beq_iff_eq, bne_iff_ne]
        omega
      simp [isValid, daysInMonth, leap, last]
    · have : 28 ≤ daysInMonth (era * 400 + y + 1) 2 := by
        by_cases leap : isLeapYear (era * 400 + y + 1) <;> simp [daysInMonth, leap]
      simp [isValid]
      omega

end Date

namespace Timestamp

/-! ## Numbers and marks -/

theorem not_isBlank_of_isDigit {c : Char} (h : c.isDigit) : isBlank c = false := by
  have range := toNat_range_of_isDigit h
  simp [isBlank]
  omega

theorem trimBlank_cons {c : Char} {cs : List Char} (h : isBlank c = false) :
    trimBlank (c :: cs) = c :: cs := by
  simp [trimBlank, h]

theorem trimBlank_padded (w n : Nat) (rest : List Char) :
    trimBlank (padded w n ++ rest) = padded w n ++ rest := by
  obtain ⟨c, cs, written, digit⟩ := exists_padded w n
  rw [written]
  exact trimBlank_cons (not_isBlank_of_isDigit digit)

theorem mark_cons {c : Char} (h : isBlank c = false) (rest : List Char) :
    mark c (c :: rest) = some rest := by
  simp [mark, trimBlank_cons h]

theorem number_padded {w n : Nat} {rest : List Char} (pos : 0 < w) (fits : n < 10 ^ w)
    (ends : EndsDigits rest) : number (some w) (padded w n ++ rest) = some (n, rest) := by
  have run : (padded w n ++ rest).takeWhile Char.isDigit = padded w n :=
    takeWhile_digits_append (fun _ => isDigit_of_mem_padded) ends
  have whole : (padded w n).take w = padded w n :=
    List.take_of_length_le (length_padded pos fits).le
  simp [number, run, whole, isEmpty_padded, digitsValue_padded]

theorem number_none_padded (w n : Nat) {rest : List Char} (ends : EndsDigits rest) :
    number none (padded w n ++ rest) = some (n, rest) := by
  have run : (padded w n ++ rest).takeWhile Char.isDigit = padded w n :=
    takeWhile_digits_append (fun _ => isDigit_of_mem_padded) ends
  simp [number, run, isEmpty_padded, digitsValue_padded]

theorem field_padded {low high n : Nat} {rest : List Char} (hlow : low ≤ n) (hhigh : n ≤ high)
    (short : high < 100) (ends : EndsDigits rest) :
    field low high (padded 2 n ++ rest) = some (n, rest) := by
  have fits : n < 10 ^ 2 := by omega
  simp [field, trimBlank_padded, number_padded (by decide) fits ends, hlow, hhigh]

theorem year_writeYear (y : Int) (rest : List Char) :
    year (writeYear y ++ '-' :: rest) = some (y, '-' :: rest) := by
  have ends : EndsDigits ('-' :: rest) := endsDigits_cons rfl
  unfold writeYear
  by_cases negative : y < 0
  · rw [if_pos negative, List.cons_append, year, trimBlank_cons rfl]
    simp only [number_none_padded 4 _ ends, Option.map_some]
    congr 2
    omega
  rw [if_neg negative]
  by_cases short : y ≤ 9999
  · have read := number_padded (w := 4) (n := y.toNat) (by decide) (by omega) ends
    rw [if_pos short]
    obtain ⟨c, cs, written, digit⟩ := exists_padded 4 y.toNat
    have minus : c ≠ '-' := by
      rintro rfl
      cases digit
    have plus : c ≠ '+' := by
      rintro rfl
      cases digit
    rw [written, List.cons_append] at read
    rw [written]
    simp [year, trimBlank_cons (not_isBlank_of_isDigit digit), minus, plus, read]
    omega
  · rw [if_neg short, List.cons_append, year, trimBlank_cons rfl]
    simp only [number_none_padded 4 _ ends, Option.map_some]
    congr 2
    omega

/-- The places after a point, as a number of nanoseconds. -/
theorem fraction_padded {w n : Nat} {rest : List Char} (pos : 0 < w) (nine : w ≤ 9)
    (fits : n < 10 ^ w) (ends : EndsDigits rest) :
    fraction ('.' :: (padded w n ++ rest)) = some (n * tenTo (9 - w), rest) := by
  have run : (padded w n ++ rest).takeWhile Char.isDigit = padded w n :=
    takeWhile_digits_append (fun _ => isDigit_of_mem_padded) ends
  have length : (padded w n).length = w := length_padded pos fits
  have whole : (padded w n).take 9 = padded w n := List.take_of_length_le (by omega)
  simp [fraction, run, whole, isEmpty_padded, digitsValue_padded, length]

theorem fraction_writeFraction {n : Nat} (h : n < nanosPerSecond) :
    fraction (writeFraction n ++ ['Z']) = some (n, ['Z']) := by
  have ends : EndsDigits ['Z'] := endsDigits_cons rfl
  have bound : n < 1000000000 := h
  unfold writeFraction
  by_cases zero : n = 0
  · subst zero
    rfl
  rw [if_neg zero]
  by_cases millis : n % 1000000 = 0
  · rw [if_pos millis, List.cons_append, fraction_padded (by decide) (by decide) (by omega) ends]
    congr 2
    show n / 1000000 * 1000000 = n
    omega
  rw [if_neg millis]
  by_cases micros : n % 1000 = 0
  · rw [if_pos micros, List.cons_append, fraction_padded (by decide) (by decide) (by omega) ends]
    congr 2
    show n / 1000 * 1000 = n
    omega
  · rw [if_neg micros, List.cons_append, fraction_padded (by decide) (by decide) (by omega) ends]
    congr 2
    exact Nat.mul_one n

/-! ## Instants -/

/-- Nanoseconds have run on in the last second of a minute at most, where leap seconds are. -/
def Regular (t : Timestamp) : Prop :=
  t.nanos < nanosPerSecond ∨ t.seconds % 60 = 59

instance (t : Timestamp) : Decidable t.Regular :=
  inferInstanceAs (Decidable (_ ∨ _))

/-- The last second of all is the last one of a minute. -/
theorem succ_le_lastSecond {t : Timestamp} (h : ¬ t.Regular) : t.seconds + 1 ≤ lastSecond := by
  have := t.le_last
  simp only [Regular, lastSecond, not_or] at h this ⊢
  omega

/-- The instant that the text of an instant is read as: nanoseconds that have run on where there is
no leap second are carried into the next second. -/
def reread (t : Timestamp) : Timestamp :=
  if h : t.Regular then t
  else
    { seconds := t.seconds + 1
      nanos := t.nanos % nanosPerSecond
      first_le := by
        have := t.first_le
        omega
      le_last := succ_le_lastSecond h
      nanos_lt := Nat.lt_of_le_of_lt (Nat.mod_le _ _) t.nanos_lt }

theorem reread_of_regular {t : Timestamp} (h : t.Regular) : t.reread = t :=
  dif_pos h

/-- Second sixty is the second before it, and its nanoseconds have run on. -/
theorem ofFields_ofDays {days seconds : Int} {h m s n : Nat}
    (whole : days * 86400 + (h * 3600 + m * 60 + (s - s / 60) : Nat) = seconds)
    (first : firstSecond ≤ seconds) (last : seconds ≤ lastSecond)
    (bound : n + s / 60 * nanosPerSecond < 2 * nanosPerSecond) :
    ofFields (Date.ofDays days) h m s n 0 =
      some ⟨seconds, n + s / 60 * nanosPerSecond, first, last, bound⟩ := by
  subst whole
  simp only [ofFields, Date.toDays_ofDays, Date.isValid_ofDays, Int.sub_zero, first, last,
    decide_true, Bool.and_self, if_true]
  exact dif_pos ⟨first, last, bound⟩

/-- The date and the time that are written for an instant denote the instant that is read. -/
theorem ofFields_parts (t : Timestamp) :
    ofFields (Date.ofDays (t.seconds / 86400)) ((t.seconds % 86400).toNat / 3600)
      ((t.seconds % 86400).toNat / 60 % 60)
      ((t.seconds % 86400).toNat % 60 + t.nanos / nanosPerSecond) (t.nanos % nanosPerSecond) 0 =
      some t.reread := by
  have bound := t.nanos_lt
  unfold reread
  split
  next regular =>
    -- Nanoseconds that have run on are written, and read, as second sixty.
    have leap : ((t.seconds % 86400).toNat % 60 + t.nanos / nanosPerSecond) / 60 =
        t.nanos / nanosPerSecond := by
      simp only [Regular, nanosPerSecond] at regular bound ⊢
      omega
    have rest : t.nanos % nanosPerSecond + t.nanos / nanosPerSecond * nanosPerSecond = t.nanos :=
      Nat.mod_add_div' t.nanos nanosPerSecond
    rw [ofFields_ofDays (by omega) t.first_le t.le_last (by rwa [leap, rest])]
    simp only [leap, rest]
  next irregular =>
    -- There is another second in the minute, and they are written, and read, in that one.
    have carried : t.nanos / nanosPerSecond = 1 := by
      simp only [Regular, nanosPerSecond, not_or] at irregular bound ⊢
      omega
    have same : ((t.seconds % 86400).toNat % 60 + 1) / 60 = 0 := by
      simp only [Regular, not_or] at irregular
      omega
    have first : firstSecond ≤ t.seconds + 1 := Int.le_add_one t.first_le
    have bound' : t.nanos % nanosPerSecond < 2 * nanosPerSecond :=
      Nat.lt_of_le_of_lt (Nat.mod_le _ _) bound
    rw [carried, ofFields_ofDays (by omega) first (succ_le_lastSecond irregular)
      (by rwa [same, Nat.zero_mul])]
    simp only [same, Nat.zero_mul, Nat.add_zero]

theorem daysInMonth_le (y : Int) (m : Nat) : daysInMonth y m ≤ 31 := by
  unfold daysInMonth
  split
  · split <;> omega
  · split <;> omega

theorem endsDigits_writeFraction (n : Nat) : EndsDigits (writeFraction n ++ ['Z']) := by
  unfold writeFraction
  split
  · exact endsDigits_cons rfl
  split
  · exact endsDigits_cons rfl
  split <;> exact endsDigits_cons rfl

/-- The written form of an instant is read as the instant, but for nanoseconds that are carried
into the next second. -/
theorem read_write (t : Timestamp) : read (String.ofList t.write) = some t.reread := by
  have parts := ofFields_parts t
  have valid := Date.isValid_ofDays (t.seconds / 86400)
  have carried : t.nanos / nanosPerSecond ≤ 1 := by
    have := t.nanos_lt
    simp only [nanosPerSecond] at this ⊢
    omega
  have hour : (t.seconds % 86400).toNat / 3600 ≤ 23 := by omega
  have minute : (t.seconds % 86400).toNat / 60 % 60 ≤ 59 := by omega
  have second : (t.seconds % 86400).toNat % 60 + t.nanos / nanosPerSecond ≤ 60 := by omega
  have nanos : t.nanos % nanosPerSecond < nanosPerSecond := Nat.mod_lt _ (by decide)
  simp only [write]
  generalize Date.ofDays (t.seconds / 86400) = date at parts valid ⊢
  generalize (t.seconds % 86400).toNat / 3600 = h at parts hour ⊢
  generalize (t.seconds % 86400).toNat / 60 % 60 = m at parts minute ⊢
  generalize (t.seconds % 86400).toNat % 60 + t.nanos / nanosPerSecond = s at parts second ⊢
  simp only [Date.isValid, Bool.and_eq_true, decide_eq_true_eq] at valid
  have short := daysInMonth_le date.year date.month
  have pointOrZone := endsDigits_writeFraction (t.nanos % nanosPerSecond)
  have hyphen : isBlank '-' = false := rfl
  have colon : isBlank ':' = false := rfl
  have zulu : zone (trimBlank ['Z']) = some (0, []) := by decide
  have ends : ∀ {c : Char} {cs : List Char}, c.isDigit = false → EndsDigits (c :: cs) :=
    endsDigits_cons
  simp only [List.append_assoc, List.cons_append, read, String.toList_ofList]
  -- The parts are read in the order in which they are written.
  refine Option.bind_eq_some_iff.2 ⟨_, year_writeYear _ _, ?_⟩
  refine Option.bind_eq_some_iff.2 ⟨_, mark_cons hyphen _, ?_⟩
  refine Option.bind_eq_some_iff.2
    ⟨_, field_padded (by omega) (by omega) (by decide) (ends rfl), ?_⟩
  refine Option.bind_eq_some_iff.2 ⟨_, mark_cons hyphen _, ?_⟩
  refine Option.bind_eq_some_iff.2
    ⟨_, field_padded (by omega) (by omega) (by decide) (ends rfl), ?_⟩
  refine Option.bind_eq_some_iff.2 ⟨_, field_padded (by omega) hour (by decide) (ends rfl), ?_⟩
  refine Option.bind_eq_some_iff.2 ⟨_, mark_cons colon _, ?_⟩
  refine Option.bind_eq_some_iff.2 ⟨_, field_padded (by omega) minute (by decide) (ends rfl), ?_⟩
  refine Option.bind_eq_some_iff.2 ⟨_, mark_cons colon _, ?_⟩
  refine Option.bind_eq_some_iff.2 ⟨_, field_padded (by omega) second (by decide) pointOrZone, ?_⟩
  refine Option.bind_eq_some_iff.2 ⟨_, fraction_writeFraction nanos, ?_⟩
  refine Option.bind_eq_some_iff.2 ⟨_, zulu, ?_⟩
  exact parts

end Timestamp

end SqlBuilder
