import CommitReports.Calendar
import Mathlib.Tactic.IntervalCases
import Mathlib.Tactic.SplitIfs

/-!
# The Gregorian calendar

`Date.ofDays` finds the date of a day in eras of four hundred years that begin in March. Here
the calendar is said by its rules alone: which years are leap years, how long the months are,
and which day comes next. `Date.number` counts the days of whole years and months before a
date, and the rules pin it down: the first of January 1970 has the number 0
(`Date.number_epoch`), and the next day has the next number (`Date.number_next`).

Main result: `Date.ofDays_spec` — the date of a day is a date of the calendar, and the number
of that date is the day. Two facts carry it. A day of an era is cut into centuries, spans of
four years, years and days, and `yearOfEra` gives back the year (`yearOfEra_parts`); the last
day of a year, the leap day, is where the quotients that it is computed from jump. A day of a
year that begins in March falls into a month by the rule `(5 * d + 2) / 153`, since only the
last month of such a year varies in length (`Date.ofMarch_spec`).

Years are counted by integers, the year before the year 1 being the year 0.
-/

namespace CommitReports.Calendar

/-! ## Years and months -/

/-- A leap year is a multiple of four, and of a hundred only if it is one of four hundred. -/
def IsLeap (year : Int) : Prop := 4 ∣ year ∧ (¬100 ∣ year ∨ 400 ∣ year)

instance : DecidablePred IsLeap := fun year =>
  inferInstanceAs (Decidable (4 ∣ year ∧ (¬100 ∣ year ∨ 400 ∣ year)))

/-- The leap days of a year: one or none. -/
def leapDays (year : Int) : Nat := if IsLeap year then 1 else 0

/-- How many days a month has. -/
def daysInMonth (year : Int) (month : Nat) : Nat :=
  if month = 2 then 28 + leapDays year else if month ∈ [4, 6, 9, 11] then 30 else 31

/-- The days from the first of January of the year 1 to that of another year. -/
def yearStart (year : Int) : Int :=
  365 * (year - 1) + (year - 1) / 4 - (year - 1) / 100 + (year - 1) / 400

/-- The days of a year before a month. -/
def monthStart (year : Int) (month : Nat) : Nat :=
  ((List.range' 1 (month - 1)).map (daysInMonth year)).sum

theorem leapDays_cases (year : Int) :
    IsLeap year ∧ leapDays year = 1 ∨ ¬IsLeap year ∧ leapDays year = 0 := by
  unfold leapDays
  by_cases h : IsLeap year
  · exact .inl ⟨h, if_pos h⟩
  · exact .inr ⟨h, if_neg h⟩

/-- Each year is as long as its leap days say. -/
theorem yearStart_succ (year : Int) :
    yearStart (year + 1) = yearStart year + 365 + leapDays year := by
  unfold yearStart
  rcases leapDays_cases year with ⟨hleap, hdays⟩ | ⟨hleap, hdays⟩
  · unfold IsLeap at hleap
    omega
  · unfold IsLeap at hleap
    omega

theorem yearStart_mono {a b : Int} (h : a ≤ b) : yearStart a ≤ yearStart b := by
  unfold yearStart
  omega

theorem monthStart_succ (year : Int) {month : Nat} (h : 1 ≤ month) :
    monthStart year (month + 1) = monthStart year month + daysInMonth year month := by
  obtain ⟨m, rfl⟩ := Nat.exists_eq_add_of_le' h
  simp [monthStart, List.range'_1_concat, Nat.add_comm]

/-- How long the months from March to December are. -/
theorem daysInMonth_add_three (year : Int) {m : Nat} (h : m < 10) :
    (153 * m + 2) / 5 + daysInMonth year (m + 3) = (153 * (m + 1) + 2) / 5 := by
  interval_cases m <;> rfl

/-- They begin after the same days of the year that begins in March. -/
theorem monthStart_add_three (year : Int) {m : Nat} (h : m < 10) :
    monthStart year (m + 3) = 59 + leapDays year + (153 * m + 2) / 5 := by
  induction m with
  | zero =>
    show 31 + (28 + leapDays year + 0) = _
    omega
  | succ m ih =>
    have hstart := ih (by omega)
    have hlength := daysInMonth_add_three year (show m < 10 by omega)
    have hnext : monthStart year (m + 1 + 3) = monthStart year (m + 3) + daysInMonth year (m + 3) :=
      monthStart_succ year (Nat.le_add_left 1 (m + 2))
    omega

/-- The twelve months make up the year. -/
theorem monthStart_end (year : Int) : monthStart year 13 = 365 + leapDays year := by
  have hstart : monthStart year 12 = 59 + leapDays year + 275 :=
    monthStart_add_three year (show 9 < 10 by decide)
  have hlength : daysInMonth year 12 = 31 := rfl
  rw [monthStart_succ year (by decide)]
  omega

theorem monthStart_mono (year : Int) {a b : Nat} (ha : 1 ≤ a) (h : a ≤ b) :
    monthStart year a ≤ monthStart year b := by
  induction h with
  | refl => exact Nat.le_refl _
  | step hle ih =>
    rw [monthStart_succ year (Nat.le_trans ha hle)]
    exact Nat.le_add_right_of_le ih

/-! ## Dates -/

namespace Date

/-- The number of a date: the days from the first of January 1970, which are counted over whole
years, whole months and days. -/
def number (date : Date) : Int :=
  yearStart date.year + monthStart date.year date.month + (date.day - 1) - 719162

/-- A date of the calendar. -/
structure IsReal (date : Date) : Prop where
  month_pos : 1 ≤ date.month
  month_le : date.month ≤ 12
  day_pos : 1 ≤ date.day
  day_le : date.day ≤ daysInMonth date.year date.month

theorem isReal_iff {year : Int} {month day : Nat} :
    IsReal { year, month, day } ↔
      1 ≤ month ∧ month ≤ 12 ∧ 1 ≤ day ∧ day ≤ daysInMonth year month :=
  ⟨fun ⟨hmonth, hmonth', hday, hday'⟩ => ⟨hmonth, hmonth', hday, hday'⟩,
    fun ⟨hmonth, hmonth', hday, hday'⟩ => ⟨hmonth, hmonth', hday, hday'⟩⟩

/-- The name of the day of the week; the first of January of the year 1 was a Monday. -/
def dayName (date : Date) : String :=
  ["Mon", "Tue", "Wed", "Thu", "Fri", "Sat", "Sun"].getD ((date.number + 719162) % 7).toNat ""

/-- The next day. -/
def next (date : Date) : Date :=
  if date.day < daysInMonth date.year date.month then { date with day := date.day + 1 }
  else if date.month < 12 then { date with month := date.month + 1, day := 1 }
  else { year := date.year + 1, month := 1, day := 1 }

theorem number_epoch : number { year := 1970, month := 1, day := 1 } = 0 := by decide

/-- The next day has the next number. -/
theorem number_next {date : Date} (h : date.IsReal) : date.next.number = date.number + 1 := by
  obtain ⟨hmonth, hmonth', hday, hday'⟩ := h
  unfold next
  split_ifs with hwithin hbefore
  · simp only [number]
    omega
  · -- The last day of a month, but not of December.
    simp only [number, monthStart_succ _ hmonth]
    omega
  · have htwelve : date.month = 12 := by omega
    have hyear := monthStart_end date.year
    rw [monthStart_succ _ (by omega), ← htwelve] at hyear
    have hfirst : monthStart (date.year + 1) 1 = 0 := rfl
    simp only [number, yearStart_succ, hfirst]
    omega

end Date

/-! ## Years that begin in March -/

/-- The year of an era that a day of the era falls in, the first year being 0. -/
def yearOfEra (dayOfEra : Nat) : Nat :=
  (dayOfEra - dayOfEra / 1460 + dayOfEra / 36524 - dayOfEra / 146096) / 365

/-- A day of an era, cut into centuries, spans of four years, years and days. A year of 366 days is
the last one of its span, and in the last span of a century only if that is the last century. -/
theorem exists_parts {dayOfEra : Nat} (h : dayOfEra < 146097) :
    ∃ century span year day : Nat,
      dayOfEra = 36524 * century + 1461 * span + 365 * year + day ∧
      century ≤ 3 ∧ span ≤ 24 ∧ year ≤ 3 ∧ day ≤ 365 ∧
      (day = 365 → year = 3 ∧ (span < 24 ∨ century = 3)) := by
  obtain ⟨century, hcentury⟩ : ∃ n, n = min (dayOfEra / 36524) 3 := ⟨_, rfl⟩
  obtain ⟨rest, hrest⟩ : ∃ n, n = dayOfEra - 36524 * century := ⟨_, rfl⟩
  obtain ⟨year, hyear⟩ : ∃ n, n = min (rest % 1461 / 365) 3 := ⟨_, rfl⟩
  have hwhole : dayOfEra = 36524 * century + rest := by omega
  have hbound : rest ≤ 36524 ∧ (century < 3 → rest < 36524) := by omega
  have hspan : rest = 1461 * (rest / 1461) + 365 * year + (rest % 1461 - 365 * year) := by omega
  exact ⟨century, rest / 1461, year, rest % 1461 - 365 * year, by omega⟩

/-- The year that a day of an era falls in. -/
theorem yearOfEra_parts {century span year day : Nat} (hcentury : century ≤ 3) (hspan : span ≤ 24)
    (hyear : year ≤ 3) (hday : day ≤ 365)
    (hlast : day = 365 → year = 3 ∧ (span < 24 ∨ century = 3)) :
    yearOfEra (36524 * century + 1461 * span + 365 * year + day) =
      100 * century + 4 * span + year := by
  unfold yearOfEra
  generalize hwhole : 36524 * century + 1461 * span + 365 * year + day = dayOfEra
  -- The quotients count the leap days so far, or one more shortly before the next one.
  have hspans : dayOfEra / 1460 = 25 * century + span ∨
      dayOfEra / 1460 = 25 * century + span + 1 := by omega
  have hcenturies : dayOfEra / 36524 = century ∧ dayOfEra / 146096 = 0 ∨
      dayOfEra / 36524 = 4 ∧ dayOfEra / 146096 = 1 ∧ dayOfEra = 146096 := by omega
  rcases hcenturies with ⟨hquotient, hzero⟩ | ⟨hquotient, hone, hend⟩
  · rcases hspans with hspans | hspans
    · have hnot : day ≠ 365 := by omega
      omega
    · omega
  · omega

/-- A day of an era is a day of the year that it falls in, and the last one of 366 only if the next
January is one of a leap year. -/
theorem exists_dayOfYear {dayOfEra : Nat} (h : dayOfEra < 146097) (era : Int) :
    ∃ day : Nat, dayOfEra = 365 * yearOfEra dayOfEra + yearOfEra dayOfEra / 4 -
        yearOfEra dayOfEra / 100 + day ∧
      yearOfEra dayOfEra < 400 ∧
      day < 365 + leapDays (era * 400 + yearOfEra dayOfEra + 1) := by
  obtain ⟨century, span, year, day, hwhole, hcentury, hspan, hyear, hday, hlast⟩ := exists_parts h
  have hyears : yearOfEra dayOfEra = 100 * century + 4 * span + year := by
    rw [hwhole]
    exact yearOfEra_parts hcentury hspan hyear hday hlast
  have hspans : yearOfEra dayOfEra / 4 = 25 * century + span := by omega
  have hcenturies : yearOfEra dayOfEra / 100 = century := by omega
  refine ⟨day, by omega, by omega, ?_⟩
  rcases leapDays_cases (era * 400 + yearOfEra dayOfEra + 1) with ⟨-, hdays⟩ | ⟨hleap, hdays⟩
  · omega
  · unfold IsLeap at hleap
    omega

/-- The first of January after so many years of an era. -/
theorem yearStart_era (era : Int) (year : Nat) (h : year < 400) :
    yearStart (era * 400 + year + 1) =
      146097 * era + (365 * year + year / 4 - year / 100 : Nat) := by
  unfold yearStart
  have hquarters : (era * 400 + year + 1 - 1) / 4 = 100 * era + (year / 4 : Nat) := by omega
  have hcenturies : (era * 400 + year + 1 - 1) / 100 = 4 * era + (year / 100 : Nat) := by omega
  have heras : (era * 400 + year + 1 - 1) / 400 = era := by omega
  omega

namespace Date

/-- The date of a day of the year that begins in March. -/
def ofMarch (year : Int) (dayOfYear : Nat) : Date :=
  let shiftedMonth := (5 * dayOfYear + 2) / 153
  let month := if shiftedMonth < 10 then shiftedMonth + 3 else shiftedMonth - 9
  { year := year + if month ≤ 2 then 1 else 0
    month
    day := dayOfYear - (153 * shiftedMonth + 2) / 5 + 1 }

/-- A day of a year that begins in March has a date, with the number that it should have. -/
theorem ofMarch_spec {year : Int} {dayOfYear : Nat} (h : dayOfYear < 365 + leapDays (year + 1)) :
    (ofMarch year dayOfYear).IsReal ∧
      (ofMarch year dayOfYear).number = yearStart (year + 1) + dayOfYear - 719468 := by
  have hleap := leapDays_cases (year + 1)
  unfold ofMarch
  generalize hm : (5 * dayOfYear + 2) / 153 = m
  have hbound : m ≤ 11 := by omega
  by_cases hlt : m < 10
  · have hlate : ¬m + 3 ≤ 2 := by omega
    have hstart := monthStart_add_three year hlt
    have hdays := daysInMonth_add_three year hlt
    simp only [hlt, if_true, hlate, if_false, Int.add_zero, isReal_iff, number, hstart,
      yearStart_succ]
    omega
  · -- January and February belong to the next year; only in February leap days matter.
    obtain rfl | rfl : m = 10 ∨ m = 11 := by omega
    · show IsReal ⟨year + 1, 1, dayOfYear - 306 + 1⟩ ∧ number ⟨year + 1, 1, dayOfYear - 306 + 1⟩ = _
      have hmonth : daysInMonth (year + 1) 1 = 31 := rfl
      have hfirst : monthStart (year + 1) 1 = 0 := rfl
      simp only [isReal_iff, number, hfirst]
      omega
    · show IsReal ⟨year + 1, 2, dayOfYear - 337 + 1⟩ ∧ number ⟨year + 1, 2, dayOfYear - 337 + 1⟩ = _
      have hmonth : daysInMonth (year + 1) 2 = 28 + leapDays (year + 1) := rfl
      have hfirst : monthStart (year + 1) 2 = 31 := rfl
      simp only [isReal_iff, number, hfirst]
      omega

/-! ## The date of a day -/

/-- **The date of a day is the date of the calendar that has its number.** -/
theorem ofDays_spec (days : Int) : (ofDays days).IsReal ∧ (ofDays days).number = days := by
  obtain ⟨shifted, hshifted⟩ : ∃ n, n = days + epochShift := ⟨_, rfl⟩
  obtain ⟨dayOfEra, hdayOfEra⟩ : ∃ n, n = (shifted % daysPerEra).toNat := ⟨_, rfl⟩
  unfold epochShift at hshifted
  unfold daysPerEra at hdayOfEra
  have hlt : dayOfEra < 146097 := by omega
  obtain ⟨day, hday, hyear, hlast⟩ := exists_dayOfYear hlt (shifted / 146097)
  have hdate : ofDays days = ofMarch (shifted / 146097 * 400 + yearOfEra dayOfEra) day := by
    have hrest : day = dayOfEra - (365 * yearOfEra dayOfEra + yearOfEra dayOfEra / 4 -
        yearOfEra dayOfEra / 100) := by omega
    rw [hrest, hdayOfEra, hshifted]
    rfl
  obtain ⟨hreal, hnumber⟩ := ofMarch_spec hlast
  rw [hdate]
  refine ⟨hreal, hnumber.trans ?_⟩
  rw [yearStart_era _ _ hyear]
  omega

/-- The day of a date is its number. -/
theorem toDays_eq_number {date : Date} (h : date.IsReal) : date.toDays = date.number := by
  obtain ⟨hmonth, hmonth', hday, -⟩ := h
  obtain ⟨year, month, day⟩ := date
  dsimp only at hmonth hmonth' hday
  by_cases hlate : 2 < month
  · obtain ⟨m, rfl⟩ := Nat.exists_eq_add_of_le' hlate
    have hstart := monthStart_add_three year (show m < 10 by omega)
    have hyear := yearStart_era (year / 400) (year % 400).toNat (by omega)
    have hnext := yearStart_succ year
    have hwhole : year / 400 * 400 + (year % 400).toNat + 1 = year + 1 := by omega
    have hnot : ¬m + 3 ≤ 2 := by omega
    rw [hwhole] at hyear
    unfold toDays daysPerEra epochShift
    simp only [number, hstart, hlate, if_true, hnot, if_false]
    omega
  · have hyear := yearStart_era ((year - 1) / 400) ((year - 1) % 400).toNat (by omega)
    have hwhole : (year - 1) / 400 * 400 + ((year - 1) % 400).toNat + 1 = year := by omega
    rw [hwhole] at hyear
    unfold toDays daysPerEra epochShift
    obtain rfl | rfl : month = 1 ∨ month = 2 := by omega
    · have hfirst : monthStart year 1 = 0 := rfl
      simp only [number, hfirst, Nat.one_le_ofNat, Nat.not_ofNat_lt_one, if_true, if_false]
      omega
    · have hfirst : monthStart year 2 = 31 := rfl
      simp only [number, hfirst, Nat.le_refl, Nat.lt_irrefl, if_true, if_false]
      omega

end Date

theorem weekday_eq_dayName (days : Int) : weekday days = (Date.ofDays days).dayName := by
  unfold weekday Date.dayName
  rw [(Date.ofDays_spec days).2]
  obtain ⟨i, hi, hdays⟩ : ∃ i : Nat, i < 7 ∧ days % 7 = i := ⟨(days % 7).toNat, by omega, by omega⟩
  have hshifted : (days + 719162) % 7 = ((i + 3) % 7 : Nat) := by omega
  rw [hdays, hshifted, Int.toNat_natCast, Int.toNat_natCast]
  interval_cases i <;> rfl

/-! ## The range of dates -/

namespace Date

/-- A date lies within its year. -/
theorem IsReal.number_bounds {date : Date} (h : date.IsReal) :
    yearStart date.year ≤ date.number + 719162 ∧
      date.number + 719162 < yearStart (date.year + 1) := by
  have hend := monthStart_mono date.year (Nat.le_add_left 1 date.month)
    (Nat.succ_le_succ h.month_le)
  rw [monthStart_succ _ h.month_pos, monthStart_end] at hend
  have hday := h.day_pos
  have hday' := h.day_le
  rw [yearStart_succ]
  unfold number
  omega

/-- A date is in a year or after it if and only if it is not before the first day of the year. -/
theorem IsReal.le_year_iff {date : Date} (h : date.IsReal) (year : Int) :
    year ≤ date.year ↔ yearStart year ≤ date.number + 719162 := by
  obtain ⟨hstart, hend⟩ := h.number_bounds
  by_cases hle : year ≤ date.year
  · have hmono := yearStart_mono hle
    omega
  · have hmono := yearStart_mono (show date.year + 1 ≤ year by omega)
    omega

end Date

/-- The day of an instant, by universal time, is one of the days that dates are written for: from
the first of January -262143 to the last of December 262142. -/
def Covered (seconds : Int) : Prop :=
  Date.number { year := -262143, month := 1, day := 1 } ≤ seconds / secondsPerDay ∧
    seconds / secondsPerDay ≤ Date.number { year := 262142, month := 12, day := 31 }

theorem inRange_iff {seconds : Int} : inRange seconds = true ↔ Covered seconds := by
  have hfirst : yearStart (-262143) - 719162 =
      Date.number { year := -262143, month := 1, day := 1 } := by decide
  have hlast : yearStart (262142 + 1) - 719163 =
      Date.number { year := 262142, month := 12, day := 31 } := by decide
  obtain ⟨hreal, hnumber⟩ := Date.ofDays_spec (seconds / secondsPerDay)
  have hfrom := hreal.le_year_iff (-262143)
  have hbehind := hreal.le_year_iff (262142 + 1)
  unfold inRange yearRange Covered
  rw [hnumber] at hfrom hbehind
  rw [Bool.and_eq_true, decide_eq_true_eq, decide_eq_true_eq]
  omega

end CommitReports.Calendar
