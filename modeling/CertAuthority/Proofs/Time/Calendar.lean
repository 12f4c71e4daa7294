import CertAuthority.Time.Calendar
import Mathlib.Tactic.IntervalCases

/-!
# Every day has a date

The date of a day is one of the calendar, and it is the date of no other day.
-/

namespace CertAuthority.Date

/-- The day of a year that begins in March, counted from zero. -/
def ofMarchYear (year : Int) (dayOfYear : Nat) : Date :=
  let monthFromMarch := (5 * dayOfYear + 2) / 153
  let month := if monthFromMarch < 10 then monthFromMarch + 3 else monthFromMarch - 9
  ⟨if month ≤ 2 then year + 1 else year, month, dayOfYear - (153 * monthFromMarch + 2) / 5 + 1⟩

/-- A day of the calendar in centuries, groups of four years, years and days, the first year of
which begins in a March.  Four centuries and four years have a day more than their parts. -/
structure IsSplit (day : Nat) (century group year dayOfYear : Nat) : Prop where
  eq : day = 36524 * century + 1461 * group + 365 * year + dayOfYear
  century_le : century ≤ 3
  group_le : group ≤ 24
  year_le : year ≤ 3
  dayOfYear_le : dayOfYear ≤ 364 ∨
    (dayOfYear = 365 ∧ year = 3 ∧ (group < 24 ∨ century = 3))

theorem exists_isSplit {day : Nat} (hday : day < 146097) :
    ∃ century group year dayOfYear, IsSplit day century group year dayOfYear := by
  have hcentury : ∃ century ofCentury, day = 36524 * century + ofCentury ∧ century ≤ 3 ∧
      (ofCentury < 36524 ∨ (ofCentury = 36524 ∧ century = 3)) :=
    ⟨min (day / 36524) 3, day - 36524 * min (day / 36524) 3, by omega, by omega, by omega⟩
  obtain ⟨century, ofCentury, hsplit, hcentury, hbound⟩ := hcentury
  have hyear : ∃ year dayOfYear, ofCentury % 1461 = 365 * year + dayOfYear ∧ year ≤ 3 ∧
      (dayOfYear ≤ 364 ∨ (dayOfYear = 365 ∧ year = 3)) :=
    ⟨min (ofCentury % 1461 / 365) 3, ofCentury % 1461 - 365 * min (ofCentury % 1461 / 365) 3,
      by omega, by omega, by omega⟩
  obtain ⟨year, dayOfYear, hgroup, hyear, hlast⟩ := hyear
  exact ⟨century, ofCentury / 1461, year, dayOfYear, by omega, hcentury, by omega, hyear,
    by omega⟩

section Split

variable {day century group year dayOfYear : Nat}

/-- The year that is computed from a day of an era. -/
theorem IsSplit.yearOfEra (hsplit : IsSplit day century group year dayOfYear) :
    (day - day / 1460 + day / 36524 - day / 146096) / 365 = 100 * century + 4 * group + year := by
  obtain ⟨rfl, hcentury, hgroup, hyear, hlast⟩ := hsplit
  generalize hday : 36524 * century + 1461 * group + 365 * year + dayOfYear = day
  -- The last days of a group of four years may count as one more part of 1460 days.
  have hgroups : (day / 1460 = 25 * century + group ∧ dayOfYear ≤ 364) ∨
      (day / 1460 = 25 * century + group + 1 ∧ 1 ≤ dayOfYear) := by
    omega
  have hcenturies : day / 36524 = century + day / 146096 := by
    rcases Nat.lt_or_ge day 146096 with hearlier | hfinal
    · rw [Nat.div_eq_of_lt hearlier, Nat.add_zero]
      exact Nat.div_eq_of_lt_le (by omega) (by omega)
    · have hend : day = 146096 ∧ century = 3 := by omega
      rw [hend.1, hend.2]
  have hpast : ∃ rest, day - day / 1460 + day / 36524 - day / 146096 =
      rest + 365 * (100 * century + 4 * group + year) ∧ rest ≤ 364 := by
    rcases hgroups with ⟨hgroups, hfirst⟩ | ⟨hgroups, hlater⟩
    · exact ⟨dayOfYear, by omega, hfirst⟩
    · exact ⟨dayOfYear - 1, by omega, by omega⟩
  obtain ⟨rest, hpast, hrest⟩ := hpast
  rw [hpast, Nat.add_mul_div_left _ _ (by decide), Nat.div_eq_of_lt (Nat.lt_succ_of_le hrest),
    Nat.zero_add]

theorem IsSplit.dayOfYear_eq (hsplit : IsSplit day century group year dayOfYear) :
    day - (365 * (100 * century + 4 * group + year) + (100 * century + 4 * group + year) / 4 -
      (100 * century + 4 * group + year) / 100) = dayOfYear := by
  obtain ⟨rfl, hcentury, hgroup, hyear, hlast⟩ := hsplit
  omega

end Split

/-- The date of a day by the March year that it lies in. -/
theorem exists_ofDays_eq (days : Int) :
    ∃ (era : Int) (century group year dayOfYear : Nat) (day : Nat),
      days + 719468 = era * 146097 + day ∧ IsSplit day century group year dayOfYear ∧
      ofDays days = ofMarchYear (era * 400 + (100 * century + 4 * group + year : Nat)) dayOfYear := by
  have hbound : ((days + 719468) - (days + 719468) / 146097 * 146097).toNat < 146097 := by
    omega
  obtain ⟨century, group, year, dayOfYear, hsplit⟩ := exists_isSplit hbound
  refine ⟨(days + 719468) / 146097, century, group, year, dayOfYear, _, ?_, hsplit, ?_⟩
  · omega
  · simp only [ofDays, hsplit.yearOfEra, hsplit.dayOfYear_eq, ofMarchYear]

/-- The month and the day of the month.  The months from March on take 153 days in every five, in
turns of 31 and 30. -/
theorem exists_ofMarchYear_eq (year : Int) {dayOfYear : Nat} (hday : dayOfYear ≤ 365) :
    ∃ month day, month ≤ 11 ∧ 1 ≤ day ∧ dayOfYear + 1 = (153 * month + 2) / 5 + day ∧
      day ≤ (153 * (month + 1) + 2) / 5 - (153 * month + 2) / 5 ∧
      ofMarchYear year dayOfYear =
        if month < 10 then ⟨year, month + 3, day⟩ else ⟨year + 1, month - 9, day⟩ := by
  refine ⟨(5 * dayOfYear + 2) / 153, dayOfYear - (153 * ((5 * dayOfYear + 2) / 153) + 2) / 5 + 1,
    by omega, by omega, by omega, by omega, ?_⟩
  unfold ofMarchYear
  by_cases hearly : (5 * dayOfYear + 2) / 153 < 10
  · have hmonth : ¬ (5 * dayOfYear + 2) / 153 + 3 ≤ 2 := by omega
    simp only [if_pos hearly, if_neg hmonth]
  · have hmonth : (5 * dayOfYear + 2) / 153 - 9 ≤ 2 := by omega
    simp only [if_neg hearly, if_pos hmonth]

theorem isValid_ofMarchYear {year : Int} {dayOfYear : Nat}
    (hday : dayOfYear ≤ 364 ∨ (dayOfYear = 365 ∧ isLeapYear (year + 1))) :
    (ofMarchYear year dayOfYear).isValid = true := by
  obtain ⟨month, day, hmonth, hfirst, hsum, hlength, hdate⟩ :=
    exists_ofMarchYear_eq year (show dayOfYear ≤ 365 by omega)
  rw [hdate]
  split
  · next hearly =>
      simp only [isValid, decide_eq_true_eq]
      refine ⟨by omega, by omega, hfirst, ?_⟩
      interval_cases month <;> simp only [daysInMonth] <;> omega
  · next hlate =>
      simp only [isValid, decide_eq_true_eq]
      refine ⟨by omega, by omega, hfirst, ?_⟩
      obtain rfl | rfl : month = 10 ∨ month = 11 := by omega
      · simp only [daysInMonth]
        omega
      · simp only [daysInMonth]
        split
        · omega
        · next hcommon =>
            have hshort : dayOfYear ≤ 364 := hday.resolve_right fun hlong => hcommon hlong.2
            omega

theorem bounds_of_isValid {date : Date} (hvalid : date.isValid = true) :
    date.month ≤ 12 ∧ date.day ≤ 31 := by
  simp only [isValid, decide_eq_true_eq] at hvalid
  obtain ⟨-, hmonth, -, hday⟩ := hvalid
  refine ⟨hmonth, hday.trans ?_⟩
  unfold daysInMonth
  split
  · split <;> decide
  all_goals decide

/-- A day of the calendar is a valid date. -/
theorem isValid_ofDays (days : Int) : (ofDays days).isValid = true := by
  obtain ⟨era, century, group, year, dayOfYear, day, -, hsplit, hdate⟩ := exists_ofDays_eq days
  obtain ⟨-, hcentury, hgroup, hyear, hlast⟩ := hsplit
  rw [hdate]
  apply isValid_ofMarchYear
  refine hlast.imp_right fun ⟨hday, hyear, hleap⟩ => ⟨hday, ?_⟩
  simp only [isLeapYear, decide_eq_true_eq]
  omega

/-- The date of a day gives the day back. -/
theorem toDays_ofDays (days : Int) : (ofDays days).toDays = days := by
  obtain ⟨era, century, group, year, dayOfYear, day, hdays, hsplit, hdate⟩ := exists_ofDays_eq days
  obtain ⟨rfl, hcentury, hgroup, hyear, hlast⟩ := hsplit
  obtain ⟨month, day, hmonth, hfirst, hsum, -, hmarch⟩ :=
    exists_ofMarchYear_eq (era * 400 + (100 * century + 4 * group + year : Nat))
      (show dayOfYear ≤ 365 by omega)
  rw [hdate, hmarch]
  split
  · next hearly =>
      have hlate : ¬ month + 3 ≤ 2 := by omega
      simp only [toDays, if_neg hlate]
      omega
  · next hlate =>
      have hearly : month - 9 ≤ 2 := by omega
      simp only [toDays, if_pos hearly]
      omega

theorem year_ofMarchYear (year : Int) {dayOfYear : Nat} (hday : dayOfYear ≤ 365) :
    (ofMarchYear year dayOfYear).year = year + if dayOfYear ≤ 305 then 0 else 1 := by
  obtain ⟨month, day, hmonth, hfirst, hsum, hlength, hdate⟩ := exists_ofMarchYear_eq year hday
  rw [hdate]
  split
  · next hearly =>
      rw [if_pos (by omega), Int.add_zero]
  · next hlate =>
      rw [if_neg (by omega)]

/-- How many days come before a year that begins in March. -/
def marchYearStart (year : Int) : Int :=
  365 * year + year / 4 - year / 100 + year / 400

theorem marchYearStart_add_le {first second : Int} (hlt : first < second) :
    marchYearStart first + 365 ≤ marchYearStart second := by
  -- Of every hundred years at most one is no leap year though it is a fourth one.
  have hleaps : first / 4 - first / 100 ≤ second / 4 - second / 100 := by omega
  simp only [marchYearStart]
  omega

theorem toDays_newYear (year : Int) :
    (Date.mk year 1 1).toDays + 719468 = marchYearStart (year - 1) + 306 := by
  have hearly : (1 : Nat) ≤ 2 := by decide
  simp only [toDays, if_pos hearly, marchYearStart]
  omega

/-- A day lies in its March year. -/
theorem exists_ofDays_ofMarchYear (days : Int) :
    ∃ year dayOfYear, ofDays days = ofMarchYear year dayOfYear ∧ dayOfYear ≤ 365 ∧
      days + 719468 = marchYearStart year + dayOfYear ∧
      days + 719468 < marchYearStart (year + 1) := by
  obtain ⟨era, century, group, year, dayOfYear, day, hdays, hsplit, hdate⟩ := exists_ofDays_eq days
  obtain ⟨rfl, hcentury, hgroup, hyear, hlast⟩ := hsplit
  refine ⟨_, dayOfYear, hdate, by omega, ?_, ?_⟩
  · simp only [marchYearStart]
    omega
  · simp only [marchYearStart]
    omega

/-- A day lies in a year or later if and only if it is the first day of that year or later. -/
theorem le_year_ofDays_iff (year days : Int) :
    year ≤ (ofDays days).year ↔ (Date.mk year 1 1).toDays ≤ days := by
  obtain ⟨marchYear, dayOfYear, hdate, hday, hdays, hbefore⟩ := exists_ofDays_ofMarchYear days
  have hnewYear := toDays_newYear year
  rw [hdate, year_ofMarchYear marchYear hday]
  obtain hearlier | heq | heq | hlater : year - 1 < marchYear ∨ year - 1 = marchYear ∨
      year - 1 = marchYear + 1 ∨ marchYear + 1 < year - 1 := by omega
  · have hstart := marchYearStart_add_le hearlier
    split <;> omega
  · rw [heq] at hnewYear
    split <;> omega
  · rw [heq] at hnewYear
    split <;> omega
  · have hstart := marchYearStart_add_le hlater
    split <;> omega

theorem year_ofDays (days : Int) :
    (1970 ≤ (ofDays days).year ↔ 0 ≤ days) ∧ ((ofDays days).year ≤ 9999 ↔ days ≤ 2932896) := by
  have hfirst : (Date.mk 1970 1 1).toDays = 0 := by decide
  have hend : (Date.mk 10000 1 1).toDays = 2932897 := by decide
  have hafter := le_year_ofDays_iff 10000 days
  rw [hend] at hafter
  exact ⟨by rw [le_year_ofDays_iff, hfirst], by omega⟩

end CertAuthority.Date
