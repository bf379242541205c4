import Mathlib.Tactic.IntervalCases
import SnapshotStore.Time.Calendar

/-!
The days of the calendar and their numbers. A day of a period of 400 years is counted in centuries,
in runs of four years, in years and in days; the last day of each longer unit is the one that the
next shorter ones do not reach. Main statements: each number is that of its day (`toDays_ofDays`),
and that day exists (`isValid_ofDays`).
-/

namespace SnapshotStore.Calendar

/-- A day of a period in centuries, runs of four years, years and days, all counted from zero. -/
structure Place (day : Int) where
  century : Int
  run : Int
  year : Int
  dayOfYear : Int
  day_eq : day = 36524 * century + 1461 * run + 365 * year + dayOfYear
  century_range : 0 ≤ century ∧ century ≤ 3
  run_range : 0 ≤ run ∧ run ≤ 24
  year_range : 0 ≤ year ∧ year ≤ 3
  dayOfYear_range : 0 ≤ dayOfYear ∧ dayOfYear ≤ 365
  /-- Only the last year of a run has 366 days, and not that of a century unless it ends the
  period. -/
  leap : dayOfYear = 365 → year = 3 ∧ (run = 24 → century = 3)

/-- Each day of a period has a place. -/
theorem exists_place {day : Int} (h0 : 0 ≤ day) (h1 : day < 146097) : Nonempty (Place day) := by
  by_cases last : day = 146096
  · exact ⟨⟨3, 24, 3, 365, by omega, by omega, by omega, by omega, by omega, by omega⟩⟩
  by_cases leap : day % 36524 % 1461 = 1460
  · exact ⟨⟨day / 36524, day % 36524 / 1461, 3, 365, by omega, by omega, by omega, by omega, by omega,
      by omega⟩⟩
  · exact ⟨⟨day / 36524, day % 36524 / 1461, day % 36524 % 1461 / 365, day % 36524 % 1461 % 365,
      by omega, by omega, by omega, by omega, by omega, by omega⟩⟩

namespace Place

variable {day : Int} (p : Place day)

/-- The year of the period. -/
def yearOfPeriod : Int := 100 * p.century + 4 * p.run + p.year

theorem yearOfPeriod_eq :
    (day - day / 1460 + day / 36524 - day / 146096) / 365 = p.yearOfPeriod := by
  obtain ⟨c, q, y, d, rfl, hc, hq, hy, hd, leap⟩ := p
  show _ = 100 * c + 4 * q + y
  by_cases last : c = 3 ∧ q = 24 ∧ y = 3 ∧ d = 365
  · obtain ⟨rfl, rfl, rfl, rfl⟩ := last
    rfl
  have centuries : (36524 * c + 1461 * q + 365 * y + d) / 36524 = c := by omega
  have periods : (36524 * c + 1461 * q + 365 * y + d) / 146096 = 0 := by omega
  rw [centuries, periods]
  by_cases late : 1460 ≤ 24 * c + q + 365 * y + d
  · have runs : (36524 * c + 1461 * q + 365 * y + d) / 1460 = 25 * c + q + 1 := by omega
    rw [runs]
    omega
  · have runs : (36524 * c + 1461 * q + 365 * y + d) / 1460 = 25 * c + q := by omega
    rw [runs]
    omega

theorem dayOfYear_eq :
    day - (365 * p.yearOfPeriod + p.yearOfPeriod / 4 - p.yearOfPeriod / 100) = p.dayOfYear := by
  obtain ⟨c, q, y, d, rfl, hc, hq, hy, hd, leap⟩ := p
  show _ - (365 * (100 * c + 4 * q + y) + (100 * c + 4 * q + y) / 4 - (100 * c + 4 * q + y) / 100) = d
  omega

end Place

/-- The date of a day of a year, both counted from March. -/
def ofYearDay (year dayOfYear : Int) : Date :=
  let monthFromMarch := (5 * dayOfYear + 2) / 153
  let day := (dayOfYear - (153 * monthFromMarch + 2) / 5 + 1).toNat
  let month :=
    if monthFromMarch < 10 then (monthFromMarch + 3).toNat else (monthFromMarch - 9).toNat
  ⟨if month ≤ 2 then year + 1 else year, month, day⟩

/-- The month of a day of a year, and its day. -/
theorem ofYearDay_cases (year : Int) {day : Int} (h0 : 0 ≤ day) (h1 : day ≤ 365) :
    ∃ (month : Int) (dayOfMonth : Nat), 0 ≤ month ∧ month ≤ 11 ∧
      (dayOfMonth : Int) = day - (153 * month + 2) / 5 + 1 ∧ 1 ≤ dayOfMonth ∧
      day < (153 * (month + 1) + 2) / 5 ∧
      ofYearDay year day =
        if month < 10 then ⟨year, (month + 3).toNat, dayOfMonth⟩
        else ⟨year + 1, (month - 9).toNat, dayOfMonth⟩ := by
  refine ⟨(5 * day + 2) / 153, (day - (153 * ((5 * day + 2) / 153) + 2) / 5 + 1).toNat, by omega,
    by omega, by omega, by omega, by omega, ?_⟩
  rw [ofYearDay]
  by_cases late : (5 * day + 2) / 153 < 10
  · rw [if_pos late, if_pos late, if_neg (by omega)]
  · rw [if_neg late, if_neg late, if_pos (by omega)]

theorem toDays_ofYearDay {year day : Int} (period : Int) (hy : 0 ≤ year ∧ year < 400)
    (h0 : 0 ≤ day) (h1 : day ≤ 365) :
    toDays (ofYearDay (year + period * 400) day) =
      period * 146097 + (year * 365 + year / 4 - year / 100 + day) - 719468 := by
  obtain ⟨month, dayOfMonth, hm0, hm1, hd, -, -, eq⟩ := ofYearDay_cases (year + period * 400) h0 h1
  have shifted : ∀ date : Date, (if date.month ≤ 2 then date.year - 1 else date.year) =
      year + period * 400 → ((date.month : Int) + 9) % 12 = month → date.day = dayOfMonth →
      toDays date = period * 146097 + (year * 365 + year / 4 - year / 100 + day) - 719468 := by
    intro date year_eq month_eq day_eq
    have period_eq : (year + period * 400).fdiv 400 = period := by
      rw [Int.fdiv_eq_ediv_of_nonneg _ (by decide)]
      omega
    have rest : year + period * 400 - period * 400 = year := by omega
    rw [toDays]
    simp only [year_eq, month_eq, day_eq, period_eq, rest]
    omega
  rw [eq]
  by_cases late : month < 10
  · rw [if_pos late]
    exact shifted _ (if_neg (by show ¬(month + 3).toNat ≤ 2; omega))
      (by show (((month + 3).toNat : Int) + 9) % 12 = month; omega) rfl
  · rw [if_neg late]
    refine shifted _ ?_ (by show (((month - 9).toNat : Int) + 9) % 12 = month; omega) rfl
    rw [if_pos (by show (month - 9).toNat ≤ 2; omega)]
    show year + period * 400 + 1 - 1 = _
    omega

/-- The number of a day in terms of its place in its period. -/
theorem exists_ofYearDay (days : Int) : ∃ (period : Int) (p : Place (days + 719468 - period * 146097)),
    ofDays days = ofYearDay (p.yearOfPeriod + period * 400) p.dayOfYear := by
  have h0 : 0 ≤ days + 719468 - (days + 719468).fdiv 146097 * 146097 := by
    rw [Int.fdiv_eq_ediv_of_nonneg _ (by decide)]
    omega
  have h1 : days + 719468 - (days + 719468).fdiv 146097 * 146097 < 146097 := by
    rw [Int.fdiv_eq_ediv_of_nonneg _ (by decide)]
    omega
  obtain ⟨p⟩ := exists_place h0 h1
  refine ⟨_, p, ?_⟩
  rw [ofDays]
  simp only [p.yearOfPeriod_eq, p.dayOfYear_eq]
  rfl

/-- Each number is that of its day. -/
theorem toDays_ofDays (days : Int) : toDays (ofDays days) = days := by
  obtain ⟨period, p, eq⟩ := exists_ofYearDay days
  have year : 0 ≤ p.yearOfPeriod ∧ p.yearOfPeriod < 400 := by
    obtain ⟨c, q, y, d, -, hc, hq, hy, -, -⟩ := p
    show 0 ≤ 100 * c + 4 * q + y ∧ 100 * c + 4 * q + y < 400
    omega
  have day := p.dayOfYear_eq
  rw [eq, toDays_ofYearDay period year p.dayOfYear_range.1 p.dayOfYear_range.2]
  omega

/-- A year from March on with 366 days ends in a leap year. -/
theorem Place.isLeap {day : Int} (p : Place day) (h : p.dayOfYear = 365) (period : Int) :
    isLeap (p.yearOfPeriod + period * 400 + 1) = true := by
  obtain ⟨last, ends⟩ := p.leap h
  have year : p.yearOfPeriod = 100 * p.century + 4 * p.run + p.year := rfl
  have run := p.run_range
  rw [Calendar.isLeap, Bool.and_eq_true, Bool.or_eq_true, decide_eq_true_eq, decide_eq_true_eq,
    decide_eq_true_eq]
  omega

/-- The day of a number exists. -/
theorem isValid_ofDays (days : Int) : (ofDays days).isValid = true := by
  obtain ⟨period, p, eq⟩ := exists_ofYearDay days
  have range := p.dayOfYear_range
  have leap := p.isLeap
  obtain ⟨month, day, hm0, hm1, hd, one, next, date⟩ :=
    ofYearDay_cases (p.yearOfPeriod + period * 400) range.1 range.2
  rw [eq, date]
  by_cases late : month = 11
  · -- February, whose length depends on the year.
    subst late
    rw [if_neg (by decide)]
    by_cases last : p.dayOfYear = 365
    · have fits : day ≤ 29 := by omega
      simp [Date.isValid, monthLength, leap last period, one, fits]
    · have fits : day ≤ 28 := by omega
      by_cases hl : isLeap (p.yearOfPeriod + period * 400 + 1) = true
      · simp [Date.isValid, monthLength, hl, one, show day ≤ 29 by omega]
      · simp [Date.isValid, monthLength, hl, one, fits]
  · have short : ∀ length : Nat, (153 * (month + 1) + 2) / 5 - (153 * month + 2) / 5 ≤ length →
        day ≤ length := by
      intro length hl
      omega
    interval_cases month <;>
      simp [Date.isValid, monthLength, one] <;> first | exact short _ (by decide) | omega

/-- The month and the day of a date have two digits at most. -/
theorem lt_of_isValid {date : Date} (h : date.isValid = true) :
    date.month < 100 ∧ date.day < 100 := by
  obtain ⟨year, month, day⟩ := date
  have length : monthLength year month ≤ 31 := by
    unfold monthLength
    split
    · split <;> decide
    all_goals decide
  simp only [Date.isValid, Bool.and_eq_true, decide_eq_true_eq] at h ⊢
  omega

end SnapshotStore.Calendar
