import Mathlib.Tactic.IntervalCases
import Nawa.Lib.Calendar
import Nawa.Util.HttpTime

/-!
# The calendar of `gmtime_r` and `timegm`

Both count years from March. A day's number then is that of the calendar (`daysFromCivil_eq`), and
the fields of a timestamp are the one date and time of that number (`gmtime_seconds`).
-/

namespace Nawa.utils

open Lib.Calendar

/-! ## Years from March -/

/-- The first of March of a year, in days since 1970-01-01. -/
def marchFirst (year : Int) : Int := 365 * year + year / 4 - year / 100 + year / 400 - 719468

theorem daysBeforeMonth_two (year : Int) :
    daysBeforeMonth year 2 = if Leap year then 60 else 59 := by
  simp only [daysBeforeMonth, monthLength]
  split <;> rfl

theorem marchFirst_eq (year : Int) :
    marchFirst year = daysBeforeYear year + daysBeforeMonth year 2 := by
  rw [daysBeforeMonth_two]
  unfold marchFirst daysBeforeYear leapYearsBefore
  by_cases hleap : Leap year
  · rw [if_pos hleap]
    unfold Leap at hleap
    omega
  · rw [if_neg hleap]
    unfold Leap at hleap
    omega

/-- From March to the end of the year there are 306 days. -/
theorem daysBeforeYear_succ_march (year : Int) :
    daysBeforeYear (year + 1) = marchFirst year + 306 := by
  rw [daysBeforeYear_succ, marchFirst_eq, daysBeforeMonth_two, yearLength]
  split <;> omega

theorem monthLength_march (year : Int) {month : Nat} (hmarch : 2 ≤ month) (h : month < 12) :
    (153 * (month - 2) + 2) / 5 + monthLength year month = (153 * (month - 1) + 2) / 5 := by
  interval_cases month <;> rfl

/-- The months from March on, by the formula for them. -/
theorem daysBeforeMonth_march {year : Int} {month : Nat} (hmarch : 2 ≤ month) (h : month < 12) :
    daysBeforeMonth year month = daysBeforeMonth year 2 + (153 * (month - 2) + 2) / 5 := by
  induction month, hmarch using Nat.le_induction with
  | base => rfl
  | succ month hmarch ih =>
    rw [daysBeforeMonth, ih (by omega)]
    have hlength := monthLength_march year hmarch (by omega)
    omega

theorem daysFromCivil_march {year : Int} {mon mday : Nat} (h : 2 ≤ mon) :
    daysFromCivil year mon mday =
      marchFirst year + ((153 * (mon - 2) + 2) / 5 : Nat) + mday - 1 := by
  simp only [daysFromCivil, if_neg (Nat.not_lt.mpr h), Int.fdiv_eq_ediv_of_nonneg, Int.reduceLE,
    marchFirst]
  omega

theorem daysFromCivil_winter (year : Int) {mon : Nat} (mday : Nat) (h : mon < 2) :
    daysFromCivil (year + 1) mon mday =
      marchFirst year + ((153 * (mon + 10) + 2) / 5 : Nat) + mday - 1 := by
  simp only [daysFromCivil, if_pos h, Int.fdiv_eq_ediv_of_nonneg, Int.reduceLE, marchFirst,
    Int.add_sub_cancel]
  omega

/-- **`timegm` numbers the days as the calendar does.** -/
theorem daysFromCivil_eq (d : Date) : daysFromCivil d.year d.month d.day = d.dayNumber := by
  have hday := d.one_le_day
  rw [Date.dayNumber, Date.dayOfYear]
  by_cases hmarch : 2 ≤ d.month
  · rw [daysFromCivil_march hmarch, daysBeforeMonth_march hmarch d.month_lt, marchFirst_eq]
    omega
  · have hyear := daysBeforeYear_succ_march (d.year - 1)
    have hwinter := daysFromCivil_winter (d.year - 1) d.day (Nat.not_le.mp hmarch)
    rw [Int.sub_add_cancel] at hyear hwinter
    rw [hwinter, hyear]
    have hfirst : ∀ m < 2, daysBeforeMonth d.year m + 306 = (153 * (m + 10) + 2) / 5 := by
      intro m hm
      interval_cases m <;> rfl
    have hmonth := hfirst d.month (Nat.not_le.mp hmarch)
    omega

/-! ## Dates of day numbers -/

/-- A day of an era of 400 years from March: full centuries, four-year cycles and years are over,
and the last day of a leap year is the last of its cycle. -/
theorem exists_cycles {doe : Nat} (h : doe < 146097) :
    ∃ century cycle year doy, doe = 36524 * century + 1461 * cycle + 365 * year + doy ∧
      century ≤ 3 ∧ cycle ≤ 24 ∧ year ≤ 3 ∧ doy ≤ 365 ∧
      (doy = 365 → year = 3 ∧ (cycle < 24 ∨ century = 3)) := by
  obtain ⟨century, r, hcentury, hr, hdoe⟩ : ∃ century r, century ≤ 3 ∧
      (r < 36524 ∨ r = 36524 ∧ century = 3) ∧ doe = 36524 * century + r := by
    by_cases hlast : doe = 146096
    · exact ⟨3, 36524, by omega⟩
    · exact ⟨doe / 36524, doe % 36524, by omega⟩
  obtain ⟨year, doy, hyear, hdoy, hrest⟩ : ∃ year doy, year ≤ 3 ∧
      (doy < 365 ∨ doy = 365 ∧ year = 3) ∧ r % 1461 = 365 * year + doy := by
    by_cases hlast : r % 1461 = 1460
    · exact ⟨3, 365, by omega⟩
    · exact ⟨r % 1461 / 365, r % 1461 % 365, by omega⟩
  exact ⟨century, r / 1461, year, doy, by omega, hcentury, by omega, hyear, by omega, by omega⟩

/-- The computation of the year of an era. -/
theorem yearOfEra_eq {century cycle year doy : Nat} (hcentury : century ≤ 3) (hcycle : cycle ≤ 24)
    (hyear : year ≤ 3) (hdoy : doy ≤ 365)
    (hleap : doy = 365 → year = 3 ∧ (cycle < 24 ∨ century = 3)) {doe : Nat}
    (hdoe : doe = 36524 * century + 1461 * cycle + 365 * year + doy) :
    (doe - doe / 1460 + doe / 36524 - doe / 146096) / 365 = 100 * century + 4 * cycle + year := by
  have hcenturies : doe / 36524 - doe / 146096 = century ∧ doe / 146096 ≤ doe / 36524 := by omega
  have hcycles : doe / 1460 = 25 * century + cycle +
      (24 * century + cycle + 365 * year + doy) / 1460 := by omega
  omega

/-- The days of a month from March on, by the computation of the month. -/
theorem day_le_of_march (year : Int) {doy mp : Nat} (hmp : mp = (5 * doy + 2) / 153)
    (h : mp < 10) : doy - (153 * mp + 2) / 5 + 1 ≤ monthLength year (mp + 2) := by
  have hlength := monthLength_march year (Nat.le_add_left 2 mp) (by omega)
  have hnext : mp + 2 - 1 = mp + 1 := rfl
  rw [Nat.add_sub_cancel, hnext] at hlength
  omega

/-- The same for January and February, where the leap day is the last of the year. -/
theorem day_le_of_winter {year : Int} {doy mp : Nat} (hdoy : doy ≤ 365)
    (hleap : doy = 365 → Leap year) (hmp : mp = (5 * doy + 2) / 153) (h : ¬ mp < 10) :
    mp < 12 ∧ doy - (153 * mp + 2) / 5 + 1 ≤ monthLength year (mp - 10) := by
  refine ⟨by omega, ?_⟩
  obtain hjanuary | hfebruary : mp = 10 ∨ mp = 11 := by omega
  · rw [hjanuary]
    change _ ≤ 31
    omega
  · rw [hfebruary]
    change _ ≤ if Leap year then 29 else 28
    by_cases hlast : doy = 365
    · rw [if_pos (hleap hlast)]
      omega
    · split <;> omega

/-- The computation of month and day from the day of a year that begins in March. -/
theorem exists_date_march (year : Int) {doy : Nat} (hdoy : doy ≤ 365)
    (hleap : doy = 365 → Leap (year + 1)) {mp mon : Nat} (hmp : mp = (5 * doy + 2) / 153)
    (hmon : mon = if mp < 10 then mp + 2 else mp - 10) :
    ∃ d : Date, d.year = year + (if mon < 2 then 1 else 0) ∧ d.month = mon ∧
      d.day = doy - (153 * mp + 2) / 5 + 1 ∧ d.dayNumber = marchFirst year + doy := by
  have hone := Nat.le_add_left 1 (doy - (153 * mp + 2) / 5)
  by_cases hmarch : mp < 10
  · rw [if_pos hmarch] at hmon
    subst hmon
    refine ⟨⟨year, mp + 2, _, by omega, hone, day_le_of_march year hmp hmarch⟩, ?_, rfl, rfl, ?_⟩
    · rw [if_neg (by omega), Int.add_zero]
    · rw [← daysFromCivil_eq]
      dsimp only
      rw [daysFromCivil_march (Nat.le_add_left 2 mp), Nat.add_sub_cancel]
      omega
  · obtain ⟨hlt, hday⟩ := day_le_of_winter hdoy hleap hmp hmarch
    have hwinter : mp - 10 < 2 := by omega
    rw [if_neg hmarch] at hmon
    subst hmon
    refine ⟨⟨year + 1, mp - 10, _, by omega, hone, hday⟩, ?_, rfl, rfl, ?_⟩
    · rw [if_pos hwinter]
    · rw [← daysFromCivil_eq]
      dsimp only
      rw [daysFromCivil_winter _ _ hwinter, Nat.sub_add_cancel (by omega)]
      omega

/-- The day of the year, behind the days of the years of the era. -/
theorem dayOfYear_eq (century doy : Nat) {cycle year : Nat} (hcycle : cycle ≤ 24)
    (hyear : year ≤ 3) :
    36524 * century + 1461 * cycle + 365 * year + doy -
      (365 * (100 * century + 4 * cycle + year) + (100 * century + 4 * cycle + year) / 4 -
        (100 * century + 4 * cycle + year) / 100) = doy := by
  have hquarters : (100 * century + 4 * cycle + year) / 4 = 25 * century + cycle := by omega
  have hcenturies : (100 * century + 4 * cycle + year) / 100 = century := by omega
  rw [hquarters, hcenturies]
  omega

theorem marchFirst_era {century cycle year : Nat} (hcentury : century ≤ 3) (hcycle : cycle ≤ 24)
    (hyear : year ≤ 3) (era : Int) :
    marchFirst (((100 * century + 4 * cycle + year : Nat) : Int) + era * 400) =
      era * 146097 + (36524 * century + 1461 * cycle + 365 * year : Nat) - 719468 := by
  obtain ⟨y, hy⟩ : ∃ y, ((100 * century + 4 * cycle + year : Nat) : Int) + era * 400 = y := ⟨_, rfl⟩
  have hquarters : y / 4 = 25 * century + cycle + 100 * era := by omega
  have hcenturies : y / 100 = century + 4 * era := by omega
  have heras : y / 400 = era := by omega
  rw [hy, marchFirst, hquarters, hcenturies, heras]
  omega

/-- `civilFromDays`, with its intermediate values named. -/
theorem civilFromDays_of {days era : Int} {doe yoe doy mp mon : Nat}
    (hera : (days + 719468).fdiv 146097 = era) (hdoe : (days + 719468 - era * 146097).toNat = doe)
    (hyoe : (doe - doe / 1460 + doe / 36524 - doe / 146096) / 365 = yoe)
    (hdoy : doe - (365 * yoe + yoe / 4 - yoe / 100) = doy) (hmp : (5 * doy + 2) / 153 = mp)
    (hmon : (if mp < 10 then mp + 2 else mp - 10) = mon) :
    civilFromDays days =
      (yoe + era * 400 + (if mon < 2 then 1 else 0), mon, doy - (153 * mp + 2) / 5 + 1) := by
  subst hera hdoe hyoe hdoy hmp hmon
  rfl

/-- **The date of a day number.** -/
theorem civilFromDays_eq (days : Int) :
    ∃ d : Date, civilFromDays days = (d.year, d.month, d.day) ∧ d.dayNumber = days := by
  obtain ⟨era, hera⟩ : ∃ era, (days + 719468).fdiv 146097 = era := ⟨_, rfl⟩
  obtain ⟨doe, hdoe⟩ : ∃ doe, (days + 719468 - era * 146097).toNat = doe := ⟨_, rfl⟩
  have hfloor : (days + 719468) / 146097 = era :=
    hera ▸ (Int.fdiv_eq_ediv_of_nonneg _ (by decide)).symm
  have hdays : doe < 146097 ∧ days = era * 146097 + doe - 719468 := by omega
  obtain ⟨century, cycle, year, doy, hcycles, hcentury, hcycle, hyear, hdoy, hlast⟩ :=
    exists_cycles hdays.1
  have hleap : doy = 365 →
      Leap (((100 * century + 4 * cycle + year : Nat) : Int) + era * 400 + 1) := by
    intro h
    have hend := hlast h
    unfold Leap
    omega
  obtain ⟨d, hdyear, hdmonth, hdday, hnumber⟩ := exists_date_march _ hdoy hleap rfl rfl
  have hrest := dayOfYear_eq century doy hcycle hyear
  rw [← hcycles] at hrest
  refine ⟨d, ?_, ?_⟩
  · rw [hdyear, hdmonth, hdday]
    exact civilFromDays_of hera hdoe (yearOfEra_eq hcentury hcycle hyear hdoy hlast hcycles) hrest
      rfl rfl
  · rw [hnumber, marchFirst_era hcentury hcycle hyear]
    omega

theorem civilFromDays_dayNumber (d : Date) :
    civilFromDays d.dayNumber = (d.year, d.month, d.day) := by
  obtain ⟨e, he, hnumber⟩ := civilFromDays_eq d.dayNumber
  rw [he, Date.dayNumber_injective hnumber]

/-! ## Timestamps -/

/-- The fields of a date and time. -/
def fields (dt : DateTime) : Tm where
  year := dt.year
  mon := dt.month
  mday := dt.day
  wday := weekday dt.dayNumber
  hour := dt.hour
  min := dt.minute
  sec := dt.second

/-- `timegm` does not look at the day of the week. -/
theorem timegm_eq (dt : DateTime) {tm : Tm}
    (h : { tm with wday := 0 } = { fields dt with wday := 0 }) : timegm tm = dt.seconds := by
  obtain ⟨year, mon, mday, wday, hour, min, sec⟩ := tm
  simp only [fields, Tm.mk.injEq] at h
  obtain ⟨rfl, rfl, rfl, -, rfl, rfl, rfl⟩ := h
  rw [timegm, daysFromCivil_eq, DateTime.seconds, DateTime.secondOfDay]
  dsimp only
  omega

/-- The years with four digits. -/
def FourDigitYear (dt : DateTime) : Prop := 1000 ≤ dt.year ∧ dt.year ≤ 9999

theorem gmtime_seconds {dt : DateTime} (hsecond : dt.second < 60) (hyear : FourDigitYear dt) :
    gmtime dt.seconds = some (fields dt) := by
  have hhour := dt.hour_lt
  have hminute := dt.minute_lt
  have hday : dt.seconds.fdiv 86400 = dt.dayNumber := by
    rw [Int.fdiv_eq_ediv_of_nonneg _ (by decide), DateTime.seconds, DateTime.secondOfDay]
    omega
  have hsecs : (dt.seconds - dt.dayNumber * 86400).toNat = dt.secondOfDay := by
    rw [DateTime.seconds]
    omega
  have hweekday : ((dt.dayNumber + 4).fmod 7).toNat = weekday dt.dayNumber := by
    rw [Int.fmod_eq_emod_of_nonneg _ (by decide), weekday]
  have htime : dt.secondOfDay / 3600 = dt.hour ∧ dt.secondOfDay / 60 % 60 = dt.minute ∧
      dt.secondOfDay % 60 = dt.second := by
    rw [DateTime.secondOfDay]
    omega
  rw [gmtime, hday, hsecs, civilFromDays_dayNumber]
  dsimp only
  have hfits : -2 ^ 31 ≤ dt.year - 1900 ∧ dt.year - 1900 < 2 ^ 31 := by
    obtain ⟨hlow, hhigh⟩ := hyear
    omega
  rw [if_pos hfits, hweekday, htime.1, htime.2.1, htime.2.2]
  rfl

end Nawa.utils
