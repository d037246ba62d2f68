import Mathlib.Tactic.ByContra

/-!
# The proleptic Gregorian calendar

Dates by the rules of the calendar, the leap years and the lengths of the months, and their
numbers: the days since 1970-01-01, and for a date with a time of day the seconds since then.
No two dates have the same number of days (`Date.dayNumber_injective`).
-/

namespace Lib.Calendar

/-! ## Years and months -/

def Leap (year : Int) : Prop := year % 4 = 0 ∧ (year % 100 ≠ 0 ∨ year % 400 = 0)

instance : DecidablePred Leap := fun year =>
  inferInstanceAs (Decidable (year % 4 = 0 ∧ (year % 100 ≠ 0 ∨ year % 400 = 0)))

def yearLength (year : Int) : Nat := if Leap year then 366 else 365

/-- The length of a month; January is the month 0. -/
def monthLength (year : Int) : Nat → Nat
  | 1 => if Leap year then 29 else 28
  | 3 | 5 | 8 | 10 => 30
  | _ => 31

/-- The days of the first months of a year. -/
def daysBeforeMonth (year : Int) : Nat → Nat
  | 0 => 0
  | month + 1 => daysBeforeMonth year month + monthLength year month

/-- The number of the leap years from the year 1 on that are over before a year. -/
def leapYearsBefore (year : Int) : Int := (year - 1) / 4 - (year - 1) / 100 + (year - 1) / 400

/-- The days from 1970-01-01 to the first day of a year. -/
def daysBeforeYear (year : Int) : Int :=
  365 * (year - 1970) + (leapYearsBefore year - leapYearsBefore 1970)

theorem daysBeforeYear_succ (year : Int) :
    daysBeforeYear (year + 1) = daysBeforeYear year + yearLength year := by
  unfold daysBeforeYear leapYearsBefore
  by_cases hleap : Leap year
  · rw [yearLength, if_pos hleap]
    unfold Leap at hleap
    omega
  · rw [yearLength, if_neg hleap]
    unfold Leap at hleap
    omega

example : daysBeforeYear 1970 = 0 ∧ daysBeforeYear 2000 = 10957 := by decide

theorem daysBeforeYear_lt {year year' : Int} (h : year < year') :
    daysBeforeYear year + yearLength year ≤ daysBeforeYear year' := by
  rw [← daysBeforeYear_succ]
  unfold daysBeforeYear leapYearsBefore
  omega

theorem daysBeforeMonth_lt {year : Int} {month month' : Nat} (h : month < month') :
    daysBeforeMonth year month + monthLength year month ≤ daysBeforeMonth year month' := by
  induction month' with
  | zero => exact absurd h (Nat.not_lt_zero _)
  | succ month' ih =>
    rw [daysBeforeMonth]
    rcases Nat.lt_succ_iff_lt_or_eq.mp h with hlt | rfl
    · exact Nat.le_trans (ih hlt) (Nat.le_add_right _ _)
    · exact Nat.le_refl _

theorem daysBeforeMonth_twelve (year : Int) : daysBeforeMonth year 12 = yearLength year := by
  simp only [daysBeforeMonth, monthLength, yearLength]
  split <;> rfl

theorem monthLength_le (year : Int) (month : Nat) : monthLength year month ≤ 31 := by
  unfold monthLength
  split
  · split <;> decide
  all_goals decide

/-! ## Dates -/

/-- A day of the calendar; January is the month 0. -/
structure Date where
  year : Int
  month : Nat
  day : Nat
  month_lt : month < 12
  one_le_day : 1 ≤ day
  day_le : day ≤ monthLength year month

namespace Date

theorem ext_fields {d e : Date} (hyear : d.year = e.year) (hmonth : d.month = e.month)
    (hday : d.day = e.day) : d = e := by
  obtain ⟨year, month, day, _, _, _⟩ := d
  obtain ⟨year', month', day', _, _, _⟩ := e
  cases hyear
  cases hmonth
  cases hday
  rfl

/-- The day of the year, from 0. -/
def dayOfYear (d : Date) : Nat := daysBeforeMonth d.year d.month + (d.day - 1)

/-- The days since 1970-01-01. -/
def dayNumber (d : Date) : Int := daysBeforeYear d.year + d.dayOfYear

theorem dayOfYear_lt (d : Date) : d.dayOfYear < yearLength d.year := by
  have hmonth : _ ≤ daysBeforeMonth d.year 12 := daysBeforeMonth_lt d.month_lt
  rw [daysBeforeMonth_twelve] at hmonth
  have hday := d.one_le_day
  have hlen := d.day_le
  rw [dayOfYear]
  omega

theorem day_le_31 (d : Date) : d.day ≤ 31 := Nat.le_trans d.day_le (monthLength_le _ _)

theorem year_le_of_dayNumber {d e : Date} (h : d.dayNumber = e.dayNumber) : d.year ≤ e.year := by
  by_contra hlt
  have hyears := daysBeforeYear_lt (Int.not_le.mp hlt)
  have hday := e.dayOfYear_lt
  rw [dayNumber, dayNumber] at h
  omega

theorem month_le_of_dayOfYear {d e : Date} (hyear : d.year = e.year)
    (h : d.dayOfYear = e.dayOfYear) : d.month ≤ e.month := by
  by_contra hlt
  have hmonths : _ ≤ daysBeforeMonth e.year d.month := daysBeforeMonth_lt (Nat.not_le.mp hlt)
  have hday := e.day_le
  have hone := e.one_le_day
  rw [dayOfYear, dayOfYear, hyear] at h
  omega

/-- **No two days have the same number.** -/
theorem dayNumber_injective {d e : Date} (h : d.dayNumber = e.dayNumber) : d = e := by
  have hyear : d.year = e.year :=
    Int.le_antisymm (year_le_of_dayNumber h) (year_le_of_dayNumber h.symm)
  have hofYear : d.dayOfYear = e.dayOfYear := by
    rw [dayNumber, dayNumber, hyear] at h
    omega
  have hmonth : d.month = e.month :=
    Nat.le_antisymm (month_le_of_dayOfYear hyear hofYear)
      (month_le_of_dayOfYear hyear.symm hofYear.symm)
  refine ext_fields hyear hmonth ?_
  have hday := d.one_le_day
  have hday' := e.one_le_day
  rw [dayOfYear, dayOfYear, hyear, hmonth] at hofYear
  omega

end Date

/-- The day of the week, where Sunday is 0. 1970-01-01 was a Thursday. -/
def weekday (dayNumber : Int) : Nat := ((dayNumber + 4) % 7).toNat

theorem weekday_lt (dayNumber : Int) : weekday dayNumber < 7 := by
  unfold weekday
  omega

/-! ## Times of day -/

/-- A date and a time of day. The second 60 is a leap second, which is counted like the second
behind it. -/
structure DateTime extends Date where
  hour : Nat
  minute : Nat
  second : Nat
  hour_lt : hour < 24
  minute_lt : minute < 60
  second_le : second ≤ 60

namespace DateTime

def secondOfDay (dt : DateTime) : Nat := dt.hour * 3600 + dt.minute * 60 + dt.second

/-- The seconds since the beginning of 1970-01-01. -/
def seconds (dt : DateTime) : Int := dt.dayNumber * 86400 + dt.secondOfDay

end DateTime

end Lib.Calendar
