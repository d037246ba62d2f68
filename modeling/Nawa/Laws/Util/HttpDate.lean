import Nawa.Laws.Util.DateText

/-!
# HTTP dates and their timestamps

`makeHttpTime` writes the date and time of a timestamp in the fixed format of HTTP, and
`readHttpTime` reads the timestamp back, except for the one that is `timegm`'s error value
(`httpTime_roundTrips_iff`).
-/

namespace Nawa.utils

open Lib.Calendar

def dayNames : List Bytes := [bytes "Sun", bytes "Mon", bytes "Tue", bytes "Wed", bytes "Thu",
  bytes "Fri", bytes "Sat"]

def monthAbbreviations : List Bytes := [bytes "Jan", bytes "Feb", bytes "Mar", bytes "Apr",
  bytes "May", bytes "Jun", bytes "Jul", bytes "Aug", bytes "Sep", bytes "Oct", bytes "Nov",
  bytes "Dec"]

/-- A date and time in the format of HTTP. -/
def httpText (dt : DateTime) : Bytes :=
  dayNames.getD (weekday dt.dayNumber) [] ++ bytes ", " ++ digits 2 dt.day ++ bytes " " ++
    monthAbbreviations.getD dt.month [] ++ bytes " " ++ digits 4 dt.year.toNat ++ bytes " " ++
    digits 2 dt.hour ++ bytes ":" ++ digits 2 dt.minute ++ bytes ":" ++ digits 2 dt.second ++
    bytes " GMT"

theorem httpText_eq (dt : DateTime) :
    httpText dt = dateText (weekday dt.dayNumber) (digits 2 dt.day) dt.month dt.year.toNat dt.hour
      dt.minute dt.second ++ bytes " GMT" := rfl

/-- The text for a date that is written with two digits. -/
theorem makeHttpTime_seconds {dt : DateTime} (hsecond : dt.second < 60) (hyear : FourDigitYear dt) :
    makeHttpTime dt.seconds = .ok (httpText dt) := by
  have hday := dt.day_le_31
  have hhour := dt.hour_lt
  have hminute := dt.minute_lt
  rw [makeHttpTime, gmtime_seconds hsecond hyear]
  simp only [fields]
  rw [twoDigits_eq (by omega), signedDecimal_eq hyear.1 hyear.2, twoDigits_eq (by omega),
    twoDigits_eq (by omega), twoDigits_eq (by omega)]
  rfl

/-- The fields of the text are those of its date and time. -/
theorem getTime_httpText {dt : DateTime} (hyear : FourDigitYear dt) :
    getTime (bytes "%a, %d %b %Y %H:%M:%S GMT") (httpText dt) = some (fields dt) := by
  have hformat : bytes "%a, %d %b %Y %H:%M:%S GMT" =
      bytes "%a, %d %b %Y %H:%M:%S" ++ bytes " GMT" := by decide
  have hzone : bytes " GMT" = [] → bytes " GMT" = [] := id
  rw [hformat, httpText_eq, getTime_dateTime hyear (weekday_lt _) (fun _ => not_isspace_digits)
    (fun _ => scanNumber_twoDigits dt.one_le_day dt.day_le_31 _) hzone]
  rfl

theorem readHttpTime_httpText_iff {dt : DateTime} (hyear : FourDigitYear dt) :
    readHttpTime (httpText dt) = .ok dt.seconds ↔ dt.seconds ≠ -1 := by
  have hunix : timegm (fields dt) = dt.seconds := timegm_eq dt rfl
  rw [readHttpTime, getTime_httpText hyear]
  dsimp only
  rw [hunix, error_else_ok_iff, and_iff_left rfl]

/-- **An HTTP date is read as the timestamp that it was made of**, unless that is the error value
of `timegm`. The date itself is always the right one. -/
theorem httpTime_roundTrips_iff (t : Int) (dt : DateTime) (hdt : dt.second < 60 ∧ dt.seconds = t)
    (hyear : FourDigitYear dt) :
    makeHttpTime t = .ok (httpText dt) ∧ (httpText dt).length = 29 ∧
      (readHttpTime (httpText dt) = .ok t ↔ t ≠ -1) := by
  obtain ⟨hsecond, rfl⟩ := hdt
  refine ⟨makeHttpTime_seconds hsecond hyear, ?_, readHttpTime_httpText_iff hyear⟩
  rw [httpText_eq, List.length_append,
    length_dateText (inRange_of_dateTime hyear (weekday_lt dt.dayNumber)), length_digits]
  rfl

/-- Sunday, 6 November 1994, 08:49:37. -/
def sampleTime : DateTime where
  year := 1994
  month := 10
  day := 6
  month_lt := by decide
  one_le_day := by decide
  day_le := by decide
  hour := 8
  minute := 49
  second := 37
  hour_lt := by decide
  minute_lt := by decide
  second_le := by decide

theorem httpTime_roundTrips_iff_sample :
    makeHttpTime 784111777 = .ok (httpText sampleTime) ∧ (httpText sampleTime).length = 29 ∧
      (readHttpTime (httpText sampleTime) = .ok 784111777 ↔ (784111777 : Int) ≠ -1) :=
  httpTime_roundTrips_iff 784111777 sampleTime ⟨by decide, by decide⟩ ⟨by decide, by decide⟩

/-- The last second of 1969 in UTC. -/
def lastSecond : DateTime where
  year := 1969
  month := 11
  day := 31
  month_lt := by decide
  one_le_day := by decide
  day_le := by decide
  hour := 23
  minute := 59
  second := 59
  hour_lt := by decide
  minute_lt := by decide
  second_le := by decide

/-- The last second of 1969 is written, and reading it throws. -/
theorem not_httpTime_lastSecond :
    ¬ ∀ (t : Int) (dt : DateTime), dt.second < 60 ∧ dt.seconds = t → FourDigitYear dt →
      ∃ text, makeHttpTime t = .ok text ∧ readHttpTime text = .ok t := by
  intro h
  obtain ⟨text, hmake, hread⟩ := h (-1) lastSecond ⟨by decide, by decide⟩ ⟨by decide, by decide⟩
  have htext : makeHttpTime (-1) = .ok (bytes "Wed, 31 Dec 1969 23:59:59 GMT") := by decide
  rw [htext, Except.ok.injEq] at hmake
  subst hmake
  exact absurd hread (by decide)

end Nawa.utils
