import Mathlib.Data.Nat.Log
import Nawa.Laws.Util.DateText
import Nawa.Lib.Search
import Nawa.Util.SmtpTime

/-!
# SMTP dates and the instants they denote

The offset of a date is read from fixed positions, and only where the text is longer than 30
bytes. A date whose day is one digit without a blank is a byte shorter, so that its offset is
left out; and the last second of 1969, whatever its offset, is `timegm`'s error value
(`smtpTime_denotes_iff`). The texts of `makeSmtpTime` have a day of two bytes.
-/

namespace Nawa.utils

open Lib.Calendar

/-- The spellings of a day: one digit, two digits, or one digit behind a blank. -/
inductive SpelledDay (day : Nat) : Bytes → Prop
  | one (h : day < 10) : SpelledDay day (digits 1 day)
  | two : SpelledDay day (digits 2 day)
  | padded (h : day < 10) : SpelledDay day (' '.toUInt8 :: digits 1 day)

theorem SpelledDay.cases {day : Nat} {text : Bytes} (h : SpelledDay day text) :
    (∃ width, text = digits (width + 1) day) ∨ day < 10 ∧ text = ' '.toUInt8 :: digits 1 day := by
  cases h with
  | one h => exact .inl ⟨0, rfl⟩
  | two => exact .inl ⟨1, rfl⟩
  | padded h => exact .inr ⟨h, rfl⟩

/-- A date of a mail header: the day of the week, a date and time with one of the spellings of
its day, and the offset of the zone. -/
structure SmtpDate where
  time : DateTime
  fourDigits : FourDigitYear time
  wday : Nat
  wday_lt : wday < 7
  day : Bytes
  spelled : SpelledDay time.day day
  west : Bool
  hours : Nat
  hours_lt : hours < 100
  minutes : Nat
  minutes_lt : minutes < 100

namespace SmtpDate

variable (d : SmtpDate)

/-- The date and time without the zone, with a day that is written as given. -/
def localText (day : Bytes) : Bytes :=
  dateText d.wday day d.time.month d.time.year.toNat d.time.hour d.time.minute d.time.second

def sign : UInt8 := if d.west then '-'.toUInt8 else '+'.toUInt8

def zoneText : Bytes := bytes " " ++ d.sign :: (digits 2 d.hours ++ digits 2 d.minutes)

def text : Bytes := d.localText d.day ++ d.zoneText

/-- The seconds that the local time is ahead of UTC. -/
def offset : Int :=
  if d.west then -(d.hours * 3600 + d.minutes * 60 : Nat)
  else (d.hours * 3600 + d.minutes * 60 : Nat)

/-- The timestamp of the instant. -/
def timestamp : Int := d.time.seconds - d.offset

/-! ## The day -/

/-- The day after the patch: no blank is left. -/
def patchedDay : Bytes := if d.day.head? = some ' '.toUInt8 then digits 2 d.time.day else d.day

theorem digit_ne_blank {width n : Nat} : (digits (width + 1) n).head? ≠ some ' '.toUInt8 := by
  intro h
  have hhead : ' '.toUInt8 ∈ (digits (width + 1) n ++ []).head? := by
    rw [List.append_nil, h]
    rfl
  exact absurd (head?_digits hhead) (by decide)

theorem digits_two_of_lt {n : Nat} (h : n < 10) : digits 2 n = '0'.toUInt8 :: digits 1 n := by
  have htwo : digits 2 n = digits 1 (n / 10) ++ digits 1 n := rfl
  rw [htwo, Nat.div_eq_of_lt h]
  rfl

/-- The byte behind the name of the day and two separators is patched. -/
theorem patchDay_dateText {wday : Nat} (h : wday < 7) (c : UInt8) (day rest : Bytes)
    (mon year hour min sec : Nat) :
    patchDay (dateText wday (c :: day) mon year hour min sec ++ rest) =
      dateText wday ((if c = ' '.toUInt8 then '0'.toUInt8 else c) :: day) mon year hour min sec ++
        rest := by
  have hname : ∃ x y z, getDayOfWeek wday = [x, y, z] := by
    match wday, h with
    | 0, _ | 1, _ | 2, _ | 3, _ | 4, _ | 5, _ | 6, _ => exact ⟨_, _, _, rfl⟩
  obtain ⟨x, y, z, hname⟩ := hname
  obtain ⟨tail, htail⟩ : ∃ tail, ∀ c : UInt8,
      dateText wday (c :: day) mon year hour min sec ++ rest =
        x :: y :: z :: ','.toUInt8 :: ' '.toUInt8 :: c :: tail := by
    refine ⟨day ++ (bytes " " ++ (getMonth mon ++ (bytes " " ++ (digits 4 year ++ (bytes " " ++
      (digits 2 hour ++ (bytes ":" ++ (digits 2 min ++ (bytes ":" ++
        (digits 2 sec ++ rest)))))))))), fun c => ?_⟩
    rw [dateText, hname]
    simp only [List.append_assoc]
    rfl
  rw [htail, htail, patchDay]
  by_cases hc : c = ' '.toUInt8
  · rw [hc]
    rfl
  · rw [if_neg hc]
    exact if_neg fun heq => hc (Option.some.inj heq)

theorem patchDay_text (rest : Bytes) :
    patchDay (d.text ++ rest) = d.localText d.patchedDay ++ (d.zoneText ++ rest) := by
  rw [text, List.append_assoc]
  obtain ⟨width, hday⟩ | ⟨hlt, hday⟩ := d.spelled.cases
  · have hne : digits (width + 1) d.time.day ++ [] ≠ [] := digits_append_ne_nil
    rw [List.append_nil] at hne
    obtain ⟨c, cs, hcons⟩ := List.exists_cons_of_ne_nil hne
    have hblank : (digits (width + 1) d.time.day).head? ≠ some ' '.toUInt8 := digit_ne_blank
    have hc : c ≠ ' '.toUInt8 := fun heq => hblank (by rw [hcons, heq]; rfl)
    rw [patchedDay, hday, if_neg hblank, localText, hcons, patchDay_dateText d.wday_lt, if_neg hc]
  · rw [patchedDay, hday, localText, patchDay_dateText d.wday_lt, if_pos rfl, List.head?_cons,
      if_pos rfl, digits_two_of_lt hlt, localText]

/-! ## Reading -/

/-- The patched day is read as the day, and it is as long as the day was. -/
theorem patchedDay_spec :
    (∀ rest, ∀ c ∈ (d.patchedDay ++ ' '.toUInt8 :: rest).head?, isspace c = false) ∧
      (∀ rest, scanNumber 2 1 31 (d.patchedDay ++ ' '.toUInt8 :: rest) =
        some (d.time.day, ' '.toUInt8 :: rest)) ∧ d.patchedDay.length = d.day.length := by
  have hone := d.time.one_le_day
  have hle := d.time.day_le_31
  have hblank : isdigit ' '.toUInt8 = false := by decide
  have htwo : (∀ rest, ∀ c ∈ (digits 2 d.time.day ++ ' '.toUInt8 :: rest).head?,
      isspace c = false) ∧ ∀ rest, scanNumber 2 1 31 (digits 2 d.time.day ++ ' '.toUInt8 :: rest) =
        some (d.time.day, ' '.toUInt8 :: rest) :=
    ⟨fun rest => not_isspace_digits, fun rest => scanNumber_twoDigits hone hle _⟩
  rw [patchedDay]
  generalize d.day = day, d.spelled = hspelled
  cases hspelled with
  | one h =>
    rw [if_neg digit_ne_blank]
    refine ⟨fun rest => not_isspace_digits, fun rest => ?_, rfl⟩
    refine scanNumber_digits (by decide) h hone hle (.inr ⟨by decide, ?_⟩)
    rintro c ⟨⟩
    exact hblank
  | two =>
    rw [if_neg digit_ne_blank]
    exact ⟨htwo.1, htwo.2, rfl⟩
  | padded h =>
    rw [List.head?_cons, if_pos rfl]
    exact ⟨htwo.1, htwo.2, by rw [List.length_cons, length_digits, length_digits]⟩

/-- The fields are those of the date and time, whatever the zone. -/
theorem getTime_patchDay (rest : Bytes) :
    getTime (bytes "%a, %d %b %Y %H:%M:%S") (patchDay (d.text ++ rest)) =
      some { fields d.time with wday := d.wday } := by
  obtain ⟨hhead, hscan, -⟩ := d.patchedDay_spec
  have hformat : bytes "%a, %d %b %Y %H:%M:%S" = bytes "%a, %d %b %Y %H:%M:%S" ++ [] :=
    (List.append_nil _).symm
  rw [patchDay_text, hformat, localText, getTime_dateTime d.fourDigits d.wday_lt hhead hscan
    fun _ => rfl]
  rfl

theorem length_localText (day : Bytes) : (d.localText day).length = day.length + 23 :=
  length_dateText (inRange_of_dateTime d.fourDigits d.wday_lt) day

theorem length_patchDay (rest : Bytes) :
    (patchDay (d.text ++ rest)).length = d.day.length + 29 + rest.length := by
  rw [patchDay_text, ← List.append_assoc, List.length_append, List.length_append, length_localText,
    d.patchedDay_spec.2.2, zoneText, List.length_append, List.length_cons, List.length_append,
    length_digits, length_digits]
  rfl

theorem stol_digits {width n : Nat} (hw : width < 18) (h : n < 10 ^ (width + 1)) :
    stol (digits (width + 1) n) = .ok n := by
  have hne : digits (width + 1) n ≠ [] := by
    rw [← List.length_pos_iff, length_digits]
    exact Nat.succ_pos width
  rw [stol_of_digits hne (fun _ => isdigit_of_mem_digits) (by rw [length_digits]; omega),
    digitsValue_digits h]

/-- The zone stands at its positions where the day has two bytes. -/
theorem zone_positions (h : d.day.length = 2) (rest : Bytes) :
    (patchDay (d.text ++ rest))[26]? = some d.sign ∧
      ((patchDay (d.text ++ rest)).drop 27).take 2 = digits 2 d.hours ∧
      ((patchDay (d.text ++ rest)).drop 29).take 2 = digits 2 d.minutes := by
  have hlength : (d.localText d.patchedDay ++ bytes " ").length = 26 := by
    rw [List.length_append, length_localText, d.patchedDay_spec.2.2, h]
    rfl
  have htext : patchDay (d.text ++ rest) = (d.localText d.patchedDay ++ bytes " ") ++
      d.sign :: (digits 2 d.hours ++ (digits 2 d.minutes ++ rest)) := by
    rw [patchDay_text, zoneText]
    simp only [List.append_assoc, List.cons_append]
  have hbehind : (patchDay (d.text ++ rest)).drop 27 =
      digits 2 d.hours ++ (digits 2 d.minutes ++ rest) := by
    have hpos : 27 = (d.localText d.patchedDay ++ bytes " ").length + 1 := by rw [hlength]
    rw [htext, hpos]
    exact Lib.Search.drop_append_sep _ _ _
  refine ⟨?_, ?_, ?_⟩
  · rw [htext, List.getElem?_append_right (by rw [hlength]), hlength]
    rfl
  · rw [hbehind]
    exact List.take_left' (length_digits 2 _)
  · have htwo : (patchDay (d.text ++ rest)).drop 29 =
        ((patchDay (d.text ++ rest)).drop 27).drop 2 := by
      rw [List.drop_drop]
    rw [htwo, hbehind, List.drop_left' (length_digits 2 _)]
    exact List.take_left' (length_digits 2 _)

/-- A text that is long enough is read with its offset. What follows that has no effect. -/
theorem readSmtpTime_long (h : d.day.length = 2) (rest : Bytes) :
    readSmtpTime (d.text ++ rest) =
      if d.time.seconds = -1 then .error smtpConversionFailed else .ok d.timestamp := by
  have hunix : timegm { fields d.time with wday := d.wday } = d.time.seconds := timegm_eq d.time rfl
  obtain ⟨hsign, hhours, hminutes⟩ := d.zone_positions h rest
  rw [readSmtpTime, getTime_patchDay]
  dsimp only
  rw [hunix, length_patchDay, if_pos (show 30 < d.day.length + 29 + rest.length by omega), hsign,
    hhours, hminutes, stol_digits (by decide) d.hours_lt, stol_digits (by decide) d.minutes_lt]
  dsimp only
  split
  · rfl
  · rw [timestamp, offset, sign]
    cases d.west with
    | true =>
      rw [if_pos rfl, if_pos rfl, if_pos rfl]
      refine congrArg Except.ok ?_
      omega
    | false =>
      rw [if_neg Bool.false_ne_true, if_neg Bool.false_ne_true, if_neg (by decide)]
      refine congrArg Except.ok ?_
      omega

theorem length_day_le : d.day.length ≤ 2 := by
  obtain ⟨_, _, _, _, day, hspelled, _⟩ := d
  cases hspelled <;> simp [length_digits]

/-- A text that is a byte short is read without its offset. -/
theorem readSmtpTime_short (h : d.day.length ≠ 2) :
    readSmtpTime d.text =
      if d.time.seconds = -1 then .error smtpConversionFailed else .ok d.time.seconds := by
  have hunix : timegm { fields d.time with wday := d.wday } = d.time.seconds := timegm_eq d.time rfl
  have hfields := d.getTime_patchDay []
  have hlength := d.length_patchDay []
  have hday := d.length_day_le
  rw [List.append_nil] at hfields hlength
  rw [readSmtpTime, hfields]
  dsimp only
  rw [hunix, hlength, if_neg (show ¬ 30 < d.day.length + 29 + ([] : Bytes).length by
    rw [List.length_nil]; omega)]

/-- A date is read as its instant exactly when its day has two bytes or its offset is zero, and
its local time is not the last second of 1969. -/
theorem readSmtpTime_iff :
    readSmtpTime d.text = .ok d.timestamp ↔
      d.time.seconds ≠ -1 ∧ (d.day.length = 2 ∨ d.offset = 0) := by
  by_cases htwo : d.day.length = 2
  · have hlong := d.readSmtpTime_long htwo []
    rw [List.append_nil] at hlong
    rw [hlong, error_else_ok_iff, and_iff_left rfl, and_iff_left (.inl htwo)]
  · rw [d.readSmtpTime_short htwo, error_else_ok_iff, or_iff_right htwo, timestamp]
    refine and_congr_right fun _ => ?_
    omega

end SmtpDate

/-! ## Writing -/

theorem paddedDay_spelled {day : Nat} (h : day < 100) :
    SpelledDay day (paddedDay day) ∧ (paddedDay day).length = 2 := by
  rw [paddedDay]
  split
  · next hlt =>
    rw [decimal_eq_digits (.inl rfl) hlt]
    exact ⟨.padded hlt, by rw [List.length_cons, length_digits]⟩
  · next hge =>
    have htwo : decimal day = digits 2 day := decimal_eq_digits (.inr (Nat.not_lt.mp hge)) h
    rw [htwo]
    exact ⟨.two, length_digits 2 day⟩

/-- The first four digits of an offset. They are its hours and minutes where it has no more, and
less than it otherwise. -/
theorem offset_digits (hours : Nat) {minutes : Nat} (h : minutes < 60) :
    ∃ hh mm rest, hh < 100 ∧ mm < 100 ∧
      twoDigits hours ++ twoDigits minutes = digits 2 hh ++ digits 2 mm ++ rest ∧
      (hh * 60 + mm = hours * 60 + minutes ↔ hours < 100) := by
  rw [twoDigits_eq (show minutes < 100 by omega)]
  by_cases hlt : hours < 100
  · refine ⟨hours, minutes, [], hlt, by omega, ?_, iff_of_true rfl hlt⟩
    rw [twoDigits_eq hlt, List.append_nil]
  · -- the number of all the digits, and of its first four
    obtain ⟨width, hlow, hhigh⟩ : ∃ width, 10 ^ (width + 2) ≤ hours ∧ hours < 10 ^ (width + 3) := by
      have hlog : 2 ≤ Nat.log 10 hours := Nat.le_log_of_pow_le (by decide) (Nat.not_lt.mp hlt)
      obtain ⟨width, hwidth⟩ := Nat.exists_eq_add_of_le' hlog
      refine ⟨width, ?_, ?_⟩
      · rw [← hwidth]
        exact Nat.pow_log_le_self 10 (by omega)
      · have hlt := Nat.lt_pow_succ_log_self (show 1 < 10 by decide) hours
        rwa [hwidth] at hlt
    obtain ⟨all, hall⟩ : ∃ all, all = hours * 100 + minutes := ⟨_, rfl⟩
    obtain ⟨four, hfour⟩ : ∃ four, four = all / 10 ^ (width + 1) := ⟨_, rfl⟩
    have htext : twoDigits hours ++ digits 2 minutes = digits (4 + (width + 1)) all := by
      have hsum : 4 + (width + 1) = (width + 3) + 2 := by omega
      have hdecimal : decimal hours = digits (width + 3) hours :=
        decimal_eq_digits (.inr hlow) hhigh
      rw [twoDigits, if_neg (by omega), hdecimal, hsum, digits_add _ 2 all, ← digits_mod 2 all,
        hall, show (hours * 100 + minutes) / 10 ^ 2 = hours by omega,
        show (hours * 100 + minutes) % 10 ^ 2 = minutes by omega]
    have hbound : four < 10000 := by
      rw [hfour]
      refine Nat.div_lt_of_lt_mul ?_
      rw [Nat.pow_succ] at hhigh ⊢
      rw [Nat.pow_succ, Nat.pow_succ] at hhigh
      omega
    have hless : four * 10 ≤ all := by
      have hpow : 10 ≤ 10 ^ (width + 1) := Nat.le_self_pow (Nat.succ_ne_zero width) 10
      calc four * 10 ≤ four * 10 ^ (width + 1) := Nat.mul_le_mul_left four hpow
        _ ≤ all := hfour ▸ Nat.div_mul_le_self all _
    refine ⟨four / 100, four % 100, digits (width + 1) all, by omega, by omega, ?_,
      iff_of_false (by omega) hlt⟩
    rw [htext, digits_add, ← hfour, digits_add 2 2, ← digits_mod 2 four]
    rfl

/-- The text of a timestamp is a date, with a day of two bytes. The date's offset is the zone's
where that has four digits. -/
theorem makeSmtpTime_eq {zone : Int → Int} {t : Int} {dt : DateTime}
    (hdt : dt.second < 60 ∧ dt.seconds = t + zone t) (hyear : FourDigitYear dt)
    (hzone : 60 ∣ zone t) :
    ∃ (d : SmtpDate) (rest : Bytes), d.time = dt ∧ d.day.length = 2 ∧
      makeSmtpTime zone t = .ok (d.text ++ rest) ∧
      (d.offset = zone t ↔ (zone t).natAbs < 360000) := by
  obtain ⟨hsecond, hseconds⟩ := hdt
  have hday := dt.day_le_31
  have hhour := dt.hour_lt
  have hminute := dt.minute_lt
  obtain ⟨hspelled, hlength⟩ := paddedDay_spelled (show dt.day < 100 by omega)
  obtain ⟨hh, mm, rest, hhh, hmm, htext, hoffset⟩ :=
    offset_digits ((zone t).natAbs / 60 / 60) (Nat.mod_lt ((zone t).natAbs / 60) (by decide))
  refine ⟨⟨dt, hyear, weekday dt.dayNumber, weekday_lt _, paddedDay dt.day, hspelled,
    decide (zone t < 0), hh, hhh, mm, hmm⟩, rest, rfl, hlength, ?_, ?_⟩
  · have hsign : (if decide (zone t < 0) then '-'.toUInt8 else '+'.toUInt8) =
        if zone t < 0 then '-'.toUInt8 else '+'.toUInt8 := by
      simp only [decide_eq_true_eq]
    rw [makeSmtpTime, localtime, ← hseconds, gmtime_seconds hsecond hyear]
    simp only [fields]
    rw [signedDecimal_eq hyear.1 hyear.2, twoDigits_eq (by omega), twoDigits_eq (by omega),
      twoDigits_eq (by omega), zoneOffset, htext, SmtpDate.text, SmtpDate.localText, dateText,
      SmtpDate.zoneText, SmtpDate.sign, hsign]
    simp only [List.append_assoc, List.cons_append]
  · have hnat : 60 ∣ (zone t).natAbs := Int.natAbs_dvd_natAbs.mpr hzone
    rw [SmtpDate.offset]
    simp only [decide_eq_true_eq]
    split <;> omega

/-- **Mail dates denote the right instant** exactly when their offset is read and their local time
is not the last second of 1969. What is written for a timestamp is read back as it, unless that is
its local time, or its offset has more than four digits. -/
theorem smtpTime_denotes_iff (d : SmtpDate) (zone : Int → Int) (t : Int) :
    (readSmtpTime d.text = .ok d.timestamp ↔
      d.time.seconds ≠ -1 ∧ (d.day.length = 2 ∨ d.offset = 0)) ∧
    ∀ dt : DateTime, dt.second < 60 ∧ dt.seconds = t + zone t → FourDigitYear dt → 60 ∣ zone t →
      ((∃ text, makeSmtpTime zone t = .ok text ∧ readSmtpTime text = .ok t) ↔
        t + zone t ≠ -1 ∧ (zone t).natAbs < 360000) := by
  refine ⟨d.readSmtpTime_iff, fun dt hdt hyear hzone => ?_⟩
  obtain ⟨written, rest, htime, hday, hmake, hoffset⟩ := makeSmtpTime_eq hdt hyear hzone
  have hread : readSmtpTime (written.text ++ rest) = .ok t ↔
      t + zone t ≠ -1 ∧ (zone t).natAbs < 360000 := by
    rw [written.readSmtpTime_long hday rest, error_else_ok_iff, SmtpDate.timestamp, htime,
      hdt.2, ← hoffset]
    refine and_congr_right fun _ => ?_
    omega
  rw [← hread, hmake]
  refine ⟨?_, fun h => ⟨_, rfl, h⟩⟩
  rintro ⟨text, htext, hok⟩
  rw [Except.ok.inj htext]
  exact hok

/-- Thursday, 7 February 2019, 16:29:50 at an hour ahead of UTC, with a day of one digit. -/
def shortDate : SmtpDate where
  time :=
    { year := 2019
      month := 1
      day := 7
      month_lt := by decide
      one_le_day := by decide
      day_le := by decide
      hour := 16
      minute := 29
      second := 50
      hour_lt := by decide
      minute_lt := by decide
      second_le := by decide }
  fourDigits := ⟨by decide, by decide⟩
  wday := 4
  wday_lt := by decide
  day := bytes "7"
  spelled := .one (by decide)
  west := false
  hours := 1
  hours_lt := by decide
  minutes := 0
  minutes_lt := by decide

theorem smtpTime_denotes_iff_shortDate :
    (readSmtpTime shortDate.text = .ok shortDate.timestamp ↔
      shortDate.time.seconds ≠ -1 ∧ (shortDate.day.length = 2 ∨ shortDate.offset = 0)) ∧
    ((∃ text, makeSmtpTime (fun _ => 3600) 1549553390 = .ok text ∧
        readSmtpTime text = .ok 1549553390) ↔
      (1549553390 : Int) + 3600 ≠ -1 ∧ (3600 : Int).natAbs < 360000) := by
  obtain ⟨hread, hroundTrip⟩ := smtpTime_denotes_iff shortDate (fun _ => 3600) 1549553390
  exact ⟨hread, hroundTrip shortDate.time ⟨by decide, by decide⟩ ⟨by decide, by decide⟩ (by decide)⟩

/-- A day of one digit makes the text a byte short, and the hour is not taken off. -/
theorem not_smtpTime_shortDate :
    shortDate.text = bytes "Thu, 7 Feb 2019 16:29:50 +0100" ∧ shortDate.timestamp = 1549553390 ∧
      readSmtpTime shortDate.text = .ok 1549556990 ∧
      ¬ ∀ d : SmtpDate, readSmtpTime d.text = .ok d.timestamp := by
  have hread : readSmtpTime shortDate.text = .ok 1549556990 := by decide
  refine ⟨by decide, by decide, hread, fun h => ?_⟩
  have hdenotes := h shortDate
  rw [hread] at hdenotes
  exact absurd hdenotes (by decide)

end Nawa.utils
