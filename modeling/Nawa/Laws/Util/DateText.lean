import Nawa.Laws.Util.Bytes
import Nawa.Laws.Util.Calendar

/-!
# The text of a date

A date in a header has names of three letters and numbers of a fixed width. `get_time` reads each
of its fields up to the next separator (`matchFormat_dateText`).
-/

namespace Nawa.utils

open Lib.Calendar

/-! ## Numbers of a fixed width -/

def digit (n : Nat) : UInt8 := UInt8.ofNat (48 + n)

/-- The last digits of a number, as many as the width says. -/
def digits : Nat → Nat → Bytes
  | 0, _ => []
  | width + 1, n => digits width (n / 10) ++ [digit (n % 10)]

theorem length_digits (width n : Nat) : (digits width n).length = width := by
  induction width generalizing n with
  | zero => rfl
  | succ width ih => rw [digits, List.length_append, ih, List.length_singleton]

theorem toNat_digit {n : Nat} (h : n < 10) : (digit n).toNat = 48 + n :=
  UInt8.toNat_ofNat_of_lt' (Nat.lt_of_lt_of_le (Nat.add_lt_add_left h 48) (by decide))

theorem isdigit_digit {n : Nat} (h : n < 10) : isdigit (digit n) = true := by
  rw [isdigit, decide_eq_true_eq, UInt8.le_iff_toNat_le, UInt8.le_iff_toNat_le, toNat_digit h]
  exact ⟨Nat.le_add_right 48 n, by change 48 + n ≤ 57; omega⟩

theorem isdigit_of_mem_digits {width n : Nat} {c : UInt8} (h : c ∈ digits width n) :
    isdigit c = true := by
  induction width generalizing n with
  | zero => cases h
  | succ width ih =>
    rcases List.mem_append.mp h with h | h
    · exact ih h
    · rw [List.mem_singleton.mp h]
      exact isdigit_digit (Nat.mod_lt n (by decide))

theorem digitsValue_digits {width n : Nat} (h : n < 10 ^ width) :
    digitsValue (digits width n) = n := by
  induction width generalizing n with
  | zero =>
    obtain rfl : n = 0 := Nat.lt_one_iff.mp h
    rfl
  | succ width ih =>
    rw [Nat.pow_succ] at h
    have hrest := ih (n := n / 10) (by omega)
    rw [digitsValue] at hrest
    rw [digits, digitsValue, List.foldl_append, hrest, List.foldl_cons, List.foldl_nil,
      toNat_digit (Nat.mod_lt n (by decide))]
    omega

theorem digits_add (a b n : Nat) : digits (a + b) n = digits a (n / 10 ^ b) ++ digits b n := by
  induction b generalizing n with
  | zero => rw [Nat.add_zero, Nat.pow_zero, Nat.div_one, digits, List.append_nil]
  | succ b ih =>
    rw [← Nat.add_assoc, digits, ih, digits, List.append_assoc, Nat.div_div_eq_div_mul,
      Nat.pow_succ, Nat.mul_comm]

theorem digits_mod (width n : Nat) : digits width (n % 10 ^ width) = digits width n := by
  induction width generalizing n with
  | zero => rfl
  | succ width ih =>
    have hdvd : 10 ∣ 10 ^ (width + 1) := dvd_pow_self 10 (Nat.succ_ne_zero width)
    have hdiv : n % 10 ^ (width + 1) / 10 = n / 10 % 10 ^ width := by
      rw [Nat.pow_succ, Nat.mul_comm, Nat.mod_mul_right_div_self]
    rw [digits, digits, Nat.mod_mod_of_dvd n hdvd, hdiv, ih]

theorem digitChar_eq {n : Nat} (h : n < 10) : UInt8.ofNat n.digitChar.toNat = digit n := by
  have hall : ∀ n < 10, UInt8.ofNat n.digitChar.toNat = digit n := by decide
  exact hall n h

/-- A number that needs all of the width is written with it. -/
theorem decimal_eq_digits {width n : Nat} (hlow : width = 0 ∨ 10 ^ width ≤ n)
    (hhigh : n < 10 ^ (width + 1)) : decimal n = digits (width + 1) n := by
  induction width generalizing n with
  | zero =>
    have hlt : n < 10 := hhigh
    rw [decimal, Nat.toDigits_of_lt_base hlt, List.map_singleton, digitChar_eq hlt, digits, digits,
      List.nil_append, Nat.mod_eq_of_lt hlt]
  | succ width ih =>
    have hten : 10 ≤ n := by
      have hpow := hlow.resolve_left (Nat.succ_ne_zero width)
      rw [Nat.pow_succ] at hpow
      have hpos := Nat.pow_pos (n := width) (show 0 < 10 by decide)
      omega
    have hrest : decimal (n / 10) = digits (width + 1) (n / 10) := by
      refine ih (.inr ?_) ?_
      · have hpow := hlow.resolve_left (Nat.succ_ne_zero width)
        rw [Nat.pow_succ] at hpow
        omega
      · rw [Nat.pow_succ] at hhigh
        omega
    rw [digits, ← hrest, decimal, Nat.toDigits_of_base_le (by decide) hten, List.map_append,
      List.map_singleton, digitChar_eq (Nat.mod_lt n (by decide)), decimal]

theorem twoDigits_eq {n : Nat} (h : n < 100) : twoDigits n = digits 2 n := by
  rw [twoDigits]
  split
  · next hlt =>
    have hone : digits 1 n = [digit (n % 10)] := rfl
    have htwo : digits 2 n = [digit (n / 10 % 10), digit (n % 10)] := rfl
    rw [decimal_eq_digits (.inl rfl) hlt, hone, htwo, Nat.div_eq_of_lt hlt]
    rfl
  · next hge => exact decimal_eq_digits (.inr (Nat.not_lt.mp hge)) h

theorem signedDecimal_eq {year : Int} (hlow : 1000 ≤ year) (hhigh : year ≤ 9999) :
    signedDecimal year = digits 4 year.toNat := by
  rw [signedDecimal, if_neg (by omega), show year.natAbs = year.toNat by omega]
  exact decimal_eq_digits (.inr (by change 1000 ≤ _; omega)) (by change _ < 10000; omega)

/-! ## Fields -/

/-- A number that fills its conversion, or that something else follows, is read. -/
theorem scanNumber_digits {width lo hi w n : Nat} {rest : Bytes} (hw : 0 < w)
    (hn : n < 10 ^ w) (hlo : lo ≤ n) (hhi : n ≤ hi)
    (hend : w = width ∨ w < width ∧ ∀ c ∈ rest.head?, isdigit c = false) :
    scanNumber width lo hi (digits w n ++ rest) = some (n, rest) := by
  have hne : digits w n ≠ [] := by
    rw [← List.length_pos_iff, length_digits]
    exact hw
  have htake : ((digits w n ++ rest).take width).takeWhile isdigit = digits w n := by
    have hle : w ≤ width := hend.elim Nat.le_of_eq fun h => Nat.le_of_lt h.1
    rw [List.take_append, length_digits, List.take_of_length_le (by rw [length_digits]; exact hle),
      List.takeWhile_append_of_pos fun c hc => isdigit_of_mem_digits hc]
    have hstop : (rest.take (width - w)).takeWhile isdigit = [] := by
      obtain rfl | ⟨hlt, hnext⟩ := hend
      · rw [Nat.sub_self]
        rfl
      · cases rest with
        | nil => rw [List.take_nil, List.takeWhile_nil]
        | cons c rest =>
          obtain ⟨more, hmore⟩ := Nat.exists_eq_add_of_lt hlt
          rw [show width - w = more + 1 by omega, List.take_succ_cons,
            List.takeWhile_cons_of_neg (by rw [hnext c rfl]; exact Bool.false_ne_true)]
    rw [hstop, List.append_nil]
  rw [scanNumber, htake, digitsValue_digits hn, if_pos ⟨hne, hlo, hhi⟩, List.drop_left]

theorem scanName_weekday {wday : Nat} (h : wday < 7) (rest : Bytes) :
    scanName weekdayNames (getDayOfWeek wday ++ ','.toUInt8 :: rest) =
      some (wday, ','.toUInt8 :: rest) := by
  match wday, h with
  | 0, _ | 1, _ | 2, _ | 3, _ | 4, _ | 5, _ | 6, _ => rfl

theorem scanName_month {mon : Nat} (h : mon < 12) (rest : Bytes) :
    scanName monthNames (getMonth mon ++ ' '.toUInt8 :: rest) =
      some (mon, ' '.toUInt8 :: rest) := by
  match mon, h with
  | 0, _ | 1, _ | 2, _ | 3, _ | 4, _ | 5, _ | 6, _ | 7, _ | 8, _ | 9, _ | 10, _ | 11, _ => rfl

section Conversions

variable (tm : Tm) {n : Nat} (rest : Bytes)

theorem convert_weekday (h : n < 7) :
    convert 'a'.toUInt8 tm (getDayOfWeek n ++ ','.toUInt8 :: rest) =
      some ({ tm with wday := n }, ','.toUInt8 :: rest) := by
  rw [convert, if_pos rfl, scanName_weekday h]
  rfl

theorem convert_month (h : n < 12) :
    convert 'b'.toUInt8 tm (getMonth n ++ ' '.toUInt8 :: rest) =
      some ({ tm with mon := n }, ' '.toUInt8 :: rest) := by
  rw [convert, if_neg (by decide), if_pos rfl, scanName_month h]
  rfl

theorem convert_day {s : Bytes} (h : scanNumber 2 1 31 s = some (n, rest)) :
    convert 'd'.toUInt8 tm s = some ({ tm with mday := n }, rest) := by
  change (scanNumber 2 1 31 s).map _ = _
  rw [h]
  rfl

theorem convert_year (h : n < 10000) :
    convert 'Y'.toUInt8 tm (digits 4 n ++ rest) = some ({ tm with year := n }, rest) := by
  change (scanNumber 4 0 9999 _).map _ = _
  rw [scanNumber_digits (by decide) h (Nat.zero_le n) (Nat.le_of_lt_succ h) (.inl rfl)]
  rfl

theorem convert_hour (h : n < 24) :
    convert 'H'.toUInt8 tm (digits 2 n ++ rest) = some ({ tm with hour := n }, rest) := by
  change (scanNumber 2 0 23 _).map _ = _
  rw [scanNumber_digits (by decide) (Nat.lt_trans h (by decide)) (Nat.zero_le n)
    (Nat.le_of_lt_succ h) (.inl rfl)]
  rfl

theorem convert_minute (h : n < 60) :
    convert 'M'.toUInt8 tm (digits 2 n ++ rest) = some ({ tm with min := n }, rest) := by
  change (scanNumber 2 0 59 _).map _ = _
  rw [scanNumber_digits (by decide) (Nat.lt_trans h (by decide)) (Nat.zero_le n)
    (Nat.le_of_lt_succ h) (.inl rfl)]
  rfl

theorem convert_second (h : n ≤ 60) :
    convert 'S'.toUInt8 tm (digits 2 n ++ rest) = some ({ tm with sec := n }, rest) := by
  change (scanNumber 2 0 60 _).map _ = _
  rw [scanNumber_digits (by decide) (Nat.lt_of_le_of_lt h (by decide)) (Nat.zero_le n) h (.inl rfl)]
  rfl

end Conversions

/-! ## The format -/

section Format

variable {g : UInt8} {fmt : Bytes} {tm : Tm} {s : Bytes}

/-- A conversion reads its field. Where the text ends with it, the format has to end as well. -/
theorem matchFormat_convert {r : Tm × Bytes} (hne : s ≠ []) (h : convert g tm s = some r)
    (hend : r.2 = [] → fmt = []) :
    matchFormat ('%'.toUInt8 :: g :: fmt) tm s = matchFormat fmt r.1 r.2 := by
  obtain ⟨c, s, rfl⟩ := List.exists_cons_of_ne_nil hne
  obtain ⟨tm', rest⟩ := r
  rw [matchFormat, if_pos rfl, h]
  cases rest with
  | nil =>
    obtain rfl := hend rfl
    rfl
  | cons _ _ => rfl

/-- A character of the format that stands for itself. -/
theorem matchFormat_self {f : UInt8} (hf : f ≠ '%'.toUInt8) (hspace : isspace f = false) :
    matchFormat (f :: g :: fmt) tm (f :: s) = matchFormat (g :: fmt) tm s := by
  rw [matchFormat, if_neg hf, hspace, if_neg Bool.false_ne_true, if_pos rfl]

/-- A blank of the format and of the text. -/
theorem matchFormat_blank (h : ∀ c ∈ s.head?, isspace c = false) :
    matchFormat (' '.toUInt8 :: g :: fmt) tm (' '.toUInt8 :: s) = matchFormat (g :: fmt) tm s := by
  have hblank : isspace ' '.toUInt8 = true := by decide
  have htrim : trimLeft (' '.toUInt8 :: s) = s := by
    rw [trimLeft, List.dropWhile_cons_of_pos hblank]
    exact trimLeft_eq_self.mpr h
  rw [matchFormat, if_neg (by decide), if_pos hblank, htrim]

end Format

/-- What a date and a time look like in a header, without the zone. -/
def dateText (wday : Nat) (day : Bytes) (mon year hour min sec : Nat) : Bytes :=
  getDayOfWeek wday ++ bytes ", " ++ day ++ bytes " " ++ getMonth mon ++ bytes " " ++
    digits 4 year ++ bytes " " ++ digits 2 hour ++ bytes ":" ++ digits 2 min ++ bytes ":" ++
    digits 2 sec

/-- The numbers of a time are in the ranges of their fields. -/
structure InRange (wday mon year hour min sec : Nat) : Prop where
  wday_lt : wday < 7
  mon_lt : mon < 12
  year_lt : year < 10000
  hour_lt : hour < 24
  min_lt : min < 60
  sec_le : sec ≤ 60

theorem head?_digits {width n : Nat} {c : UInt8} {rest : Bytes}
    (h : c ∈ (digits (width + 1) n ++ rest).head?) : isdigit c = true := by
  cases hdigits : digits (width + 1) n with
  | nil =>
    have hlength := length_digits (width + 1) n
    rw [hdigits] at hlength
    cases hlength
  | cons d more =>
    rw [hdigits] at h
    cases h
    have hmem : c ∈ digits (width + 1) n := hdigits ▸ List.mem_cons_self
    exact isdigit_of_mem_digits hmem

theorem not_isspace_digits {width n : Nat} {rest : Bytes} :
    ∀ c ∈ (digits (width + 1) n ++ rest).head?, isspace c = false :=
  fun c hc => (isdigit_plain c (head?_digits hc)).2.1

theorem not_isspace_month {mon : Nat} (h : mon < 12) {rest : Bytes} :
    ∀ c ∈ (getMonth mon ++ rest).head?, isspace c = false := by
  have hall : ∀ mon < 12, ∃ c cs, getMonth mon = c :: cs ∧ isspace c = false := by
    intro mon h
    match mon, h with
    | 0, _ | 1, _ | 2, _ | 3, _ | 4, _ | 5, _ | 6, _ | 7, _ | 8, _ | 9, _ | 10, _ | 11, _ =>
      exact ⟨_, _, rfl, by decide⟩
  obtain ⟨c, cs, hmonth, hspace⟩ := hall mon h
  rw [hmonth]
  rintro d ⟨⟩
  exact hspace

theorem digits_append_ne_nil {width n : Nat} {rest : Bytes} :
    digits (width + 1) n ++ rest ≠ [] := by
  refine List.append_ne_nil_of_left_ne_nil ?_ rest
  rw [← List.length_pos_iff, length_digits]
  exact Nat.succ_pos width

/-- **The fields of a date are read from its text**, however its day is written. -/
theorem matchFormat_dateText {wday mon year hour min sec mday : Nat} {day : Bytes}
    (h : InRange wday mon year hour min sec)
    (hhead : ∀ rest, ∀ c ∈ (day ++ ' '.toUInt8 :: rest).head?, isspace c = false)
    (hday : ∀ rest, scanNumber 2 1 31 (day ++ ' '.toUInt8 :: rest) =
      some (mday, ' '.toUInt8 :: rest)) {fmt rest : Bytes} (hend : rest = [] → fmt = [])
    (tm : Tm) :
    matchFormat (bytes "%a, %d %b %Y %H:%M:%S" ++ fmt) tm
        (dateText wday day mon year hour min sec ++ rest) =
      matchFormat fmt ⟨year, mon, mday, wday, hour, min, sec⟩ rest := by
  have hformat : bytes "%a, %d %b %Y %H:%M:%S" ++ fmt =
      '%'.toUInt8 :: 'a'.toUInt8 :: ','.toUInt8 :: ' '.toUInt8 :: '%'.toUInt8 :: 'd'.toUInt8 ::
        ' '.toUInt8 :: '%'.toUInt8 :: 'b'.toUInt8 :: ' '.toUInt8 :: '%'.toUInt8 :: 'Y'.toUInt8 ::
        ' '.toUInt8 :: '%'.toUInt8 :: 'H'.toUInt8 :: ':'.toUInt8 :: '%'.toUInt8 :: 'M'.toUInt8 ::
        ':'.toUInt8 :: '%'.toUInt8 :: 'S'.toUInt8 :: fmt := rfl
  have htext : dateText wday day mon year hour min sec ++ rest =
      getDayOfWeek wday ++ ','.toUInt8 :: ' '.toUInt8 :: (day ++ ' '.toUInt8 :: (getMonth mon ++
        ' '.toUInt8 :: (digits 4 year ++ ' '.toUInt8 :: (digits 2 hour ++ ':'.toUInt8 ::
        (digits 2 min ++ ':'.toUInt8 :: (digits 2 sec ++ rest)))))) := by
    simp only [dateText, List.append_assoc]
    rfl
  have hcons : ∀ {w s : Bytes} {c : UInt8}, w ++ c :: s ≠ [] :=
    fun {_ _ _} => List.append_ne_nil_of_right_ne_nil _ (List.cons_ne_nil _ _)
  have hgo : ∀ {s fmt : Bytes} {c : UInt8}, c :: s = [] → fmt = [] := nofun
  rw [hformat, htext, matchFormat_convert hcons (convert_weekday tm _ h.wday_lt) hgo,
    matchFormat_self (by decide) (by decide), matchFormat_blank (hhead _),
    matchFormat_convert hcons (convert_day _ _ (hday _)) hgo,
    matchFormat_blank (not_isspace_month h.mon_lt),
    matchFormat_convert hcons (convert_month _ _ h.mon_lt) hgo,
    matchFormat_blank not_isspace_digits,
    matchFormat_convert digits_append_ne_nil (convert_year _ _ h.year_lt) hgo,
    matchFormat_blank not_isspace_digits,
    matchFormat_convert digits_append_ne_nil (convert_hour _ _ h.hour_lt) hgo,
    matchFormat_self (by decide) (by decide),
    matchFormat_convert digits_append_ne_nil (convert_minute _ _ h.min_lt) hgo,
    matchFormat_self (by decide) (by decide),
    matchFormat_convert digits_append_ne_nil (convert_second _ _ h.sec_le) hend]

theorem length_dayOfWeek {wday : Nat} (h : wday < 7) : (getDayOfWeek wday).length = 3 := by
  match wday, h with
  | 0, _ | 1, _ | 2, _ | 3, _ | 4, _ | 5, _ | 6, _ => rfl

theorem length_month {mon : Nat} (h : mon < 12) : (getMonth mon).length = 3 := by
  match mon, h with
  | 0, _ | 1, _ | 2, _ | 3, _ | 4, _ | 5, _ | 6, _ | 7, _ | 8, _ | 9, _ | 10, _ | 11, _ => rfl

theorem length_dateText {wday mon year hour min sec : Nat}
    (h : InRange wday mon year hour min sec) (day : Bytes) :
    (dateText wday day mon year hour min sec).length = day.length + 23 := by
  have hseparators : (bytes ", ").length = 2 ∧ (bytes " ").length = 1 ∧ (bytes ":").length = 1 := by
    decide
  simp only [dateText, List.length_append, length_dayOfWeek h.wday_lt, length_month h.mon_lt,
    length_digits, hseparators]
  omega

theorem scanNumber_twoDigits {n : Nat} (hone : 1 ≤ n) (hle : n ≤ 31) (rest : Bytes) :
    scanNumber 2 1 31 (digits 2 n ++ rest) = some (n, rest) :=
  scanNumber_digits (by decide) (Nat.lt_of_le_of_lt hle (by decide)) hone hle (.inl rfl)

/-- A date begins with a letter. -/
theorem trimLeft_dateText {wday : Nat} (h : wday < 7) {day rest : Bytes}
    {mon year hour min sec : Nat} :
    trimLeft (dateText wday day mon year hour min sec ++ rest) =
      dateText wday day mon year hour min sec ++ rest := by
  have hall : ∀ wday < 7, ∃ c cs, getDayOfWeek wday = c :: cs ∧ isspace c = false := by
    intro wday h
    match wday, h with
    | 0, _ | 1, _ | 2, _ | 3, _ | 4, _ | 5, _ | 6, _ => exact ⟨_, _, rfl, by decide⟩
  obtain ⟨c, cs, hday, hspace⟩ := hall wday h
  rw [dateText, hday, trimLeft_eq_self]
  rintro d ⟨⟩
  exact hspace

theorem inRange_of_dateTime {dt : DateTime} (hyear : FourDigitYear dt) {wday : Nat}
    (hwday : wday < 7) : InRange wday dt.month dt.year.toNat dt.hour dt.minute dt.second where
  wday_lt := hwday
  mon_lt := dt.month_lt
  year_lt := by
    have hle := hyear.2
    omega
  hour_lt := dt.hour_lt
  min_lt := dt.minute_lt
  sec_le := dt.second_le

/-- The fields of a date and time are read, with the day of the week that the text has. -/
theorem getTime_dateTime {dt : DateTime} (hyear : FourDigitYear dt) {wday : Nat} (hwday : wday < 7)
    {day : Bytes} (hhead : ∀ rest, ∀ c ∈ (day ++ ' '.toUInt8 :: rest).head?, isspace c = false)
    (hday : ∀ rest, scanNumber 2 1 31 (day ++ ' '.toUInt8 :: rest) =
      some (dt.day, ' '.toUInt8 :: rest)) {fmt rest : Bytes} (hend : rest = [] → fmt = []) :
    getTime (bytes "%a, %d %b %Y %H:%M:%S" ++ fmt)
        (dateText wday day dt.month dt.year.toNat dt.hour dt.minute dt.second ++ rest) =
      matchFormat fmt { fields dt with wday } rest := by
  have hrange := inRange_of_dateTime hyear hwday
  have htoNat : ((dt.year.toNat : Nat) : Int) = dt.year := by
    have hlow := hyear.1
    omega
  rw [getTime, trimLeft_dateText hwday, matchFormat_dateText hrange hhead hday hend, htoNat]
  rfl

end Nawa.utils
