import Nawa.Util.HttpTime

/-!
# SMTP times

`makeSmtpTime` and `readSmtpTime`. The rules of the local time zone are the function that gives
its offset from UTC, in seconds, at a timestamp.
-/

namespace Nawa.utils

/-- `localtime_r`. -/
def localtime (zone : Int → Int) (time : Int) : Option Tm := gmtime (time + zone time)

/-- The day as `%e` writes it, with a blank before a single digit. -/
def paddedDay (mday : Nat) : Bytes := if mday < 10 then 32 :: decimal mday else decimal mday

/-- The offset as `%z` writes it: hours and minutes. -/
def zoneOffset (gmtoff : Int) : Bytes :=
  (if gmtoff < 0 then '-'.toUInt8 else '+'.toUInt8) ::
    (twoDigits (gmtoff.natAbs / 60 / 60) ++ twoDigits (gmtoff.natAbs / 60 % 60))

def makeSmtpTime (zone : Int → Int) (time : Int) : Except Exception Bytes :=
  match localtime zone time with
  | none => .error interpretationFailed
  | some ltime => .ok (getDayOfWeek ltime.wday ++ bytes ", " ++ paddedDay ltime.mday ++
      bytes " " ++ getMonth ltime.mon ++ bytes " " ++ signedDecimal ltime.year ++ bytes " " ++
      twoDigits ltime.hour ++ bytes ":" ++ twoDigits ltime.min ++ bytes ":" ++
      twoDigits ltime.sec ++ bytes " " ++ zoneOffset (zone time))

def smtpParsingFailed : Exception := ⟨1, bytes "Parsing of SMTP timestamp failed."⟩

def smtpConversionFailed : Exception :=
  ⟨1, bytes "Conversion of parsed SMTP timestamp to a UNIX timestamp failed."⟩

def timezoneFailed : Exception :=
  ⟨1, bytes "Timezone adjustment in parsing of SMTP timestamp failed."⟩

/-- The text with a zero for a blank before the day. -/
def patchDay (smtpTime : Bytes) : Bytes :=
  if smtpTime[5]? = some ' '.toUInt8 then smtpTime.set 5 '0'.toUInt8 else smtpTime

def readSmtpTime (smtpTime : Bytes) : Except Exception Int :=
  let smtpTimeM := patchDay smtpTime
  match getTime (bytes "%a, %d %b %Y %H:%M:%S") smtpTimeM with
  | none => .error smtpParsingFailed
  | some timeStruct =>
    let unixTime := timegm timeStruct
    if unixTime = -1 then .error smtpConversionFailed
    else if 30 < smtpTimeM.length then
      let tzAdjust : Int := if smtpTimeM[26]? = some '-'.toUInt8 then 1 else -1
      match stol ((smtpTimeM.drop 27).take 2), stol ((smtpTimeM.drop 29).take 2) with
      | .ok tzH, .ok tzM => .ok (unixTime + tzAdjust * (tzH * 3600 + tzM * 60))
      | _, _ => .error timezoneFailed
    else .ok unixTime

example : readSmtpTime (bytes "Thu,  7 Nov 2019 16:29:50 +0100") = .ok 1573140590 := by decide

end Nawa.utils
