import Nawa.Util.Utils

/-!
# `nawa::utils`, the HTTP side

Content types by file extension, generated error pages, and the time format of HTTP headers.
Broken-down time is the proleptic Gregorian calendar, as `gmtime_r` has it.
-/

namespace Nawa.utils

/-! ## Content types -/

def contentTypeMap : List (Bytes × Bytes) := [
    (bytes "aac", bytes "audio/aac"),
    (bytes "arc", bytes "application/x-freearc"),
    (bytes "avi", bytes "video/x-msvideo"),
    (bytes "azw", bytes "application/vnd.amazon.ebook"),
    (bytes "bmp", bytes "image/bmp"),
    (bytes "bz", bytes "application/x-bzip"),
    (bytes "bz2", bytes "application/x-bzip2"),
    (bytes "csh", bytes "application/x-csh"),
    (bytes "css", bytes "text/css"),
    (bytes "csv", bytes "text/csv"),
    (bytes "deb", bytes "application/vnd.debian.binary-package"),
    (bytes "doc", bytes "application/msword"),
    (bytes "dot", bytes "application/msword"),
    (bytes "docx", bytes "application/vnd.openxmlformats-officedocument.wordprocessingml.document"),
    (bytes "dotx", bytes "application/vnd.openxmlformats-officedocument.wordprocessingml.document"),
    (bytes "eot", bytes "application/vnd.ms-fontobject"),
    (bytes "epub", bytes "application/epub+zip"),
    (bytes "flv", bytes "video/x-flv"),
    (bytes "f4v", bytes "video/mp4"),
    (bytes "f4a", bytes "audio/mp4"),
    (bytes "gif", bytes "image/gif"),
    (bytes "gz", bytes "application/x-gzip"),
    (bytes "htm", bytes "text/html"),
    (bytes "html", bytes "text/html"),
    (bytes "ico", bytes "image/vnd.microsoft.icon"),
    (bytes "ics", bytes "text/calendar"),
    (bytes "jar", bytes "application/java-archive"),
    (bytes "java", bytes "text/plain"),
    (bytes "jpg", bytes "image/jpeg"),
    (bytes "jpeg", bytes "image/jpeg"),
    (bytes "js", bytes "text/javascript"),
    (bytes "json", bytes "application/json"),
    (bytes "mid", bytes "audio/x-midi"),
    (bytes "midi", bytes "audio/x-midi"),
    (bytes "mjs", bytes "application/javascript"),
    (bytes "mp3", bytes "audio/mpeg"),
    (bytes "mpeg", bytes "video/mpeg"),
    (bytes "mp4", bytes "application/mp4"),
    (bytes "m4v", bytes "video/mp4"),
    (bytes "m4a", bytes "audio/mp4"),
    (bytes "mpkg", bytes "application/vnd.apple.installer+xml"),
    (bytes "odp", bytes "application/vnd.oasis.opendocument.presentation"),
    (bytes "otp", bytes "application/vnd.oasis.opendocument.presentation"),
    (bytes "ods", bytes "application/vnd.oasis.opendocument.spreadsheet"),
    (bytes "ots", bytes "application/vnd.oasis.opendocument.spreadsheet"),
    (bytes "odt", bytes "application/vnd.oasis.opendocument.text"),
    (bytes "ott", bytes "application/vnd.oasis.opendocument.text"),
    (bytes "ogg", bytes "application/ogg"),
    (bytes "ogx", bytes "application/ogg"),
    (bytes "oga", bytes "audio/ogg"),
    (bytes "ogv", bytes "video/ogg"),
    (bytes "otf", bytes "font/otf"),
    (bytes "png", bytes "image/png"),
    (bytes "pdf", bytes "application/pdf"),
    (bytes "ppt", bytes "application/vnd.ms-powerpoint"),
    (bytes "pptx", bytes "application/vnd.openxmlformats-officedocument.presentationml.presentation"),
    (bytes "rar", bytes "application/x-rar-compressed"),
    (bytes "rtf", bytes "application/rtf"),
    (bytes "sh", bytes "application/x-sh"),
    (bytes "svg", bytes "image/svg+xml"),
    (bytes "swf", bytes "application/x-shockwave-flash"),
    (bytes "tar", bytes "application/x-tar"),
    (bytes "tif", bytes "image/tiff"),
    (bytes "tiff", bytes "image/tiff"),
    (bytes "ttf", bytes "font/ttf"),
    (bytes "txt", bytes "text/plain"),
    (bytes "vsd", bytes "application/vnd.visio"),
    (bytes "wav", bytes "audio/wav"),
    (bytes "weba", bytes "audio/webm"),
    (bytes "webm", bytes "video/webm"),
    (bytes "webp", bytes "image/webp"),
    (bytes "woff", bytes "font/woff"),
    (bytes "woff2", bytes "font/woff2"),
    (bytes "xhtml", bytes "application/xhtml+xml"),
    (bytes "xls", bytes "application/vnd.ms-excel"),
    (bytes "xlt", bytes "application/vnd.ms-excel"),
    (bytes "xlsx", bytes "application/vnd.openxmlformats-officedocument.spreadsheetml.sheet"),
    (bytes "xltx", bytes "application/vnd.openxmlformats-officedocument.spreadsheetml.sheet"),
    (bytes "xml", bytes "application/xml"),
    (bytes "xul", bytes "application/vnd.mozilla.xul+xml"),
    (bytes "xz", bytes "application/x-xz"),
    (bytes "zip", bytes "application/zip"),
    (bytes "3gp", bytes "video/3gpp"),
    (bytes "3g2", bytes "video/3gpp2"),
    (bytes "7z", bytes "application/x-7z-compressed")
  ]

def contentTypeByExtension (extension : Bytes) : Bytes :=
  (contentTypeMap.lookup (toLowercase extension)).getD (bytes "application/octet-stream")

/-! ## Error pages -/

/-- The name of a status and its explanation; some have no explanation. -/
def errorTexts : Nat → Bytes × Bytes
  | 400 => (bytes "Bad Request",
      bytes "The server cannot process your request.")
  | 401 => (bytes "Unauthorized",
      bytes "The necessary credentials have not been provided.")
  | 403 => (bytes "Forbidden",
      bytes "You do not have the necessary permissions to view this page.")
  | 404 => (bytes "Not Found",
      bytes "The requested URL was not found on this server.")
  | 405 => (bytes "Method Not Allowed",
      bytes "The used request method is not supported for the requested resource.")
  | 406 => (bytes "Not Applicable",
      bytes "The requested function is unable to produce a resource that satisfies your browser's Accept header.")
  | 408 => (bytes "Request Timeout",
      bytes "A timeout occurred while waiting for your request.")
  | 409 => (bytes "Conflict",
      bytes "The request cannot be processed due to a conflict on the underlying resource.")
  | 410 => (bytes "Gone",
      bytes "The requested resource is no longer available.")
  | 415 => (bytes "Unsupported Media Type",
      bytes "Your browser has requested a media type that cannot be provided by this resource.")
  | 418 => (bytes "I'm a teapot",
      bytes "I cannot brew coffee for you.")
  | 429 => (bytes "Too Many Requests", [])
  | 451 => (bytes "Unavailable For Legal Reasons", [])
  | 500 => (bytes "Internal Server Error",
      bytes "The server encountered an internal error and is unable to fulfill your request.")
  | 501 => (bytes "Not Implemented",
      bytes "The server is not able to fulfill your request.")
  | 503 => (bytes "Service Unavailable",
      bytes "This service is currently unavailable. Please try again later.")
  | _ => (bytes "Unknown Error", [])

def generateErrorPage (httpStatus : Nat) : Bytes :=
  let (errorStr, explanation) := errorTexts httpStatus
  bytes "<!DOCTYPE html><html><head><title>" ++ decimal httpStatus ++ bytes " " ++ errorStr ++
    bytes "</title></head><body><h1>" ++ errorStr ++ bytes "</h1><p>" ++ explanation ++
    bytes "</p></body></html>"

/-! ## Time -/

/-- The members of `struct tm` that the time formats use; the year is the full year. -/
structure Tm where
  year : Int
  mon : Nat
  mday : Nat
  wday : Nat
  hour : Nat
  min : Nat
  sec : Nat
  deriving DecidableEq

/-- Year, month (from 0) and day of a number of days since 1970-01-01. The computation counts
years from March, so that the leap day is the last of its year. -/
def civilFromDays (days : Int) : Int × Nat × Nat :=
  let z := days + 719468
  let era := z.fdiv 146097
  let doe := (z - era * 146097).toNat
  let yoe := (doe - doe / 1460 + doe / 36524 - doe / 146096) / 365
  let doy := doe - (365 * yoe + yoe / 4 - yoe / 100)
  let mp := (5 * doy + 2) / 153
  let mon := if mp < 10 then mp + 2 else mp - 10
  (yoe + era * 400 + (if mon < 2 then 1 else 0), mon, doy - (153 * mp + 2) / 5 + 1)

/-- `gmtime_r`, which fails when the year does not fit its member. -/
def gmtime (time : Int) : Option Tm :=
  let days := time.fdiv 86400
  let secs := (time - days * 86400).toNat
  let (year, mon, mday) := civilFromDays days
  if -2 ^ 31 ≤ year - 1900 ∧ year - 1900 < 2 ^ 31 then
    some
      { year, mon, mday
        wday := ((days + 4).fmod 7).toNat
        hour := secs / 3600
        min := secs / 60 % 60
        sec := secs % 60 }
  else none

def getDayOfWeek (dow : Nat) : Bytes :=
  [bytes "Sun", bytes "Mon", bytes "Tue", bytes "Wed", bytes "Thu", bytes "Fri",
    bytes "Sat"].getD dow []

def getMonth (mon : Nat) : Bytes :=
  [bytes "Jan", bytes "Feb", bytes "Mar", bytes "Apr", bytes "May", bytes "Jun", bytes "Jul",
    bytes "Aug", bytes "Sep", bytes "Oct", bytes "Nov", bytes "Dec"].getD mon []

/-- Two digits, as `%d`, `%H`, `%M` and `%S` write them. -/
def twoDigits (n : Nat) : Bytes := if n < 10 then 48 :: decimal n else decimal n

def signedDecimal (n : Int) : Bytes := if n < 0 then 45 :: decimal n.natAbs else decimal n.natAbs

def interpretationFailed : Exception := ⟨1, bytes "Interpretation of UNIX timestamp failed."⟩

def makeHttpTime (time : Int) : Except Exception Bytes :=
  match gmtime time with
  | none => .error interpretationFailed
  | some gmt => .ok (getDayOfWeek gmt.wday ++ bytes ", " ++ twoDigits gmt.mday ++ bytes " " ++
      getMonth gmt.mon ++ bytes " " ++ signedDecimal gmt.year ++ bytes " " ++
      twoDigits gmt.hour ++ bytes ":" ++ twoDigits gmt.min ++ bytes ":" ++ twoDigits gmt.sec ++
      bytes " GMT")

example : makeHttpTime 784111777 = .ok (bytes "Sun, 06 Nov 1994 08:49:37 GMT") := by decide

end Nawa.utils
