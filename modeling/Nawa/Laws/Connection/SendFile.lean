import Nawa.Connection.SendFile
import Nawa.Laws.Util.HttpTime

/-!
# What `sendFile` leaves in a response

The body string is resized to one byte more than the file has and that byte, a zero, stays behind
the file's bytes (`sendFile_body`), so that a file is never sent as it is (`servesFile_iff`).

Whether a file is sent at all, where a client names a time, is decided on the number that the
header begins with. A date begins with none and counts as 0, as does a header that is missing, so
that what the client was sent as `last-modified` is not recognised (`agreesWithDate_iff`).
-/

namespace Nawa.Connection

open Lib (AssocMap)

/-! ## The body string -/

/-- Whatever the string was before, it holds the file's bytes and a zero. -/
theorem readOver_resize (content body : Bytes) :
    readOver ((resize body (content.length + 1) 0).set content.length 0) content =
      content ++ [0] := by
  have hone : ((resize body (content.length + 1) 0).drop content.length).length = 1 := by
    rw [resize, List.length_drop, List.length_append, List.length_take, List.length_replicate]
    omega
  obtain ⟨c, hc⟩ := List.length_eq_one_iff.mp hone
  have hlast : ((resize body (content.length + 1) 0).set content.length 0).drop content.length =
      [0] := by
    rw [List.drop_set, if_neg (Nat.lt_irrefl _), hc, Nat.sub_self]
    rfl
  rw [readOver, hlast]

variable (conn : Connection) (files : FileSystem) (path contentType : Bytes)
  (forceDownload : Bool) (downloadFilename : Bytes) (checkIfModifiedSince : Bool)

/-- What fits into a string with a byte more is no directory. -/
theorem size_of_fits {file : File} (h : ¬ maxSize < file.size + 1) :
    file.directory = false ∧ file.size = file.content.length := by
  rw [File.size] at h ⊢
  cases hdirectory : file.directory with
  | true =>
    rw [hdirectory, if_pos rfl] at h
    exact absurd (Nat.lt_succ_self maxSize) h
  | false => exact ⟨rfl, if_neg Bool.false_ne_true⟩

/-- The statements make up `sendFile`. Nothing has been carried out where the file cannot be
opened; a directory leaves its headers behind. -/
theorem sendFileInPlace_eq :
    (conn.sendFileInPlace files path contentType forceDownload downloadFilename
        checkIfModifiedSince).2 =
      (conn.sendFile files path contentType forceDownload downloadFilename
        checkIfModifiedSince).map (fun _ => ()) ∧
    (∀ conn', conn.sendFile files path contentType forceDownload downloadFilename
        checkIfModifiedSince = .ok conn' →
      (conn.sendFileInPlace files path contentType forceDownload downloadFilename
        checkIfModifiedSince).1 = conn') ∧
    (files path = none →
      (conn.sendFileInPlace files path contentType forceDownload downloadFilename
        checkIfModifiedSince).1 = conn) := by
  rw [sendFileInPlace, sendFile]
  cases files path with
  | none =>
    refine ⟨rfl, ?_, fun _ => rfl⟩
    intro conn' hok
    cases hok
  | some file =>
    dsimp only
    by_cases h : checkIfModifiedSince ∧ ifModifiedSince conn.request ≥ file.lastModified.getD 0
    · rw [if_pos h, if_pos h]
      exact ⟨rfl, fun _ hok => Except.ok.inj hok, nofun⟩
    · rw [if_neg h, if_neg h]
      by_cases hlong : maxSize < file.size + 1
      · rw [if_pos hlong, if_pos hlong]
        refine ⟨rfl, ?_, nofun⟩
        intro conn' hok
        cases hok
      · rw [if_neg hlong, if_neg hlong, (size_of_fits hlong).2, readOver_resize]
        exact ⟨rfl, fun _ hok => Except.ok.inj hok, nofun⟩

/-! ## What is served -/

/-- Where the file was not modified since the time that the client names. -/
def NotModified (request : Request) (file : File) : Prop :=
  checkIfModifiedSince ∧ ifModifiedSince request ≥ file.lastModified.getD 0

/-- What `sendFile` is for: a body that is the file, with its length; where the file cannot be
opened, an exception and the response as it was. A directory is no file. -/
def ServesFile : Prop :=
  let after := conn.sendFileInPlace files path contentType forceDownload downloadFilename
    checkIfModifiedSince
  match files path with
  | none => after.2 = .error (.nawa cannotOpenFile) ∧ after.1.responseStatus = conn.responseStatus ∧
      after.1.headers = conn.headers ∧ after.1.getResponseBody.2 = conn.getResponseBody.2
  | some file => file.directory = false → ¬ NotModified checkIfModifiedSince conn.request file →
      after.2 = .ok () ∧ after.1.getResponseBody.2 = file.content ∧
        after.1.headers.lookup (bytes "content-length") =
          some [decimal after.1.getResponseBody.2.length]

theorem lookup_setHeader (key value key' : Bytes) :
    (conn.setHeader key value).headers.lookup key' =
      if key' = utils.toLowercase key then some [value] else conn.headers.lookup key' :=
  AssocMap.lookup_insert conn.headers (utils.toLowercase key) key' [value]

theorem lookup_setLastModified (lastModified : Int) {key : Bytes}
    (h : key ≠ bytes "last-modified") :
    (conn.setLastModified lastModified).headers.lookup key = conn.headers.lookup key := by
  rw [setLastModified]
  by_cases hpositive : lastModified > 0
  · rw [if_pos hpositive]
    cases utils.makeHttpTime lastModified with
    | error _ => rfl
    | ok time =>
      have hname : utils.toLowercase (bytes "last-modified") = bytes "last-modified" := by decide
      dsimp only
      rw [lookup_setHeader, hname, if_neg h]
  · rw [if_neg hpositive]

variable {conn files path contentType forceDownload downloadFilename checkIfModifiedSince}

theorem sendFile_none (h : files path = none) :
    conn.sendFile files path contentType forceDownload downloadFilename checkIfModifiedSince =
      .error (.nawa cannotOpenFile) := by
  rw [sendFile, h]

theorem sendFile_notModified {file : File} (hfile : files path = some file)
    (h : NotModified checkIfModifiedSince conn.request file) :
    conn.sendFile files path contentType forceDownload downloadFilename checkIfModifiedSince =
      .ok ((conn.setStatus 304).setResponseBody []) := by
  rw [sendFile, hfile]
  exact if_pos h

theorem sendFile_tooLong {file : File} (hfile : files path = some file)
    (h : ¬ NotModified checkIfModifiedSince conn.request file)
    (hlong : maxSize < file.size + 1) :
    conn.sendFile files path contentType forceDownload downloadFilename checkIfModifiedSince =
      .error (.std .lengthError) := by
  rw [sendFile, hfile]
  exact (if_neg h).trans (if_pos hlong)

/-- What has been opened is not sent for its length alone. -/
theorem tooLong_of_error {file : File} (hfile : files path = some file) {e : Failure}
    (h : conn.sendFile files path contentType forceDownload downloadFilename
      checkIfModifiedSince = .error e) :
    ¬ NotModified checkIfModifiedSince conn.request file ∧ maxSize < file.size + 1 := by
  rw [sendFile, hfile] at h
  dsimp only at h
  split at h
  · cases h
  · next hmodified =>
    split at h
    · next hlong => exact ⟨hmodified, hlong⟩
    · cases h

/-- **A file that is sent is followed by a zero, which its length does not count.** -/
theorem sendFile_body {file : File} (hfile : files path = some file)
    (h : ¬ NotModified checkIfModifiedSince conn.request file)
    (hfits : ¬ maxSize < file.size + 1) :
    ∃ conn', conn.sendFile files path contentType forceDownload downloadFilename
        checkIfModifiedSince = .ok conn' ∧
      conn'.getResponseBody.2 = file.content ++ [0] ∧
      conn'.headers.lookup (bytes "content-length") = some [decimal file.content.length] := by
  have hname : utils.toLowercase (bytes "content-length") = bytes "content-length" := by decide
  rw [sendFile, hfile]
  refine ⟨_, (if_neg h).trans (if_neg hfits), List.append_nil _, ?_⟩
  rw [clearStream, lookup_setLastModified _ _ (by decide), lookup_setHeader, hname, if_pos rfl]

/-- **`sendFile` keeps its promise exactly where there is nothing to send.** -/
theorem servesFile_iff :
    ServesFile conn files path contentType forceDownload downloadFilename
        checkIfModifiedSince ↔
      ∀ file, files path = some file → file.directory = false →
        NotModified checkIfModifiedSince conn.request file := by
  obtain ⟨hresult, hok, hnone⟩ := sendFileInPlace_eq conn files path contentType forceDownload
    downloadFilename checkIfModifiedSince
  rw [ServesFile]
  cases hfile : files path with
  | none =>
    rw [sendFile_none hfile] at hresult
    refine iff_of_true ?_ nofun
    dsimp only
    rw [hresult, hnone hfile]
    exact ⟨rfl, rfl, rfl, rfl⟩
  | some file =>
    dsimp only
    constructor
    · intro hserves file' hsome hregular
      cases hsome
      by_contra hmodified
      obtain ⟨hreturns, hexact, -⟩ := hserves hregular hmodified
      by_cases hlong : maxSize < file.size + 1
      · rw [hresult, sendFile_tooLong hfile hmodified hlong] at hreturns
        cases hreturns
      · obtain ⟨conn', hsend, hbody, -⟩ := sendFile_body hfile hmodified hlong
        rw [hok conn' hsend, hbody] at hexact
        exact List.cons_ne_nil 0 [] (List.append_right_eq_self.mp hexact)
    · intro hall hregular hmodified
      exact absurd (hall file rfl hregular) hmodified

/-- One file of one byte, whatever the path. -/
def oneByteFile : FileSystem := fun _ => some { content := bytes "x", lastModified := none }

/-- It is sent as two bytes, with a length of 1. -/
theorem not_servesFile_oneByte :
    ¬ ServesFile {} oneByteFile (bytes "x.txt") [] false [] false := by
  intro h
  have hmodified : ¬ NotModified false {} { content := bytes "x", lastModified := none } :=
    fun hnot => Bool.false_ne_true hnot.1
  exact absurd (h rfl hmodified).2.1 (by decide)

/-! ## Conditional requests -/

/-- The date in the `if-modified-since` header, where the request has one that is a date. -/
def requestedTime (request : Request) : Option Int :=
  match request.env.lookup (bytes "if-modified-since") with
  | none => none
  | some header =>
    match utils.readHttpTime header with
    | .ok time => some time
    | .error _ => none

/-- A date is read as 0. -/
theorem ifModifiedSince_of_date {request : Request} {t : Int}
    (h : requestedTime request = some t) : ifModifiedSince request = 0 := by
  unfold requestedTime at h
  split at h
  · cases h
  · next header hlookup =>
    split at h
    · next time htime =>
      have hheader : request.envVar (bytes "if-modified-since") = header := by
        rw [Request.envVar, hlookup]
        rfl
      rw [ifModifiedSince, hheader, utils.stol_of_readHttpTime htime]
    · cases h

section

variable (conn : Connection) (files : FileSystem) (path contentType : Bytes)
  (forceDownload : Bool) (downloadFilename : Bytes)

def Answers304 : Prop :=
  ∃ conn', conn.sendFile files path contentType forceDownload downloadFilename true = .ok conn' ∧
    conn'.responseStatus = 304 ∧ conn'.getResponseBody.2 = []

/-- The answer 304 is for a client that names a time from the file's last modification on. -/
def AgreesWithDate (m : Int) : Prop :=
  Answers304 conn files path contentType forceDownload downloadFilename ↔
    ∃ t, requestedTime conn.request = some t ∧ m ≤ t

end

theorem answers304_iff {content : Bytes} {m : Int}
    (hfile : files path = some { content, lastModified := some m }) :
    Answers304 conn files path contentType forceDownload downloadFilename ↔
      m ≤ ifModifiedSince conn.request := by
  constructor
  · rintro ⟨conn', hsend, -, hbody⟩
    by_contra hlt
    have hmodified : ¬ NotModified true conn.request { content, lastModified := some m } :=
      fun h => hlt h.2
    by_cases hlong : maxSize < (⟨content, some m, false⟩ : File).size + 1
    · rw [sendFile_tooLong hfile hmodified hlong] at hsend
      cases hsend
    · obtain ⟨conn'', hsend', hbody', -⟩ := sendFile_body hfile hmodified hlong
      obtain rfl : conn' = conn'' := Except.ok.inj (hsend.symm.trans hsend')
      rw [hbody] at hbody'
      exact List.append_ne_nil_of_right_ne_nil content (List.cons_ne_nil 0 []) hbody'.symm
  · intro hle
    exact ⟨_, sendFile_notModified hfile ⟨rfl, hle⟩, rfl, rfl⟩

/-- **What was sent as `last-modified` comes back in vain.** -/
theorem not_answers304_echo {content time : Bytes} {m : Int} (hm : 0 < m)
    (hfile : files path = some { content, lastModified := some m })
    (htime : utils.makeHttpTime m = .ok time)
    (hecho : conn.request.env.lookup (bytes "if-modified-since") = some time) :
    ¬ Answers304 conn files path contentType forceDownload downloadFilename := by
  have hheader : conn.request.envVar (bytes "if-modified-since") = time := by
    rw [Request.envVar, hecho]
    rfl
  rw [answers304_iff hfile, ifModifiedSince, hheader, utils.stol_of_makeHttpTime htime]
  exact Int.not_le.mpr hm

/-- Without the header, a file is new to the client exactly if it is newer than 1970. -/
theorem answers304_without_header {content : Bytes} {m : Int}
    (hfile : files path = some { content, lastModified := some m })
    (hheader : conn.request.env.lookup (bytes "if-modified-since") = none) :
    Answers304 conn files path contentType forceDownload downloadFilename ↔ m ≤ 0 := by
  have hempty : conn.request.envVar (bytes "if-modified-since") = [] := by
    rw [Request.envVar, hheader]
    rfl
  rw [answers304_iff hfile, ifModifiedSince, hempty]
  exact Iff.rfl

/-- **Which conditional requests are answered by the dates**: not those for a file newer than
1970 that echo what was sent for it, whereas an older file is not sent to anyone. -/
theorem agreesWithDate_iff {content : Bytes} {m : Int}
    (hfile : files path = some { content, lastModified := some m }) :
    (AgreesWithDate conn files path contentType forceDownload downloadFilename m ↔
      (∀ t, requestedTime conn.request = some t → (m ≤ 0 ∧ m ≤ t) ∨ (0 < m ∧ t < m)) ∧
        (requestedTime conn.request = none → ifModifiedSince conn.request < m)) ∧
    (∀ time, 0 < m → utils.makeHttpTime m = .ok time →
      conn.request.env.lookup (bytes "if-modified-since") = some time →
        ¬ Answers304 conn files path contentType forceDownload downloadFilename) ∧
    (conn.request.env.lookup (bytes "if-modified-since") = none →
      (Answers304 conn files path contentType forceDownload downloadFilename ↔ m ≤ 0)) := by
  refine ⟨?_, fun time hm htime hecho => not_answers304_echo hm hfile htime hecho,
    answers304_without_header hfile⟩
  rw [AgreesWithDate, answers304_iff hfile]
  cases htime : requestedTime conn.request with
  | none => simp only [reduceCtorEq, false_and, exists_false, iff_false, false_implies,
      implies_true, true_and, true_implies, Int.not_le]
  | some t =>
    rw [ifModifiedSince_of_date htime]
    simp only [Option.some.injEq, exists_eq_left', forall_eq', reduceCtorEq, false_implies,
      and_true]
    omega

/-- A file by its modification time, whatever the path. -/
def datedFile (m : Int) : FileSystem :=
  fun _ => some { content := bytes "x", lastModified := some m }

/-- A client that has the file of 784111777. -/
def dated : Connection where
  request :=
    { env := AssocMap.empty.insert (bytes "if-modified-since")
        (bytes "Sun, 06 Nov 1994 08:49:37 GMT") }

theorem requestedTime_dated : requestedTime dated.request = some 784111777 := by decide +kernel

/-- It is sent the file a second time; and a client without the header is not sent the file of
the time 0. -/
theorem not_agreesWithDate :
    ¬ AgreesWithDate dated (datedFile 784111777) (bytes "x.txt") [] false [] 784111777 ∧
      ¬ AgreesWithDate {} (datedFile 0) (bytes "x.txt") [] false [] 0 := by
  constructor
  · intro h
    have hanswer := h.mpr ⟨784111777, requestedTime_dated, Int.le_refl _⟩
    have hle := (answers304_iff rfl).mp hanswer
    rw [ifModifiedSince_of_date requestedTime_dated] at hle
    exact absurd hle (by decide)
  · intro h
    obtain ⟨t, ht, -⟩ := h.mp ((answers304_iff rfl).mpr (by decide))
    cases ht

/-- A file that is newer by a second is sent, as it should be. -/
theorem agreesWithDate_newer :
    AgreesWithDate dated (datedFile 784111778) (bytes "x.txt") [] false [] 784111778 := by
  refine (agreesWithDate_iff rfl).1.mpr ⟨?_, ?_⟩
  · intro t ht
    obtain rfl : 784111777 = t := Option.some.inj (requestedTime_dated.symm.trans ht)
    exact .inr ⟨by decide, by decide⟩
  · intro hnone
    rw [requestedTime_dated] at hnone
    cases hnone

end Nawa.Connection
