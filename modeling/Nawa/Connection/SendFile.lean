import Nawa.Connection.Connection

/-!
# `Connection::sendFile`
-/

namespace Nawa

/-- What has been opened for reading: the bytes of a file, and the time of its last modification
where `stat` has one. A directory can be opened as well. -/
structure File where
  content : Bytes
  lastModified : Option Int
  directory : Bool := false

/-- `max_size` of a string. -/
def maxSize : Nat := 2 ^ 63 - 1

/-- The position of the end. That of a directory is the greatest there is. -/
def File.size (file : File) : Nat := if file.directory then maxSize else file.content.length

/-- What can be opened, by path. -/
abbrev FileSystem := Bytes → Option File

namespace Connection

def cannotOpenFile : Exception := ⟨1, bytes "Cannot open file for reading"⟩

/-- The time in the `if-modified-since` header; 0 for what is no number. -/
def ifModifiedSince (request : Request) : Int :=
  match stol (request.envVar (bytes "if-modified-since")) with
  | .ok time => time
  | .error _ => 0

/-- The `content-disposition` header, where one is set. -/
def setContentDisposition (conn : Connection) (forceDownload : Bool)
    (downloadFilename : Bytes) : Connection :=
  let named (disposition : Bytes) : Bytes :=
    disposition ++ bytes "; filename=" ++ [quote] ++ downloadFilename ++ [quote]
  if forceDownload then
    conn.setHeader (bytes "content-disposition")
      (if downloadFilename ≠ [] then named (bytes "attachment") else bytes "attachment")
  else if downloadFilename ≠ [] then
    conn.setHeader (bytes "content-disposition") (named (bytes "inline"))
  else conn

/-- The `last-modified` header, where the time is known and has an HTTP form. -/
def setLastModified (conn : Connection) (lastModified : Int) : Connection :=
  if lastModified > 0 then
    match utils.makeHttpTime lastModified with
    | .ok time => conn.setHeader (bytes "last-modified") time
    | .error _ => conn
  else conn

/-- `sendFile`. The body is resized to one byte more than the file has, and that byte is 0. -/
def sendFile (conn : Connection) (files : FileSystem) (path contentType : Bytes)
    (forceDownload : Bool) (downloadFilename : Bytes) (checkIfModifiedSince : Bool) :
    Except Failure Connection :=
  match files path with
  | none => .error (.nawa cannotOpenFile)
  | some file =>
    let lastModified := file.lastModified.getD 0
    if checkIfModifiedSince ∧ ifModifiedSince conn.request ≥ lastModified then
      .ok ((conn.setStatus 304).setResponseBody [])
    else if maxSize < file.size + 1 then .error (.std .lengthError)
    else
      let conn := conn.setHeader (bytes "content-type")
        (if contentType ≠ [] then contentType
          else utils.contentTypeByExtension (utils.getFileExtension path))
      let conn := conn.setContentDisposition forceDownload downloadFilename
      let conn := conn.setHeader (bytes "content-length") (decimal file.content.length)
      let conn := conn.setLastModified lastModified
      .ok { conn with bodyString := file.content ++ [0] }.clearStream

/-! ## On the body string itself -/

/-- `std::string::resize`, with `c` for the new bytes. -/
def resize (s : Bytes) (n : Nat) (c : UInt8) : Bytes := s.take n ++ List.replicate (n - s.length) c

/-- `read` of the file's bytes over the first ones of a string. -/
def readOver (s content : Bytes) : Bytes := content ++ s.drop content.length

/-- `sendFile`, one statement after the other on the connection; what has been changed before an
exception stays changed. -/
def sendFileInPlace (conn : Connection) (files : FileSystem) (path contentType : Bytes)
    (forceDownload : Bool) (downloadFilename : Bytes) (checkIfModifiedSince : Bool) :
    Connection × Except Failure Unit :=
  match files path with
  | none => (conn, .error (.nawa cannotOpenFile))
  | some file =>
    let lastModified := file.lastModified.getD 0
    if checkIfModifiedSince ∧ ifModifiedSince conn.request ≥ lastModified then
      ((conn.setStatus 304).setResponseBody [], .ok ())
    else
      let conn := conn.setHeader (bytes "content-type")
        (if contentType ≠ [] then contentType
          else utils.contentTypeByExtension (utils.getFileExtension path))
      let conn := conn.setContentDisposition forceDownload downloadFilename
      let fs := file.size
      let conn := conn.setHeader (bytes "content-length") (decimal fs)
      let conn := conn.setLastModified lastModified
      if maxSize < fs + 1 then (conn, .error (.std .lengthError))
      else
        let conn := { conn with bodyString := resize conn.bodyString (fs + 1) 0 }
        let conn := { conn with bodyString := conn.bodyString.set fs 0 }
        let conn := { conn with bodyString := readOver conn.bodyString file.content }
        (conn.clearStream, .ok ())

end Connection

end Nawa
