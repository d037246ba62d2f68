import Nawa.Connection.Connection

/-!
# The flush callback of the FastCGI handler
-/

namespace Nawa.FastcgippRequestAdapter

/-- The bytes that one flush sends to the web server. -/
def flushCallback (info : FlushCallbackContainer) : Bytes :=
  (if info.flushedBefore then [] else bytes "status: " ++ info.getStatusString ++ crlf) ++
    info.getFullHttp

end Nawa.FastcgippRequestAdapter
