import Nawa.Connection.SessionCookie

/-!
# What session calls leave of a connection

A session that is started, by the constructor or by a call, changes the session and the cookies
of its connection and nothing else.
-/

namespace Nawa.Connection

variable {V : Type}

theorem setCookie_frame {conn conn' : Connection} {key : Bytes} {cookie : Cookie}
    (h : conn.setCookie key cookie = .ok conn') :
    ∃ cookies, conn' = { conn with cookies := cookies } := by
  unfold setCookie at h
  split at h
  · exact ⟨_, (Except.ok.inj h).symm⟩
  · cases h

theorem startSession_frame (conn : Connection) (ctx : StartContext) (properties : Cookie)
    (store : SessionStore V) :
    ∃ session cookies, (conn.startSession ctx properties store).2.1 =
      { conn with session := session, cookies := cookies } := by
  unfold startSession
  split
  · exact ⟨_, _, rfl⟩
  · dsimp only
    split
    · exact ⟨_, _, rfl⟩
    · split
      · exact ⟨_, _, rfl⟩
      · split
        · next hcookie =>
          obtain ⟨cookies, rfl⟩ := setCookie_frame hcookie
          exact ⟨_, _, rfl⟩
        · exact ⟨_, _, rfl⟩

theorem construct_frame (request : Request) (config : Config) (ctx : StartContext)
    (store : SessionStore V) :
    ∃ session cookies, (construct request config ctx store).2.1 =
      { request := request
        config := config
        headers := Lib.AssocMap.empty.insert (bytes "content-type")
          [bytes "text/html; charset=utf-8"]
        session := session
        cookies := cookies } := by
  unfold construct
  dsimp only
  split
  · obtain ⟨session, cookies, heq⟩ := startSession_frame (V := V)
      { request := request
        config := config
        headers := Lib.AssocMap.empty.insert (bytes "content-type")
          [bytes "text/html; charset=utf-8"] } ctx {} store
    exact ⟨session, cookies, heq⟩
  · exact ⟨_, _, rfl⟩

end Nawa.Connection
