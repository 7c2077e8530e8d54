import Dvws.Server

/-!
# Sessions

The session store of `session_manager.cpp` and the cookie lookup. Any client can name a session
in its cookie; the store has no record of who created an entry.
-/

namespace Dvws

open Effect

/-- `get_session_id_from_cookie`. -/
def getSessionIdFromCookie (request : Bytes) : Except Exn Bytes :=
  match Text.find (lit "Cookie:") request with
  | none => .ok []
  | some cookiePos =>
      match findFrom request (lit "session_id=") cookiePos with
      | none => .ok []
      | some sessionPos =>
          let start := sessionPos + (lit "session_id=").length
          match (findFrom request (lit ";") start).or (findFrom request (lit "\r\n") start) with
          | none => .ok []
          | some stop => substr request start (some (stop - start))

/-- `get_session_data`. -/
def getSessionData (s : Server) (sessionId : Bytes) : Bytes := (s.sessions.lookup sessionId).getD []

/-- `set_session_data`, which is also `sessions[session_id] = data`. -/
def setSessionData (s : Server) (sessionId data : Bytes) : Server :=
  { s with sessions := s.sessions.insert sessionId data }

/-- `generate_session_id`. -/
def generateSessionId (plat : Platform) : Bytes := plat.sessionId plat.time plat.pid

/-- The data of an authenticated session. -/
def authenticatedData : Bytes := lit "authenticated:admin"

/-- The data of a minted session. -/
def defaultData : Bytes := lit "default_user_data"

/-- The cookie lookup never throws. -/
theorem get_session_id_from_cookie_returns (request : Bytes) :
    ∃ sessionId, getSessionIdFromCookie request = .ok sessionId := by
  unfold getSessionIdFromCookie
  cases Text.find (lit "Cookie:") request with
  | none => exact ⟨[], rfl⟩
  | some cookiePos =>
      dsimp only
      cases hsession : findFrom request (lit "session_id=") cookiePos with
      | none => exact ⟨[], rfl⟩
      | some sessionPos =>
          have hbound := (findFrom_lt (by decide) hsession).2
          dsimp only
          split
          · exact ⟨[], rfl⟩
          · exact ⟨_, substr_of_le hbound _⟩

/-- What a session reads depends on the store alone. -/
theorem get_session_data_congr {s s' : Server} (h : s'.sessions = s.sessions)
    (sessionId : Bytes) : getSessionData s' sessionId = getSessionData s sessionId := by
  rw [getSessionData, h, getSessionData]

/-- What storing makes of the store depends on the store alone. -/
theorem set_session_data_congr {s s' : Server} (h : s'.sessions = s.sessions)
    (sessionId data : Bytes) :
    (setSessionData s' sessionId data).sessions = (setSessionData s sessionId data).sessions := by
  simp only [setSessionData, h]

/-- A session reads back what was stored for it. -/
theorem get_set_session_data (s : Server) (sessionId data : Bytes) :
    getSessionData (setSessionData s sessionId data) sessionId = data := by
  simp [getSessionData, setSessionData]

/-- Storing for one session leaves the others alone. -/
theorem get_set_session_data_of_ne (s : Server) {sessionId other : Bytes} (data : Bytes)
    (h : other ≠ sessionId) :
    getSessionData (setSessionData s sessionId data) other = getSessionData s other := by
  simp [getSessionData, setSessionData, AList.lookup_insert_ne h]

end Dvws
