import Dvws.Router.Configuration
import Dvws.Transition.Total

/-!
# Who is authorised, over whole runs

A session is authenticated from a login under its ID, by a request for the admin area with the
administrator's credentials, to the next time the server mints the same ID for a visitor; and the
rules, their tags and the log sink change only in requests that were authorised.
-/

namespace Dvws

open Transition

/-- The state after requests were dispatched one after another. -/
def serveAll (rs : List Request) : Server := runAll serve Server.init rs

/-- Some request of the run logged the session in, and no later one had its ID minted. -/
def LoggedIn (rs : List Request) (sessionId : Bytes) : Prop :=
  ∃ before r after, rs = before ++ r :: after ∧ LogsIn r sessionId ∧
    ∀ middle r' rest, after = middle ++ r' :: rest →
      ¬ Mints (serveAll (before ++ r :: middle)) r' sessionId

/-- When the server starts every rule is tagged: there is none. -/
theorem tagged_init : Tagged Server.init := by
  intro path
  simp [Server.init]

/-- Every rule is tagged in every reachable state. -/
theorem tagged_serve_all (rs : List Request) : Tagged (serveAll rs) :=
  runAll_invariant tagged_init (fun _ r h => tagged_serve h r) rs

/-- A login authenticates its session. -/
theorem is_authenticated_of_logs_in {s : Server} {r : Request} {sessionId : Bytes}
    (h : LogsIn r sessionId) : IsAuthenticated (serve s r) sessionId := by
  unfold IsAuthenticated
  cases session_step s r with
  | kept hsessions hlogin _ =>
      rw [get_session_data_congr hsessions]
      exact hlogin sessionId h
  | login id hlogin hsessions _ =>
      obtain rfl := (hlogin sessionId).mp h
      rw [get_session_data_congr hsessions, get_set_session_data]
  | fresh id hlogin _ _ => exact absurd h (hlogin sessionId)

/-- A minted session is not authenticated. -/
theorem not_authenticated_of_mints {s : Server} {r : Request} {sessionId : Bytes}
    (h : Mints s r sessionId) : ¬ IsAuthenticated (serve s r) sessionId := by
  unfold IsAuthenticated
  cases session_step s r with
  | kept _ _ hmints => exact absurd h (hmints sessionId)
  | login _ _ _ hmints => exact absurd h (hmints sessionId)
  | fresh id _ hsessions hmints =>
      obtain rfl := (hmints sessionId).mp h
      rw [get_session_data_congr hsessions, get_set_session_data]
      decide

/-- Other requests leave a session as it is. -/
theorem is_authenticated_serve_iff {s : Server} {r : Request} {sessionId : Bytes}
    (hlogin : ¬ LogsIn r sessionId) (hmints : ¬ Mints s r sessionId) :
    IsAuthenticated (serve s r) sessionId ↔ IsAuthenticated s sessionId := by
  unfold IsAuthenticated
  cases session_step s r with
  | kept hsessions _ _ => rw [get_session_data_congr hsessions]
  | login id hid hsessions _ =>
      have hne : sessionId ≠ id := fun heq => hlogin ((hid sessionId).mpr heq)
      rw [get_session_data_congr hsessions, get_set_session_data_of_ne _ _ hne]
  | fresh id _ hsessions hid =>
      have hne : sessionId ≠ id := fun heq => hmints ((hid sessionId).mpr heq)
      rw [get_session_data_congr hsessions, get_set_session_data_of_ne _ _ hne]

/-- A session is authenticated after a run exactly when it was logged in and not minted since. -/
theorem is_authenticated_iff_logged_in (rs : List Request) (sessionId : Bytes) :
    IsAuthenticated (serveAll rs) sessionId ↔ LoggedIn rs sessionId := by
  have hstart : ¬ IsAuthenticated Server.init sessionId := by
    simp [IsAuthenticated, getSessionData, Server.init]
    decide
  exact holds_iff_setAndKept (fun s => IsAuthenticated s sessionId) hstart
    (fun _ _ h => is_authenticated_of_logs_in h) (fun _ _ h => not_authenticated_of_mints h)
    (fun _ _ hlogin hmints => is_authenticated_serve_iff hlogin hmints) rs

/-- A session is authenticated after a run exactly when it was logged in and not minted since; and
the rules, the tags and the sink change only in requests that pass `require_basic_auth` or bring
the ID of an authenticated session. -/
theorem authorization_is_exact (rs : List Request) :
    (∀ sessionId, getSessionData (serveAll rs) sessionId = lit "authenticated:admin" ↔
      LoggedIn rs sessionId) ∧
    ∀ r, ((serve (serveAll rs) r).cgiRules ≠ (serveAll rs).cgiRules ∨
        (serve (serveAll rs) r).routeTypes ≠ (serveAll rs).routeTypes ∨
        (serve (serveAll rs) r).sink ≠ (serveAll rs).sink) →
      IsAuthorized (serveAll rs) r := by
  constructor
  · exact is_authenticated_iff_logged_in rs
  · intro r hchanged
    cases configuration_step (tagged_serve_all rs) r with
    | configured hauth _ => exact hauth
    | kept hsame =>
        simp only [configuration, Prod.mk.injEq] at hsame
        obtain h | h | h := hchanged
        · exact absurd hsame.1 h
        · exact absurd hsame.2.1 h
        · exact absurd hsame.2.2 h

/-- A login under a session ID of the client's own choice. -/
def loginRequest : Request :=
  ⟨.bare, lit ("GET /admin/logging?output=file HTTP/1.1\r\nCookie: session_id=s;\r\n" ++
    "Authorization: Basic YWRtaW46YWRtaW4=\r\n\r\n")⟩

/-- `loginRequest` logs its session in, and is authorised to change the sink. -/
theorem authorization_is_exact_login :
    LoggedIn [loginRequest] (lit "s") ∧ IsAuthorized (serveAll []) loginRequest :=
  ⟨((authorization_is_exact [loginRequest]).1 (lit "s")).mp (by decide +kernel),
    (authorization_is_exact []).2 loginRequest (.inr (.inr (by decide +kernel)))⟩

end Dvws
