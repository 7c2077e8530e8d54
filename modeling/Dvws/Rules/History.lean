import Dvws.Http.Request
import Dvws.Rules.Registry

/-!
# The registry as a history of changes

The purpose of the registry, told without the two records: requests make changes, each only if it
succeeds, and the history of the changes says what a path does. `registry_refines_history` is the
connection: after any sequence of `add_rule` and `update_rule` requests the two records are those
of the history, and `cgi_dispatch` runs the string of the first rule of a path tagged `CGI`, as
far as a C string goes.
-/

namespace Dvws

open Effect Tagging Transition

/-- A request to one of the two handlers, with its surroundings. -/
inductive RuleRequest where
  | add (plat : Platform) (req : HttpRequest)
  | update (plat : Platform) (req : HttpRequest)

/-- The surroundings of the request. -/
def RuleRequest.plat : RuleRequest → Platform
  | .add plat _ => plat
  | .update plat _ => plat

/-- The parsed request. -/
def RuleRequest.req : RuleRequest → HttpRequest
  | .add _ req => req
  | .update _ req => req

/-- The handler at work. -/
def RuleRequest.handle : RuleRequest → Handler Unit
  | .add plat req => addRule plat req
  | .update plat req => updateRule plat req

/-- The server with an empty registry. -/
def Server.withoutRules (s : Server) : Server := { s with cgiRules := [], routeTypes := ∅ }

/-- The server after the requests, from an empty registry. -/
def serveRules (s : Server) (rs : List RuleRequest) : Server :=
  runAll (fun s r => (r.handle s).state) s.withoutRules rs

/-! ## The history -/

/-- The change that a request makes after a history; `none` when it is rejected. -/
def change (history : List RuleChange) : RuleRequest → Option RuleChange
  | .add plat req => (requestedRoute plat (queryParams req)).map .added
  | .update _ req =>
      let path := (queryParams req).subscript (lit "path")
      if path ∈ (objects history).map Route.path then
        (requestedType (queryParams req)).map (.retagged path)
      else none

/-- The history after one more request. -/
def extend (history : List RuleChange) (r : RuleRequest) : List RuleChange :=
  history ++ (change history r).toList

/-- The history of a sequence of requests. -/
def historyOf (rs : List RuleRequest) : List RuleChange := runAll extend [] rs

/-- The first rule that was added for a path. -/
def firstRule (history : List RuleChange) (path : Bytes) : Option Route :=
  (objects history).find? fun rule => rule.path = path

/-- The command of a `popen`. -/
def commandOf : Event → Option Bytes
  | .popen command => some command
  | _ => none

/-- The commands that a computation hands to the shell. -/
def commands (events : List Event) : List Bytes := events.filterMap commandOf

/-- What the state does is what the history says. -/
structure Refines (s : Server) (history : List RuleChange) : Prop where
  /-- the tagged paths are the paths of the rules -/
  paths : ∀ path, path ∈ s.routeTypes ↔ ∃ rule ∈ s.cgiRules, rule.path = path
  /-- a request that makes no change is answered with an error -/
  answered : ∀ r, change history r = none →
    ∃ message, r.handle s = sendError r.plat r.req message s
  /-- and leaves the state as it was -/
  rejected : ∀ r, change history r = none → (r.handle s).state = s
  /-- the tag of a path is the one written last -/
  types : ∀ path, s.routeTypes.lookup path = lastType history path
  /-- `cgi_dispatch` changes nothing -/
  dispatched : ∀ plat req, lit "/cgi-bin/" <+: req.cleanPath → (cgiDispatch plat req s).state = s
  /-- it runs the string of the first rule of a path tagged `CGI` up to the first NUL, once -/
  executed : ∀ plat req, lit "/cgi-bin/" <+: req.cleanPath →
    s.routeTypes.lookup req.cleanPath = some .cgi →
    ∃ rule, firstRule history req.cleanPath = some rule ∧
      (cgiDispatch plat req s).value = .ok true ∧
      commands (cgiDispatch plat req s).events = [cstr rule.executable]
  /-- and does nothing for another path -/
  passed : ∀ plat req, lit "/cgi-bin/" <+: req.cleanPath →
    s.routeTypes.lookup req.cleanPath ≠ some .cgi → cgiDispatch plat req s = ⟨.ok false, s, []⟩

/-! ## Requests -/

/-- An error answer leaves the state alone. -/
theorem send_error_state (plat : Platform) (req : HttpRequest) (message : Bytes) (s : Server) :
    (sendError plat req message s).state = s :=
  send_json_state ..

/-- The history knows the paths that have a tag. -/
theorem mem_known_paths_iff {s : Server} {history : List RuleChange} (htagged : Tagged s)
    (h : Records s history) (path : Bytes) :
    path ∈ (objects history).map Route.path ↔ path ∈ s.routeTypes := by
  rw [htagged path, h.rules, List.mem_map]

/-- One request changes the state as it changes the history. -/
theorem records_extend {s : Server} {history : List RuleChange} (htagged : Tagged s)
    (h : Records s history) (r : RuleRequest) :
    Tagged (r.handle s).state ∧ Records (r.handle s).state (extend history r) := by
  cases r with
  | add plat req =>
      refine ⟨tagged_add_rule htagged plat req, ?_⟩
      show Records (addRule plat req s).state _
      rw [add_rule_state, extend, change]
      cases requestedRoute plat (queryParams req) with
      | none => simpa using h
      | some rule => exact h.register_rule rule
  | update plat req =>
      refine ⟨tagged_update_rule htagged plat req, ?_⟩
      show Records (updateRule plat req s).state _
      rw [update_rule_state, extend, change]
      simp only [mem_known_paths_iff htagged h]
      split
      · cases requestedType (queryParams req) with
        | none => simpa using h
        | some type => exact h.retag_path _ type
      · simpa using h

/-- A server without rules has the empty history. -/
theorem records_without_rules (s : Server) : Tagged s.withoutRules ∧ Records s.withoutRules [] := by
  refine ⟨fun path => ?_, rfl, fun path => rfl⟩
  simp [Server.withoutRules]

/-- After a sequence of requests the registry is that of the history. -/
theorem serve_rules_records (s : Server) (rs : List RuleRequest) :
    Tagged (serveRules s rs) ∧ Records (serveRules s rs) (historyOf rs) :=
  runAll_simulation (R := fun s history => Tagged s ∧ Records s history)
    (records_without_rules s) (fun _ _ r h => records_extend h.1 h.2 r) rs

/-- A request that makes no change is answered with an error. -/
theorem handle_of_rejected {s : Server} {history : List RuleChange} (htagged : Tagged s)
    (h : Records s history) {r : RuleRequest} (hnone : change history r = none) :
    ∃ message, r.handle s = sendError r.plat r.req message s := by
  cases r with
  | add plat req =>
      have hroute : requestedRoute plat (queryParams req) = none := by simpa [change] using hnone
      refine ⟨unknownType, ?_⟩
      show addRule plat req s = _
      unfold addRule
      rw [extract_query_params, lift_ok_bind, hroute]
      rfl
  | update plat req =>
      show ∃ message, updateRule plat req s = _
      unfold updateRule
      rw [extract_query_params, lift_ok_bind, get_bind_run]
      simp only [change, mem_known_paths_iff htagged h] at hnone
      split
      · next hpath =>
        have htype : requestedType (queryParams req) = none := by simpa [hpath] using hnone
        rw [htype]
        exact ⟨_, rfl⟩
      · exact ⟨_, rfl⟩

/-! ## Dispatch -/

/-- A response is no command. -/
theorem send_status_commands {plat : Platform} (statusCode contentType : Bytes) (origin : Origin)
    (body extraHeaders : Bytes) (headOnly : Bool) :
    Behaves (fun e => commandOf e = none) id
      (sendStatus plat statusCode contentType origin body extraHeaders headOnly) :=
  .bind (send_ignored_behaves rfl) fun _ => .ite (send_ignored_behaves rfl) (.pure ())

/-- Executing a rule hands one command to the shell. -/
theorem execute_commands (plat : Platform) (executable : Bytes) (s : Server) :
    commands (execute plat executable s).events = [cstr executable] := by
  unfold execute
  rw [bind_run_of_ok (emit_run _ s)]
  show cstr executable :: commands _ = _
  refine congrArg _ (List.filterMap_eq_nil_iff.mpr ?_)
  cases plat.popen (cstr executable) with
  | none => exact (send_status_commands ..).events s
  | some output => exact (Behaves.ite (send_status_commands ..) (send_status_commands ..)).events s

/-- A known path that is tagged has a first rule, which serves it. -/
theorem serving_rule_of_records {s : Server} {history : List RuleChange} (htagged : Tagged s)
    (h : Records s history) {path : Bytes} (hcgi : s.routeTypes.lookup path = some .cgi) :
    ∃ rule, firstRule history path = some rule ∧ servingRule s s.cgiRules path = some rule := by
  have hknown : path ∈ s.routeTypes := AList.lookup_isSome.mp (by rw [hcgi]; rfl)
  obtain ⟨rule, hrule, hpath⟩ := (htagged path).mp hknown
  have hfound : (s.cgiRules.find? fun rule => rule.path = path).isSome = true :=
    List.find?_isSome.mpr ⟨rule, hrule, by simpa using hpath⟩
  obtain ⟨first, hfirst⟩ := Option.isSome_iff_exists.mp hfound
  exact ⟨first, by rw [firstRule, ← h.rules, hfirst], by rw [servingRule, if_pos hcgi, hfirst]⟩

/-- The registry refines its history, over every sequence of requests. -/
theorem registry_refines_history (s : Server) (rs : List RuleRequest) :
    Refines (serveRules s rs) (historyOf rs) := by
  obtain ⟨htagged, hrecords⟩ := serve_rules_records s rs
  refine ⟨htagged, fun r hnone => handle_of_rejected htagged hrecords hnone, fun r hnone => ?_,
    hrecords.types, fun plat req _ => htagged.cgi_dispatch_state plat req,
    fun plat req hpath hcgi => ?_, fun plat req hpath hother => ?_⟩
  · obtain ⟨message, hrun⟩ := handle_of_rejected htagged hrecords hnone
    rw [hrun, send_error_state]
  · obtain ⟨rule, hfirst, hserving⟩ := serving_rule_of_records htagged hrecords hcgi
    obtain ⟨events, hrun⟩ := execute_run plat rule.executable (serveRules s rs)
    refine ⟨rule, hfirst, ?_⟩
    have hcommands := execute_commands plat rule.executable (serveRules s rs)
    rw [htagged.cgi_dispatch_run plat hpath, hserving]
    dsimp only
    rw [bind_run_of_ok hrun]
    rw [hrun] at hcommands
    exact ⟨rfl, by rw [← hcommands, pure_run]; simp⟩
  · rw [htagged.cgi_dispatch_run plat hpath, servingRule, if_neg hother]

/-- The request that `parse` makes of a text. -/
def requestOf (raw : Bytes) : HttpRequest :=
  match HttpRequest.parse raw with
  | .ok (_, req) => req
  | .error _ => .empty raw

/-- A rule whose string has a NUL in it. -/
def addNulRule : RuleRequest :=
  .add .bare (requestOf (lit
    "GET /admin/add_rule?type=cgi&path=/cgi-bin/a&executable=ls%00x HTTP/1.1\r\n\r\n"))

/-- A request for that rule. -/
def askNulRule : HttpRequest := requestOf (lit "GET /cgi-bin/a HTTP/1.1\r\n\r\n")

/-- The path is tagged `CGI`, and the command is not the string that was stored. -/
theorem nul_rule_not_executed_whole :
    lit "/cgi-bin/" <+: askNulRule.cleanPath ∧
      (serveRules Server.init [addNulRule]).routeTypes.lookup askNulRule.cleanPath = some .cgi ∧
      ¬ ∃ rule, firstRule (historyOf [addNulRule]) askNulRule.cleanPath = some rule ∧
        commands (cgiDispatch .bare askNulRule (serveRules Server.init [addNulRule])).events =
          [rule.executable] := by
  have hfirst : firstRule (historyOf [addNulRule]) askNulRule.cleanPath =
      some (.cgi (lit "/cgi-bin/a") (lit "ls" ++ [0] ++ lit "x")) := by decide +kernel
  have hcommands :
      commands (cgiDispatch .bare askNulRule (serveRules Server.init [addNulRule])).events =
        [lit "ls"] := by decide +kernel
  refine ⟨by decide +kernel, by decide +kernel, ?_⟩
  intro hexecuted
  obtain ⟨rule, hrule, hcommand⟩ := hexecuted
  obtain rfl := Option.some.inj (hfirst.symm.trans hrule)
  rw [hcommands] at hcommand
  exact absurd hcommand (by decide +kernel)

end Dvws
