import Dvws.Handlers.Admin
import Dvws.Handlers.Cgi
import Dvws.Tagging.History
import Dvws.Transition.Total

/-!
# The route registry

The rules and their tags are the two records of `Tagging.History`: `Records s history` says that
the state holds what a history of changes leaves. `add_rule` and `update_rule` extend the history
by at most one change. As every rule has a tag, `cgi_dispatch` never inserts one, and its loop
comes down to a lookup of the tag and a search for the first rule of the path.
-/

namespace Dvws

open Effect Tagging

/-- A change to the registry. -/
abbrev RuleChange := Change Bytes RouteType Route

/-- The tag written last for a path. -/
abbrev lastType (history : List RuleChange) (path : Bytes) : Option RouteType :=
  lastTag Route.path Route.type history path

/-- The state holds the registry that the changes leave. -/
structure Records (s : Server) (history : List RuleChange) : Prop where
  rules : s.cgiRules = objects history
  types : ∀ path, s.routeTypes.lookup path = lastType history path

/-- The tags are those of the paths of the rules. -/
def Tagged (s : Server) : Prop :=
  ∀ path, path ∈ s.routeTypes ↔ ∃ rule ∈ s.cgiRules, rule.path = path

/-- The state after a successful `add_rule`. -/
def registerRule (rule : Route) (s : Server) : Server :=
  { s with cgiRules := s.cgiRules ++ [rule], routeTypes := s.routeTypes.insert rule.path rule.type }

/-- The state after a successful `update_rule`. -/
def retagPath (path : Bytes) (type : RouteType) (s : Server) : Server :=
  { s with routeTypes := s.routeTypes.insert path type }

/-! ## Each change keeps the two records together -/

/-- Registering a rule adds it and its tag. -/
theorem tagged_register_rule {s : Server} (h : Tagged s) (rule : Route) :
    Tagged (registerRule rule s) := by
  intro path
  show path ∈ s.routeTypes.insert rule.path rule.type ↔ _
  rw [AList.mem_insert, h path]
  constructor
  · rintro (rfl | ⟨old, hold, hpath⟩)
    · exact ⟨rule, List.mem_append_right _ (List.mem_singleton_self _), rfl⟩
    · exact ⟨old, List.mem_append_left _ hold, hpath⟩
  · intro hrule
    obtain ⟨old, hold, rfl⟩ := hrule
    obtain hold | hold := List.mem_append.mp hold
    · exact .inr ⟨old, hold, rfl⟩
    · exact .inl (congrArg Route.path (List.mem_singleton.mp hold))

/-- A new tag for a known path leaves the paths as they are. -/
theorem tagged_retag_path {s : Server} (h : Tagged s) {path : Bytes} (hpath : path ∈ s.routeTypes)
    (type : RouteType) : Tagged (retagPath path type s) := by
  intro other
  show other ∈ s.routeTypes.insert path type ↔ ∃ rule ∈ s.cgiRules, rule.path = other
  rw [AList.mem_insert, ← h other, or_iff_right_iff_imp]
  rintro rfl
  exact hpath

/-- After a tag was written, it is found under its path, and under any other what was
there before. -/
theorem lookup_insert_type (types : AList fun _ : Bytes => RouteType) (path other : Bytes)
    (type : RouteType) : (types.insert path type).lookup other =
      if path = other then some type else types.lookup other := by
  split
  · next h => rw [h, AList.lookup_insert]
  · next h => rw [AList.lookup_insert_ne (Ne.symm h)]

/-- Registering a rule is recorded as an addition. -/
theorem Records.register_rule {s : Server} {history : List RuleChange} (h : Records s history)
    (rule : Route) : Records (registerRule rule s) (history ++ [.added rule]) := by
  constructor
  · rw [objects_concat_added, ← h.rules]
    rfl
  · intro path
    have hbefore : lastTag Route.path Route.type history path = s.routeTypes.lookup path :=
      (h.types path).symm
    rw [lastType, lastTag_concat, hbefore]
    exact lookup_insert_type ..

/-- Writing a tag is recorded as such. -/
theorem Records.retag_path {s : Server} {history : List RuleChange} (h : Records s history)
    (path : Bytes) (type : RouteType) :
    Records (retagPath path type s) (history ++ [.retagged path type]) := by
  constructor
  · rw [objects_concat_retagged]
    exact h.rules
  · intro other
    have hbefore : lastTag Route.path Route.type history other = s.routeTypes.lookup other :=
      (h.types other).symm
    rw [lastType, lastTag_concat, hbefore]
    exact lookup_insert_type ..

/-! ## The two handlers -/

/-- The parameters of the request's query. -/
def queryParams (req : HttpRequest) : Params :=
  match extractQueryParameters req.text with
  | .ok params => params
  | .error _ => ∅

/-- The query parameters are what the handlers extract. -/
theorem extract_query_params (req : HttpRequest) :
    extractQueryParameters req.text = .ok (queryParams req) := by
  obtain ⟨params, h⟩ := extract_query_parameters_returns req.text
  rw [queryParams, h]

/-- Sending a JSON document leaves the state alone. -/
theorem send_json_state (plat : Platform) (body : Bytes) (headOnly : Bool) (s : Server) :
    (sendJson plat body headOnly s).state = s :=
  Behaves.state_eq (send_json_behaves body headOnly) s

/-- A state change followed by something that keeps the state. -/
theorem modify_bind_state {α : Type} (f : Server → Server) {g : Unit → Handler α} {s : Server}
    (hg : (g () (f s)).state = f s) : ((modify f >>= g) s).state = f s := by
  rw [bind_run_of_ok (modify_run f s)]
  exact hg

/-- `add_rule` registers the rule that the request describes, if it describes one. -/
theorem add_rule_state (plat : Platform) (req : HttpRequest) (s : Server) :
    (addRule plat req s).state =
      match requestedRoute plat (queryParams req) with
      | none => s
      | some rule => registerRule rule s := by
  unfold addRule
  rw [extract_query_params, lift_ok_bind]
  cases requestedRoute plat (queryParams req) with
  | none => exact send_json_state ..
  | some rule => exact modify_bind_state (registerRule rule) (send_json_state ..)

/-- `update_rule` writes the tag that the request asks for, for a path that has one. -/
theorem update_rule_state (plat : Platform) (req : HttpRequest) (s : Server) :
    (updateRule plat req s).state =
      if (queryParams req).subscript (lit "path") ∈ s.routeTypes then
        match requestedType (queryParams req) with
        | none => s
        | some type => retagPath ((queryParams req).subscript (lit "path")) type s
      else s := by
  unfold updateRule
  rw [extract_query_params, lift_ok_bind, get_bind_run]
  split
  · cases requestedType (queryParams req) with
    | none => exact send_json_state ..
    | some type => exact modify_bind_state (retagPath _ type) (send_json_state ..)
  · exact send_json_state ..

/-- `add_rule` keeps the records together. -/
theorem tagged_add_rule {s : Server} (h : Tagged s) (plat : Platform) (req : HttpRequest) :
    Tagged (addRule plat req s).state := by
  rw [add_rule_state]
  cases requestedRoute plat (queryParams req) with
  | none => exact h
  | some rule => exact tagged_register_rule h rule

/-- `update_rule` keeps the records together. -/
theorem tagged_update_rule {s : Server} (h : Tagged s) (plat : Platform) (req : HttpRequest) :
    Tagged (updateRule plat req s).state := by
  rw [update_rule_state]
  split
  · next hpath =>
    cases requestedType (queryParams req) with
    | none => exact h
    | some type => exact tagged_retag_path h hpath type
  · exact h

/-! ## Dispatch of rules -/

/-- Reading the tag of a path that has one inserts nothing. -/
theorem subscript_route_type_run {s : Server} {path : Bytes} {type : RouteType}
    (h : s.routeTypes.lookup path = some type) :
    subscriptRouteType path s = ⟨.ok type, s, []⟩ := by
  unfold subscriptRouteType
  rw [get_bind_run, h]
  rfl

/-- The rule that serves a path: the first of the path, when the path is tagged `CGI`. -/
def servingRule (s : Server) (rules : List Route) (path : Bytes) : Option Route :=
  if s.routeTypes.lookup path = some .cgi then rules.find? fun rule => rule.path = path else none

/-- A path with another tag is served by no rule. -/
theorem serving_rule_of_static {s : Server} {path : Bytes}
    (h : s.routeTypes.lookup path = some .static) (rules : List Route) :
    servingRule s rules path = none := by
  simp [servingRule, h]

/-- The first rule of a path tagged `CGI` serves it. -/
theorem serving_rule_cons_of_cgi {s : Server} {rule : Route}
    (h : s.routeTypes.lookup rule.path = some .cgi) (rules : List Route) :
    servingRule s (rule :: rules) rule.path = some rule := by
  simp [servingRule, h]

/-- Rules of other paths are passed over. -/
theorem serving_rule_cons_of_ne {s : Server} {rule : Route} {path : Bytes} (h : rule.path ≠ path)
    (rules : List Route) : servingRule s (rule :: rules) path = servingRule s rules path := by
  simp [servingRule, h]

/-- The loop casts the rule that serves a tagged path. -/
theorem cast_rule_run {s : Server} {req : HttpRequest} (h : req.cleanPath ∈ s.routeTypes)
    (rules : List Route) :
    castRule req rules s = ⟨.ok (servingRule s rules req.cleanPath), s, []⟩ := by
  obtain ⟨type, htype⟩ := Option.isSome_iff_exists.mp (AList.lookup_isSome.mpr h)
  induction rules with
  | nil => simp [castRule, servingRule]
  | cons rule rules ih =>
      unfold castRule
      by_cases hpath : rule.path = req.cleanPath
      · rw [← hpath] at htype ⊢
        rw [if_pos rfl, bind_run_of_ok (subscript_route_type_run htype)]
        cases type with
        | static =>
            rw [if_neg (by decide), ih, ← hpath, serving_rule_of_static htype,
              serving_rule_of_static htype]
            rfl
        | cgi =>
            rw [if_pos rfl, serving_rule_cons_of_cgi htype]
            rfl
      · rw [if_neg hpath, ih, serving_rule_cons_of_ne hpath]

/-- Without rules of the path the search finds nothing and changes nothing. -/
theorem cast_rule_run_of_no_rule {s : Server} {req : HttpRequest} {rules : List Route}
    (h : ∀ rule ∈ rules, rule.path ≠ req.cleanPath) :
    castRule req rules s = ⟨.ok none, s, []⟩ := by
  induction rules with
  | nil => rfl
  | cons rule rules ih =>
      unfold castRule
      rw [if_neg (h rule List.mem_cons_self)]
      exact ih fun rule hrule => h rule (List.mem_cons_of_mem _ hrule)

/-- On an untagged path the first rule gets a tag inserted that keeps it from being cast. -/
theorem cast_rule_untagged {s : Server} {req : HttpRequest} (h : req.cleanPath ∉ s.routeTypes)
    (rules : List Route) : (castRule req rules s).value = .ok none := by
  induction rules with
  | nil => rfl
  | cons rule rules ih =>
      unfold castRule
      by_cases hpath : rule.path = req.cleanPath
      · have hnone : s.routeTypes.lookup rule.path = none := by
          rw [hpath]
          exact AList.lookup_eq_none.mpr h
        have hinsert : subscriptRouteType rule.path s =
            ⟨.ok .static, retagPath rule.path .static s, []⟩ := by
          unfold subscriptRouteType
          rw [get_bind_run, hnone]
          rfl
        -- from here on the path is tagged, and not as CGI
        have htag : (retagPath rule.path .static s).routeTypes.lookup req.cleanPath =
            some .static := hpath ▸ AList.lookup_insert _
        rw [if_pos hpath, bind_run_of_ok hinsert, if_neg (by decide),
          cast_rule_run (AList.lookup_isSome.mp (by rw [htag]; rfl)),
          serving_rule_of_static htag]
      · rw [if_neg hpath]
        exact ih

/-- On any registry the loop casts the object that serves the path, if there is one. -/
theorem cast_rule_value (s : Server) (req : HttpRequest) (rules : List Route) :
    (castRule req rules s).value = .ok (servingRule s rules req.cleanPath) := by
  by_cases h : req.cleanPath ∈ s.routeTypes
  · rw [cast_rule_run h]
  · have hnone : s.routeTypes.lookup req.cleanPath = none := AList.lookup_eq_none.mpr h
    rw [cast_rule_untagged h, servingRule, hnone, if_neg (by decide)]

/-- Executing a rule returns and leaves the state as it was. -/
theorem execute_run (plat : Platform) (executable : Bytes) (s : Server) :
    ∃ events, execute plat executable s = ⟨.ok (), s, events⟩ := by
  have hexecute : Behaves PlainEvent id (execute plat executable) := execute_behaves executable
  obtain ⟨_, middle, events, hrun, rfl, -⟩ := hexecute.exists_run s
  exact ⟨events, hrun⟩

/-- `cgi_dispatch` returns whether a rule serves the path. -/
theorem cgi_dispatch_value (plat : Platform) (req : HttpRequest) (s : Server) :
    ∃ handled, (cgiDispatch plat req s).value = .ok handled ∧
      (handled = true ↔ lit "/cgi-bin/" <+: req.cleanPath ∧
        (servingRule s s.cgiRules req.cleanPath).isSome = true) := by
  unfold cgiDispatch
  by_cases hpath : lit "/cgi-bin/" <+: req.cleanPath
  · have hsearch : Behaves PlainEvent (fun _ => ()) (castRule req s.cgiRules) :=
      cast_rule_behaves (fun _ _ => rfl) req _
    obtain ⟨found, middle, first, hrun, -, -⟩ := hsearch.exists_run s
    obtain rfl : servingRule s s.cgiRules req.cleanPath = found := by
      have hvalue := cast_rule_value s req s.cgiRules
      rw [hrun] at hvalue
      exact (Except.ok.inj hvalue).symm
    rw [if_pos (List.isPrefixOf_iff_prefix.mpr hpath), get_bind_run, bind_run_of_ok hrun]
    cases servingRule s s.cgiRules req.cleanPath with
    | none => exact ⟨false, rfl, by simp⟩
    | some rule =>
        obtain ⟨second, hexecuted⟩ := execute_run plat rule.executable middle
        refine ⟨true, ?_, by simp [hpath]⟩
        dsimp only
        rw [bind_run_of_ok hexecuted]
        rfl
  · rw [if_neg fun hbegins => hpath (List.isPrefixOf_iff_prefix.mp hbegins)]
    exact ⟨false, rfl, by simp [hpath]⟩

/-- In a registry that keeps its records together, the search finds the rule that serves the path
and changes nothing. -/
theorem Tagged.search_run {s : Server} (h : Tagged s) (req : HttpRequest) :
    castRule req s.cgiRules s = ⟨.ok (servingRule s s.cgiRules req.cleanPath), s, []⟩ := by
  by_cases hpath : req.cleanPath ∈ s.routeTypes
  · exact cast_rule_run hpath _
  · have hnone : s.routeTypes.lookup req.cleanPath = none := AList.lookup_eq_none.mpr hpath
    rw [servingRule, hnone, if_neg (by decide)]
    refine cast_rule_run_of_no_rule fun rule hrule hsame => hpath ?_
    exact (h req.cleanPath).mpr ⟨rule, hrule, hsame⟩

/-- For a path below `/cgi-bin/`, `cgi_dispatch` executes the rule that serves it, if there
is one. -/
theorem Tagged.cgi_dispatch_run {s : Server} (h : Tagged s) (plat : Platform) {req : HttpRequest}
    (hpath : lit "/cgi-bin/" <+: req.cleanPath) :
    cgiDispatch plat req s =
      match servingRule s s.cgiRules req.cleanPath with
      | some rule => (execute plat rule.executable >>= fun _ => pure true) s
      | none => ⟨.ok false, s, []⟩ := by
  unfold cgiDispatch
  rw [if_pos (List.isPrefixOf_iff_prefix.mpr hpath), get_bind_run,
    bind_run_of_ok (h.search_run req)]
  cases servingRule s s.cgiRules req.cleanPath with
  | none => rfl
  | some rule => rfl

/-- `cgi_dispatch` leaves the whole state as it was. -/
theorem Tagged.cgi_dispatch_state {s : Server} (h : Tagged s) (plat : Platform)
    (req : HttpRequest) : (cgiDispatch plat req s).state = s := by
  by_cases hpath : lit "/cgi-bin/" <+: req.cleanPath
  · rw [h.cgi_dispatch_run plat hpath]
    cases servingRule s s.cgiRules req.cleanPath with
    | some rule =>
        obtain ⟨events, hexecuted⟩ := execute_run plat rule.executable s
        dsimp only
        rw [bind_run_of_ok hexecuted]
        rfl
    | none => rfl
  · unfold cgiDispatch
    rw [if_neg fun hbegins => hpath (List.isPrefixOf_iff_prefix.mp hbegins), pure_run]

end Dvws
