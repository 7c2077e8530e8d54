import Dvws.Rules.History

/-!
# Rules that are only added

`update_rule` exists to change a tag behind the back of the objects. `add_rule` can do so as well:
a second rule for a path overwrites the tag, while the search still finds the first object. The
registry stays consistent exactly as long as no path is added with both types.
-/

namespace Dvws

open Effect Tagging


/-- A sequence of `add_rule` requests. -/
def additions (rs : List (Platform × HttpRequest)) : List RuleRequest :=
  rs.map fun r => .add r.1 r.2

/-- The rules that a sequence of `add_rule` requests adds. -/
def requestedRoutes (rs : List (Platform × HttpRequest)) : List Route :=
  rs.filterMap fun r => requestedRoute r.1 (queryParams r.2)

/-- Every object is a `CgiRoute` exactly when its path is tagged so. -/
def Consistent (s : Server) : Prop :=
  ∀ rule ∈ s.cgiRules, rule.type = .cgi ↔ s.routeTypes.lookup rule.path = some .cgi

/-- `cgi_dispatch` casts the object to `CgiRoute` for the request. -/
def Casts (s : Server) (req : HttpRequest) (rule : Route) : Prop :=
  lit "/cgi-bin/" <+: req.cleanPath ∧ (castRule req s.cgiRules s).value = .ok (some rule)

/-- The history of additions is the added rules. -/
theorem history_of_additions (rs : List (Platform × HttpRequest)) :
    historyOf (additions rs) = (requestedRoutes rs).map .added := by
  induction rs using List.reverseRecOn with
  | nil => rfl
  | append_singleton rs r ih =>
      -- an addition extends the history by the rule it asks for, whatever came before
      have hlast : historyOf (additions (rs ++ [r])) =
          extend (historyOf (additions rs)) (.add r.1 r.2) := by
        simp [historyOf, additions]
      rw [hlast, ih, extend, change, requestedRoutes, requestedRoutes, List.filterMap_append,
        List.map_append]
      cases hroute : requestedRoute r.1 (queryParams r.2) with
      | none => simp [hroute]
      | some rule => simp [hroute]

/-- With two types, an object agrees with its tag when it is `CGI` exactly if the tag is. -/
theorem agrees_iff {s : Server} (htagged : Tagged s) {rule : Route} (hrule : rule ∈ s.cgiRules) :
    (rule.type = .cgi ↔ s.routeTypes.lookup rule.path = some .cgi) ↔
      s.routeTypes.lookup rule.path = some rule.type := by
  obtain ⟨type, htype⟩ := Option.isSome_iff_exists.mp
    (AList.lookup_isSome.mpr ((htagged rule.path).mpr ⟨rule, hrule, rfl⟩))
  rw [htype]
  cases type <;> cases rule.type <;> decide

/-- The objects of a consistent registry are cast to their own class. -/
theorem Consistent.type_of_casts {s : Server} (h : Consistent s) (htagged : Tagged s)
    {req : HttpRequest} {rule : Route} (hcast : Casts s req rule) : rule.type = .cgi := by
  obtain ⟨-, hvalue⟩ := hcast
  rw [htagged.search_run, Except.ok.injEq, servingRule] at hvalue
  obtain ⟨hcgi, hfind⟩ := Option.ite_none_right_eq_some.mp hvalue
  have hpath : rule.path = req.cleanPath := by simpa using List.find?_some hfind
  exact (h rule (List.mem_of_find?_eq_some hfind)).mpr (hpath ▸ hcgi)

/-- After additions the registry is consistent, and no object is cast to a class it was not
created with, exactly when no two of the added rules have one path and different types. -/
theorem consistent_after_additions_iff (s : Server) (rs : List (Platform × HttpRequest)) :
    (Consistent (serveRules s (additions rs)) ∧
      ∀ req rule, Casts (serveRules s (additions rs)) req rule → rule.type = .cgi) ↔
    ∀ rule ∈ requestedRoutes rs, ∀ other ∈ requestedRoutes rs,
      rule.path = other.path → rule.type = other.type := by
  obtain ⟨htagged, hrecords⟩ := serve_rules_records s (additions rs)
  rw [history_of_additions] at hrecords
  have hrules : (serveRules s (additions rs)).cgiRules = requestedRoutes rs := by
    rw [hrecords.rules]
    exact objects_of_added _
  have hconsistent : Consistent (serveRules s (additions rs)) ↔
      ∀ rule ∈ requestedRoutes rs,
        lastType ((requestedRoutes rs).map .added) rule.path = some rule.type := by
    unfold Consistent
    rw [hrules]
    refine forall₂_congr fun rule hrule => ?_
    rw [agrees_iff htagged (hrules ▸ hrule), hrecords.types]
  rw [← consistent_iff_agree Route.path Route.type, ← hconsistent]
  exact and_iff_left_of_imp fun h req rule => h.type_of_casts htagged

/-- A static rule, and then an executable one for the same path. -/
def clashingRequests : List (Platform × HttpRequest) :=
  [(.bare, requestOf (lit
      "GET /admin/add_rule?type=static&path=/cgi-bin/x&directory=d HTTP/1.1\r\n\r\n")),
    (.bare, requestOf (lit
      "GET /admin/add_rule?type=cgi&path=/cgi-bin/x&executable=ls HTTP/1.1\r\n\r\n"))]

/-- The static object is tagged `CGI`, and cast to a class it was not created with. -/
theorem not_consistent_after_clash :
    ¬ Consistent (serveRules Server.init (additions clashingRequests)) ∧
      ∃ req rule, Casts (serveRules Server.init (additions clashingRequests)) req rule ∧
        rule.type ≠ .cgi := by
  refine ⟨fun h => ?_, requestOf (lit "GET /cgi-bin/x HTTP/1.1\r\n\r\n"),
    .static (lit "/cgi-bin/x") (lit "d"), ⟨by decide +kernel, by decide +kernel⟩, by decide⟩
  have hstatic := (h (.static (lit "/cgi-bin/x") (lit "d")) (by decide +kernel)).mpr
    (by decide +kernel)
  cases hstatic

end Dvws
