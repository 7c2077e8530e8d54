import Dvws.Http.RequestLine
import Dvws.Utils

/-!
# The two readings of the query

`parse` takes the query from the target that it routes by, behind a method marker anywhere in the
text. `extractQueryParameters` takes it from what stands between the first two spaces of the text
(`lineTarget`). They read the same query of a request with no space before the marker and none in
the target. Of any other request they read two queries, and agree when these happen to assign the
same values to the same keys (`SameAssignments`).
-/

namespace Dvws

open HttpRequest Text

/-- The `&`/`=` splitting of a query. -/
def splitQuery (query : Bytes) : Except Exn Params := insertPairs (ampersandPieces query) ∅

/-- The query of a target: what follows its first `?`. -/
def queryOf (target : Bytes) : Bytes := (behind (lit "?") target).getD []

/-- The text between the first two spaces. -/
def lineTarget (s : Bytes) : Bytes :=
  ((behind (lit " ") s).bind fun rest =>
    (find (lit " ") rest).map fun stop => rest.take stop).getD []

/-- The key and the value of a piece of a query. -/
def assignment (piece : Bytes) : Option (Bytes × Bytes) :=
  (find (lit "=") piece).map fun i => (piece.take i, piece.drop (i + 1))

/-- The value that a query gives to a key: that of the last piece with the key. -/
def assigned (query key : Bytes) : Option Bytes :=
  ((ampersandPieces query).filterMap assignment).reverse.lookup key

/-- A loop over pieces inserts the assignments among them, in their order. -/
theorem insert_pairs_eq (pieces : List Bytes) (params : Params) :
    insertPairs pieces params = .ok ((pieces.filterMap assignment).foldl
      (fun params pair => params.insert pair.1 pair.2) params) := by
  induction pieces generalizing params with
  | nil => rfl
  | cons piece pieces ih =>
      unfold insertPairs
      cases heq : find (lit "=") piece with
      | none =>
          have hnone : assignment piece = none := by rw [assignment, heq, Option.map_none]
          rw [List.filterMap_cons_none hnone]
          exact ih params
      | some i =>
          have hbound : i + 1 ≤ piece.length := find_add_length_le heq
          have hsome : assignment piece = some (piece.take i, piece.drop (i + 1)) := by
            rw [assignment, heq, Option.map_some]
          simp only [substr_of_le (Nat.zero_le _), substr_of_le hbound, ok_bind, List.drop_zero]
          rw [List.filterMap_cons_some hsome, List.foldl_cons]
          exact ih _

/-- Insertions leave every key with its last value. -/
theorem lookup_foldl_insert (pairs : List (Bytes × Bytes)) (params : Params) (key : Bytes) :
    (pairs.foldl (fun params pair => params.insert pair.1 pair.2) params).lookup key =
      (pairs.reverse.lookup key).or (params.lookup key) := by
  induction pairs generalizing params with
  | nil => rfl
  | cons pair pairs ih =>
      rw [List.foldl_cons, ih, List.reverse_cons, List.lookup_append, Option.or_assoc,
        List.lookup_singleton]
      congr 1
      by_cases hkey : key = pair.1
      · rw [hkey, AList.lookup_insert, beq_self_eq_true, if_pos rfl, Option.some_or]
      · rw [AList.lookup_insert_ne hkey, if_neg (by simpa using hkey), Option.none_or]

/-- The splitting of a query gives every key its value. -/
theorem split_query_eq (query : Bytes) :
    ∃ params, splitQuery query = .ok params ∧
      ∀ key, params.lookup key = assigned query key := by
  refine ⟨_, insert_pairs_eq (ampersandPieces query) ∅, fun key => ?_⟩
  rw [lookup_foldl_insert, AList.lookup_empty, Option.or_none]
  rfl

/-- `extract_query_parameters` splits the query of the text between the first two spaces. -/
theorem extract_query_parameters_eq (s : Bytes) :
    extractQueryParameters s = splitQuery (queryOf (lineTarget s)) := by
  unfold extractQueryParameters lineTarget behind
  cases hstart : find (lit " ") s with
  | none => rfl
  | some start =>
      have hle : start + 1 ≤ s.length := find_add_length_le hstart
      have hspace : (lit " ").length = 1 := rfl
      dsimp only
      unfold findFrom
      cases hstop : find (lit " ") (s.drop (start + 1)) with
      | none =>
          simp only [Option.map_none, Option.map_some, Option.bind_some, hspace, hstop]
          rfl
      | some stop =>
          have hlength : stop + (start + 1) - start - 1 = stop := by omega
          simp only [Option.map_some, Option.bind_some, substr_of_le hle, ok_bind, hlength,
            hspace, hstop, Option.getD_some]
          unfold queryOf behind
          cases hquery : find (lit "?") ((s.drop (start + 1)).take stop) with
          | none => rfl
          | some queryPos =>
              have hbound : queryPos + 1 ≤ ((s.drop (start + 1)).take stop).length :=
                find_add_length_le hquery
              simp only [substr_of_le hbound, ok_bind]
              rfl

/-- `parse` keeps the query of the target. -/
theorem set_target_query {out : HttpRequest} (h : out.query = []) (target : Bytes) :
    (setTarget out target).query = queryOf target := by
  unfold setTarget queryOf behind
  cases find (lit "?") target with
  | none => exact h
  | some qmark => rfl

/-- A slash before a target plays no part in its query. -/
theorem query_of_cons_slash (target : Bytes) : queryOf (47 :: target) = queryOf target := by
  have hslash : find (lit "?") (47 :: target) = (find (lit "?") target).map (· + 1) :=
    find_cons_of_not_starts (by simp [show lit "?" = [63] from rfl])
  unfold queryOf behind
  rw [hslash]
  cases find (lit "?") target with
  | none => rfl
  | some qmark => rfl

/-- The slash in front of a target changes nothing in the query of what is copied. -/
theorem query_of_target_slice (method target : Bytes) :
    queryOf (targetSlice method (47 :: target)) = queryOf target := by
  unfold targetSlice
  split
  · exact query_of_cons_slash target
  · rfl

/-- The target of a line is what stands between its first two spaces. -/
theorem line_target_of_spaces {first target tail : Bytes} (hfirst : 32 ∉ first)
    (htarget : 32 ∉ target) : lineTarget (first ++ 32 :: (target ++ 32 :: tail)) = target := by
  have hstart : behind (lit " ") (first ++ 32 :: (target ++ 32 :: tail)) =
      some (target ++ 32 :: tail) := behind_singleton_append hfirst
  have hstop : find (lit " ") (target ++ 32 :: tail) = some target.length :=
    find_singleton_append htarget
  rw [lineTarget, hstart, Option.bind_some, hstop, Option.map_some, Option.getD_some,
    List.take_left]

/-- A piece assigns what stands on the two sides of its first `=`. -/
theorem assignment_eq_some_iff {piece key value : Bytes} :
    assignment piece = some (key, value) ↔ piece = key ++ 61 :: value ∧ 61 ∉ key := by
  constructor
  · intro h
    obtain ⟨i, hfind, hpair⟩ := Option.map_eq_some_iff.mp h
    obtain ⟨rfl, rfl⟩ := Prod.mk.inj hpair
    exact ⟨eq_append_cons_of_find hfind, not_mem_take_of_find hfind⟩
  · rintro ⟨rfl, hkey⟩
    have hfind : find (lit "=") (key ++ 61 :: value) = some key.length :=
      find_singleton_append hkey
    have hdrop : (key ++ 61 :: value).drop (key.length + 1) = value :=
      List.drop_length_add_append 1
    rw [assignment, hfind, Option.map_some, List.take_left, hdrop]

/-- The empty piece that `std::getline` does not read assigns nothing. -/
theorem assignments_of_pieces (query : Bytes) :
    (ampersandPieces query).filterMap assignment = (query.splitOn 38).filterMap assignment := by
  unfold ampersandPieces
  dsimp only
  split
  · rename_i hlast
    obtain ⟨front, hfront⟩ := List.getLast?_eq_some_iff.mp hlast
    have hempty : assignment [] = none := rfl
    rw [hfront, List.dropLast_concat, List.filterMap_append, List.filterMap_cons_none hempty,
      List.filterMap_nil, List.append_nil]
  · rfl

/-- The target assigns the value to the key: among the pieces that `&` cuts the text behind its
first `?` into there is `key=value`, and no later one has the key. -/
def Assigns (target key value : Bytes) : Prop :=
  ∃ path query before after, target = path ++ 63 :: query ∧ 63 ∉ path ∧
    query.splitOn 38 = before ++ (key ++ 61 :: value) :: after ∧ 61 ∉ key ∧
      ∀ piece ∈ after, ¬ key ++ [61] <+: piece

/-- Of the pieces of a query the last one with a key assigns its value. -/
theorem assigned_eq_some_iff {query key value : Bytes} : assigned query key = some value ↔
    ∃ before after, query.splitOn 38 = before ++ (key ++ 61 :: value) :: after ∧ 61 ∉ key ∧
      ∀ piece ∈ after, ¬ key ++ [61] <+: piece := by
  rw [assigned, assignments_of_pieces, List.lookup_eq_some_iff]
  constructor
  · rintro ⟨later, earlier, hpairs, hlater⟩
    rw [List.reverse_eq_iff, List.reverse_append, List.reverse_cons, List.append_assoc] at hpairs
    obtain ⟨front, rest, hpieces, -, hrest⟩ := List.filterMap_eq_append_iff.mp hpairs
    obtain ⟨skipped, piece, after, rfl, -, hpiece, hafter⟩ := List.filterMap_eq_cons_iff.mp hrest
    obtain ⟨rfl, hkey⟩ := assignment_eq_some_iff.mp hpiece
    refine ⟨front ++ skipped, after, by rw [hpieces, List.append_assoc], hkey, ?_⟩
    rintro other hother ⟨text, rfl⟩
    -- a later piece with the key would be among the pairs that are looked up first
    have hassigns : assignment (key ++ [61] ++ text) = some (key, text) :=
      assignment_eq_some_iff.mpr ⟨by simp, hkey⟩
    have hmem := List.mem_filterMap.mpr ⟨_, hother, hassigns⟩
    rw [hafter] at hmem
    exact absurd (hlater (key, text) (List.mem_reverse.mp hmem)) (by simp)
  · rintro ⟨before, after, hpieces, hkey, hafter⟩
    have hpiece : assignment (key ++ 61 :: value) = some (key, value) :=
      assignment_eq_some_iff.mpr ⟨rfl, hkey⟩
    refine ⟨(after.filterMap assignment).reverse, (before.filterMap assignment).reverse, ?_,
      fun pair hpair => ?_⟩
    · rw [hpieces, List.filterMap_append, List.filterMap_cons_some hpiece, List.reverse_append,
        List.reverse_cons, List.append_assoc, List.singleton_append]
    · obtain ⟨piece, hmem, hassigns⟩ := List.mem_filterMap.mp (List.mem_reverse.mp hpair)
      refine bne_iff_ne.mpr fun hsame => hafter piece hmem ?_
      obtain ⟨rfl, -⟩ := assignment_eq_some_iff.mp hassigns
      exact ⟨pair.2, by rw [hsame, List.append_assoc, List.singleton_append]⟩

/-- The query of a target makes its assignments. -/
theorem assigned_query_eq_some_iff {target key value : Bytes} :
    assigned (queryOf target) key = some value ↔ Assigns target key value := by
  rw [assigned_eq_some_iff]
  constructor
  · rintro ⟨before, after, hpieces, hkey, hafter⟩
    cases hmark : find (lit "?") target with
    | some qmark =>
        have hquery : queryOf target = target.drop (qmark + 1) := by
          rw [queryOf, behind, hmark]
          rfl
        rw [hquery] at hpieces
        exact ⟨target.take qmark, _, before, after, eq_append_cons_of_find hmark,
          not_mem_take_of_find hmark, hpieces, hkey, hafter⟩
    | none =>
        -- the only piece of no query is empty
        have hquery : queryOf target = [] := by
          rw [queryOf, behind, hmark]
          rfl
        have hmem : key ++ 61 :: value ∈ (queryOf target).splitOn 38 := by simp [hpieces]
        rw [hquery] at hmem
        exact absurd (List.mem_singleton.mp hmem) (by simp)
  · rintro ⟨path, query, before, after, rfl, hpath, hpieces, hkey, hafter⟩
    have hquery : queryOf (path ++ 63 :: query) = query := by
      rw [queryOf, show lit "?" = [63] from rfl, behind_singleton_append hpath]
      rfl
    exact ⟨before, after, hquery.symm ▸ hpieces, hkey, hafter⟩

/-- The text is read between its first two spaces. -/
def ReadTarget (s read : Bytes) : Prop :=
  ∃ first rest, 32 ∉ first ∧ 32 ∉ read ∧ s = first ++ 32 :: (read ++ 32 :: rest)

/-- The text between the first two spaces is what `extract_query_parameters` takes for
the target. -/
theorem ReadTarget.line_target_eq {s read : Bytes} (h : ReadTarget s read) :
    lineTarget s = read := by
  obtain ⟨first, rest, hfirst, hread, rfl⟩ := h
  exact line_target_of_spaces hfirst hread

/-- A text with a target has two spaces. -/
theorem TargetText.exists_read {s method target : Bytes} (h : TargetText s method target) :
    ∃ read, ReadTarget s read := by
  obtain ⟨rest, stop, -, hbehind, hstop, -⟩ := h
  obtain ⟨i, hmarker, hrest⟩ := Option.map_eq_some_iff.mp hbehind
  have htwice : 2 ≤ s.count 32 := by
    rw [eq_append_of_find hmarker, hrest, eq_append_of_find hstop]
    simp only [List.count_append, show lit " HTTP/" = 32 :: lit "HTTP/" from rfl,
      List.count_cons_self]
    omega
  obtain ⟨first, later, rfl, hfirst⟩ := List.eq_append_cons_of_mem
    (List.count_pos_iff.mp (Nat.lt_of_lt_of_le Nat.two_pos htwice))
  rw [List.count_append, List.count_cons_self, List.count_eq_zero_of_not_mem hfirst] at htwice
  have hsecond : 32 ∈ later := List.count_pos_iff.mp (by omega)
  obtain ⟨read, rest, rfl, hread⟩ := List.eq_append_cons_of_mem hsecond
  exact ⟨read, first, rest, hfirst, hread, rfl⟩

/-- Both targets make the same assignments. -/
def SameAssignments (read target : Bytes) : Prop :=
  ∀ key value, Assigns read key value ↔ Assigns target key value

/-- A slash before a target makes no difference. -/
theorem same_assignments_cons_slash (target : Bytes) : SameAssignments (47 :: target) target := by
  intro key value
  rw [← assigned_query_eq_some_iff, ← assigned_query_eq_some_iff, query_of_cons_slash]

/-- Two targets make the same assignments exactly when their queries are split into the same map. -/
theorem same_assignments_iff {read target : Bytes} {params split : Params}
    (hparams : splitQuery (queryOf read) = .ok params)
    (hsplit : splitQuery (queryOf target) = .ok split) :
    SameAssignments read target ↔ ∀ key, params.lookup key = split.lookup key := by
  obtain ⟨params', hparams', hlookup⟩ := split_query_eq (queryOf read)
  obtain ⟨split', hsplit', hlookup'⟩ := split_query_eq (queryOf target)
  obtain rfl := Except.ok.inj (hparams'.symm.trans hparams)
  obtain rfl := Except.ok.inj (hsplit'.symm.trans hsplit)
  unfold SameAssignments
  refine forall_congr' fun key => ?_
  rw [hlookup, hlookup', Option.ext_iff]
  simp only [assigned_query_eq_some_iff]

/-- The request is accepted, and the parameters are those of the query that `parse` stored. -/
def ParametersAgree (raw : Bytes) : Prop :=
  ∃ req params split, parse raw = .ok (true, req) ∧
    extractQueryParameters (cstr raw) = .ok params ∧ splitQuery req.query = .ok split ∧
      ∀ key, params.lookup key = split.lookup key

/-- The two sets of parameters agree exactly when the target that `parse` copies fits `clean_path`,
and the text between the first two spaces is this target with the slash before it, or makes the same
assignments. -/
theorem parameters_agree_iff {raw method target : Bytes}
    (h : TargetText (cstr raw) method target) : ParametersAgree raw ↔
      (targetSlice method (47 :: target)).length < cleanPathSize ∧
        ∃ read, ReadTarget (cstr raw) read ∧
          (read = 47 :: target ∨ SameAssignments read target) := by
  have hparse := parse_of_target_text h
  constructor
  · rintro ⟨req, params, split, haccepted, hparams, hsplit, hsame⟩
    obtain ⟨hfits, hresult⟩ := copy_target_eq_ok_iff.mp (hparse.symm.trans haccepted)
    obtain ⟨-, rfl⟩ := Prod.mk.inj hresult
    obtain ⟨read, hread⟩ := h.exists_read
    refine ⟨hfits, read, hread, .inr ?_⟩
    rw [extract_query_parameters_eq, hread.line_target_eq] at hparams
    rw [set_target_query rfl, query_of_target_slice] at hsplit
    exact (same_assignments_iff hparams hsplit).mpr hsame
  · rintro ⟨hfits, read, hread, hsame⟩
    obtain ⟨params, hparams, -⟩ := split_query_eq (queryOf read)
    obtain ⟨split, hsplit, -⟩ := split_query_eq (queryOf target)
    refine ⟨_, params, split, hparse.trans (copy_target_of_fits hfits _), ?_, ?_,
      (same_assignments_iff hparams hsplit).mp ?_⟩
    · rw [extract_query_parameters_eq, hread.line_target_eq, hparams]
    · rw [set_target_query rfl, query_of_target_slice, hsplit]
    · obtain rfl | hsame := hsame
      · exact same_assignments_cons_slash target
      · exact hsame

/-- A request that adds a rule. -/
def ruleRequest : Bytes := lit "GET /admin/add_rule?path=/x&type=cgi HTTP/1.1\r\n\r\n"

/-- The parameters of `ruleRequest` are those of its query. -/
theorem parameters_agree_iff_rule : ParametersAgree ruleRequest := by
  have htarget : TargetText (cstr ruleRequest) (lit "GET")
      (lit "admin/add_rule?path=/x&type=cgi") := by
    have hline : cstr ruleRequest = lit "GET" ++ [32, 47] ++
        (lit "admin/add_rule?path=/x&type=cgi" ++ lit " HTTP/" ++ lit "1.1\r\n\r\n") := by
      decide +kernel
    exact target_text_of_get hline (by decide)
  refine (parameters_agree_iff htarget).mpr ⟨by decide, _, ?_, .inl rfl⟩
  exact ⟨lit "GET", lit "HTTP/1.1\r\n\r\n", by decide, by decide, by decide +kernel⟩

/-- A request with another in its body. -/
def smuggledRequest : Bytes := lit "POST /a?x=1 HTTP/1.1\r\n\r\nGET /b?y=2 HTTP/1.1"

/-- `smuggledRequest` is routed by the target in its body, with the parameters of the other. -/
theorem parameters_disagree_smuggled :
    parse smuggledRequest = .ok (true, ⟨smuggledRequest, lit "GET", lit "/b", lit "y=2"⟩) ∧
      ¬ ParametersAgree smuggledRequest := by
  have hparse : parse smuggledRequest =
      .ok (true, ⟨smuggledRequest, lit "GET", lit "/b", lit "y=2"⟩) := rfl
  refine ⟨hparse, fun hagree => ?_⟩
  obtain ⟨req, params, split, haccepted, hparams, hsplit, hsame⟩ := hagree
  obtain ⟨-, rfl⟩ := Prod.mk.inj (Except.ok.inj (hparse.symm.trans haccepted))
  rw [extract_query_parameters_eq] at hparams
  obtain ⟨params', hparams', hlookup⟩ :=
    split_query_eq (queryOf (lineTarget (cstr smuggledRequest)))
  obtain ⟨split', hsplit', hlookup'⟩ := split_query_eq (lit "y=2")
  obtain rfl := Except.ok.inj (hparams.symm.trans hparams')
  obtain rfl := Except.ok.inj (hsplit.symm.trans hsplit')
  have hx := hsame (lit "x")
  rw [hlookup, hlookup'] at hx
  exact absurd hx (by decide +kernel)

end Dvws
