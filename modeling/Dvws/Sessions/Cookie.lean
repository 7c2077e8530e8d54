import Dvws.Http.Headers
import Dvws.Sessions

/-!
# Which session a request names

`get_session_id_from_cookie` reads the text behind the first `session_id=` behind the first
`Cookie:` of the whole request, up to a `;` anywhere later, or to the end of the line. Where that is
the place of the `session_id` cookie, its value is read exactly when the cookie is not the last, or
no `;` comes behind its line (`CookieRequest.CookieReads`). Where it is in another line, in another
cookie or in the body, the same value may happen to stand there (`CookieRequest.Coincides`).
-/

namespace Dvws

open Text

/-- The text that the session identifier is read from. -/
def sessionText (request : Bytes) : Option Bytes :=
  (behind (lit "Cookie:") request).bind (behind (lit "session_id="))

/-- A value stands at the start of a text, and ends where it is taken to end. -/
def ReadsValue (value text : Bytes) : Prop :=
  (value <+: text ∧ (lit ";" <+: text.drop value.length ∨
      59 ∉ text ∧ lit "\r\n" <+: text.drop value.length)) ∨
    (value = [] ∧ 59 ∉ text ∧ ¬ lit "\r\n" <:+: text)

instance (value text : Bytes) : Decidable (ReadsValue value text) :=
  inferInstanceAs (Decidable (_ ∨ _))

/-- A text up to the first `;`, or up to the first CRLF if there is none. -/
def valueOf (text : Bytes) : Bytes :=
  (((find (lit ";") text).or (find (lit "\r\n") text)).map fun stop => text.take stop).getD []

/-- The lookup reads the value of `sessionText`, or the empty one. -/
theorem get_session_id_from_cookie_eq (request : Bytes) :
    getSessionIdFromCookie request = .ok (((sessionText request).map valueOf).getD []) := by
  unfold getSessionIdFromCookie sessionText
  cases hcookie : find (lit "Cookie:") request with
  | none => simp [behind, hcookie]
  | some cookiePos =>
      have hbehind : behind (lit "Cookie:") request = some (request.drop (cookiePos + 7)) := by
        rw [behind, hcookie]
        rfl
      have hdrop : request.drop cookiePos = lit "Cookie:" ++ request.drop (cookiePos + 7) := by
        obtain ⟨-, ⟨rest, hrest⟩, -⟩ := find_eq_some_iff.mp hcookie
        rw [← List.drop_drop, ← hrest]
        rfl
      -- no part of "Cookie:" begins "session_id="
      have hfrom : findFrom request (lit "session_id=") cookiePos =
          (find (lit "session_id=") (request.drop (cookiePos + 7))).map (· + (cookiePos + 7)) := by
        unfold findFrom
        rw [hdrop, find_append_of_barrier (by decide) (last_not_mem rfl (by decide)),
          Option.map_map]
        congr 1
        funext i
        show i + 7 + cookiePos = i + (cookiePos + 7)
        omega
      rw [hbehind, Option.bind_some]
      dsimp only
      rw [hfrom]
      unfold behind
      cases hsession : find (lit "session_id=") (request.drop (cookiePos + 7)) with
      | none => rfl
      | some i =>
          have hbound : i + (cookiePos + 7) + 11 ≤ request.length :=
            (findFrom_lt (by decide) (hfrom.trans (congrArg _ hsession))).2
          have htail : request.drop (i + (cookiePos + 7) + 11) =
              (request.drop (cookiePos + 7)).drop (i + 11) := by
            rw [List.drop_drop]
            congr 1
            omega
          have hlength : (lit "session_id=").length = 11 := rfl
          simp only [Option.map_some, findFrom, hlength, htail, ← Option.map_or,
            Option.getD_some]
          unfold valueOf
          cases hstop : (find (lit ";") ((request.drop (cookiePos + 7)).drop (i + 11))).or
              (find (lit "\r\n") ((request.drop (cookiePos + 7)).drop (i + 11))) with
          | none => rfl
          | some stop =>
              show substr request (i + (cookiePos + 7) + 11)
                (some (stop + (i + (cookiePos + 7) + 11) - (i + (cookiePos + 7) + 11))) = _
              rw [substr_of_le hbound, Nat.add_sub_cancel, htail]
              rfl

/-- A value without `;` and CR is what is read exactly when it stands there. -/
theorem value_of_eq_iff {value text : Bytes} (hsemicolon : 59 ∉ value) (hreturn : 13 ∉ value) :
    valueOf text = value ↔ ReadsValue value text := by
  unfold valueOf ReadsValue
  cases hsemi : find (lit ";") text with
  | some i =>
      have hmem : (59 : UInt8) ∈ text := by
        rw [eq_append_cons_of_find hsemi]
        simp
      simp only [Option.some_or, Option.map_some, Option.getD_some, hmem, not_true_eq_false,
        false_and, and_false, or_false]
      exact take_eq_iff_of_find hsemicolon hsemi
  | none =>
      have hmem : (59 : UInt8) ∉ text := find_singleton_eq_none_iff.mp hsemi
      have hnext : ¬ lit ";" <+: text.drop value.length := by
        intro hbegins
        exact hmem (List.mem_of_mem_drop (hbegins.subset (by decide)))
      simp only [Option.none_or, hmem, hnext, not_false_eq_true, true_and, false_or]
      cases hline : find (lit "\r\n") text with
      | some i =>
          have hoccurs : lit "\r\n" <:+: text := exists_find_iff.mp ⟨i, hline⟩
          simp only [Option.map_some, Option.getD_some, hoccurs, not_true_eq_false, and_false,
            or_false]
          exact take_eq_iff_of_find hreturn hline
      | none =>
          have hoccurs : ¬ lit "\r\n" <:+: text := find_eq_none_iff.mp hline
          have hend : ¬ lit "\r\n" <+: text.drop value.length := fun hbegins =>
            hoccurs (hbegins.isInfix.trans (List.drop_suffix _ _).isInfix)
          simp [hoccurs, hend, eq_comm]

/-- From a place in a line, a value is read when it is followed by a `;` in the line, or is all that
is left of the line and no `;` comes later. -/
theorem value_of_line_iff {value line : Bytes} (hsemicolon : 59 ∉ value) (hreturn : 13 ∉ value)
    (hone : ¬ lit "\r\n" <:+: line) (rest : Bytes) :
    valueOf (line ++ 13 :: 10 :: rest) = value ↔
      value ++ lit ";" <+: line ∨ value = line ∧ 59 ∉ line ++ rest := by
  have hlater : 59 ∈ line ++ 13 :: 10 :: rest ↔ 59 ∈ line ++ rest := by simp
  by_cases hmem : 59 ∈ line ++ 13 :: 10 :: rest
  · have hnever : ¬ (value = line ∧ 59 ∉ line ++ rest) := fun h => h.2 (hlater.mp hmem)
    obtain ⟨stop, hstop⟩ : ∃ stop, find (lit ";") (line ++ 13 :: 10 :: rest) = some stop :=
      exists_find_iff.mpr ((List.singleton_infix_iff ..).mpr hmem)
    rw [or_iff_left hnever, valueOf, hstop, Option.some_or, Option.map_some, Option.getD_some]
    refine (take_eq_iff_of_find hsemicolon hstop).trans ?_
    constructor
    · rintro ⟨⟨tail, htail⟩, hnext⟩
      rw [← htail, List.drop_left] at hnext
      have hbegins : value ++ lit ";" <+: line ++ 13 :: 10 :: rest := by
        rw [← htail, List.prefix_append_right_inj]
        exact hnext
      obtain hinside | ⟨more, hmore⟩ :=
        List.prefix_or_prefix_of_prefix hbegins (List.prefix_append line _)
      · exact hinside
      -- the end of the line is no part of the value
      rw [← hmore, List.prefix_append_right_inj] at hbegins
      cases more with
      | nil => exact ⟨[], by rw [← hmore, List.append_nil, List.append_nil]⟩
      | cons c more =>
          obtain rfl : c = 13 := (List.cons_prefix_cons.mp hbegins).1
          have hinside : 13 ∈ value ++ lit ";" := by
            rw [← hmore]
            simp
          obtain hvalue | habsurd := List.mem_append.mp hinside
          · exact absurd hvalue hreturn
          · exact absurd habsurd (by decide)
    · rintro ⟨tail, rfl⟩
      refine ⟨⟨lit ";" ++ tail ++ 13 :: 10 :: rest, by simp⟩, ?_⟩
      rw [List.append_assoc, List.append_assoc, List.drop_left]
      exact List.prefix_append _ _
  · have hnone : find (lit ";") (line ++ 13 :: 10 :: rest) = none :=
      find_singleton_eq_none_iff.mpr hmem
    have hline : ¬ value ++ lit ";" <+: line := fun hbegins =>
      hmem (List.mem_append_left _ (hbegins.subset (List.mem_append_right _ (by decide))))
    rw [valueOf, hnone, Option.none_or, find_line_end hone, Option.map_some, Option.getD_some,
      List.take_left, or_iff_right hline, and_iff_left (mt hlater.mpr hmem), eq_comm]

/-- The text ends in the first `session_id=` behind the first `Cookie:`. -/
def EndsInName (s : Bytes) : Prop :=
  ∃ front middle, s = front ++ middle ∧ EndsFirst (lit "Cookie:") front ∧
    EndsFirst (lit "session_id=") middle

/-- The session identifier is read behind such a text. -/
theorem session_text_eq_some_iff {request rest : Bytes} :
    sessionText request = some rest ↔ ∃ s, request = s ++ rest ∧ EndsInName s := by
  constructor
  · intro h
    obtain ⟨tail, hcookie, hname⟩ := Option.bind_eq_some_iff.mp h
    obtain ⟨front, rfl, hfront⟩ := exists_ends_first (by decide) hcookie
    obtain ⟨middle, rfl, hmiddle⟩ := exists_ends_first (by decide) hname
    exact ⟨front ++ middle, (List.append_assoc ..).symm, front, middle, rfl, hfront, hmiddle⟩
  · rintro ⟨s, rfl, front, middle, rfl, hfront, hmiddle⟩
    rw [sessionText, List.append_assoc, hfront.behind_append, Option.bind_some,
      hmiddle.behind_append]

/-- A session is read nowhere exactly when no `session_id=` comes behind a `Cookie:`. -/
theorem session_text_eq_none_iff {request : Bytes} :
    sessionText request = none ↔
      ∀ front rest, request = front ++ lit "Cookie:" ++ rest → ¬ lit "session_id=" <:+: rest := by
  unfold sessionText behind
  cases hfind : find (lit "Cookie:") request with
  | none =>
      refine iff_of_true rfl fun front rest hsplit => ?_
      exact absurd ⟨front, rest, hsplit.symm⟩ (find_eq_none_iff.mp hfind)
  | some i =>
      rw [Option.map_some, Option.bind_some, Option.map_eq_none_iff, find_eq_none_iff]
      constructor
      · rintro hnone front rest rfl hinside
        -- the first `Cookie:` stands there or before
        have hle : i ≤ front.length := by
          by_contra hlater
          refine (find_eq_some_iff.mp hfind).2.2 front.length (Nat.lt_of_not_le hlater) ?_
          rw [List.append_assoc, List.drop_left]
          exact List.prefix_append _ _
        have hdrop : (front ++ lit "Cookie:" ++ rest).drop (i + 7) =
            (front ++ lit "Cookie:").drop (i + 7) ++ rest := by
          refine List.drop_append_of_le_length ?_
          rw [List.length_append]
          exact Nat.add_le_add_right hle 7
        refine hnone (hinside.trans ?_)
        show rest <:+: (front ++ lit "Cookie:" ++ rest).drop (i + 7)
        rw [hdrop]
        exact (List.suffix_append _ _).isInfix
      · intro hall
        exact hall (request.take i) _ (eq_append_of_find hfind)

/-! ## Requests with at most one cookie line -/

/-- `name=value`. -/
def cookieText (cookie : Bytes × Bytes) : Bytes := cookie.1 ++ 61 :: cookie.2

/-- A `Cookie:` line: what stands between the colon and the first cookie, and the cookies. -/
structure CookieLine where
  spaces : Bytes
  cookies : List (Bytes × Bytes)
  blank : ∀ c ∈ spaces, c = 32 ∨ c = 9
  names : ∀ cookie ∈ cookies, ∀ c ∈ cookie.1, c ≠ 61 ∧ c ≠ 59 ∧ c ≠ 13 ∧ c ≠ 10
  values : ∀ cookie ∈ cookies, ∀ c ∈ cookie.2, c ≠ 59 ∧ c ≠ 13 ∧ c ≠ 10
  distinct : (cookies.map Prod.fst).Nodup

/-- The text of the line. -/
def CookieLine.text (line : CookieLine) : Bytes :=
  lit "Cookie:" ++ line.spaces ++ (lit "; ").intercalate (line.cookies.map cookieText)

/-- A request of which at most one header line is a `Cookie:` line. -/
structure CookieRequest where
  requestLine : Bytes
  before : List Bytes
  cookieLine : Option CookieLine
  after : List Bytes
  body : Bytes
  oneLine : ¬ lit "\r\n" <:+: requestLine
  lines : ∀ line ∈ before ++ after, line ≠ [] ∧ ¬ lit "\r\n" <:+: line ∧ ¬ lit "Cookie:" <+: line

namespace CookieRequest

variable (r : CookieRequest)

/-- What comes before the cookie line. -/
def front : Bytes := headerLines (r.requestLine :: r.before)

/-- What comes behind the cookie line. -/
def rear : Bytes := headerLines r.after ++ lit "\r\n" ++ r.body

/-- The request text. -/
def text : Bytes :=
  r.front ++ headerLines (r.cookieLine.map CookieLine.text).toList ++ r.rear

/-- The value of the cookie whose name is `session_id`. -/
def sessionId : Bytes :=
  (r.cookieLine.bind fun line => line.cookies.lookup (lit "session_id")).getD []

/-- The lines, with the empty one that ends them. -/
def textLines : List Bytes :=
  r.requestLine :: (r.before ++ (r.cookieLine.map CookieLine.text).toList ++ r.after ++ [[]])

/-- What comes before a cookie in its line. -/
def beforeCookie (line : CookieLine) (before : List (Bytes × Bytes)) : Bytes :=
  line.spaces ++ before.flatMap fun other => cookieText other ++ lit "; "

/-- What comes behind a cookie in its line. -/
def behindCookie (later : List (Bytes × Bytes)) : Bytes :=
  later.flatMap fun other => lit "; " ++ cookieText other

/-- The first text that looks like the session cookie is the session cookie, which other cookies
follow or not. -/
def CookieFirst (later : List (Bytes × Bytes)) : Prop :=
  ∃ line before value, r.cookieLine = some line ∧
    line.cookies = before ++ (lit "session_id", value) :: later ∧
    ¬ lit "Cookie:" <:+: r.front ∧ ¬ lit "session_id=" <:+: beforeCookie line before

/-- It ends in its line: another cookie follows, or no `;` comes behind the line. -/
def CookieReads : Prop := ∃ later, r.CookieFirst later ∧ (later ≠ [] ∨ 59 ∉ r.rear)

/-- Nothing looks like a session cookie, and there is none; or the first text that does ends inside
of one of the lines, or in the body, and the session identifier stands behind it there. -/
inductive Coincides : Prop where
  | nowhere (hnone : ∀ front rest, r.text = front ++ lit "Cookie:" ++ rest →
      ¬ lit "session_id=" <:+: rest) (hvalue : r.sessionId = [])
  | line {before a b after} (hlines : r.textLines = before ++ (a ++ b) :: after)
      (hfirst : EndsInName (headerLines before ++ a))
      (hreads : r.sessionId ++ lit ";" <+: b ∨
        r.sessionId = b ∧ 59 ∉ b ++ (headerLines after ++ r.body))
  | body {a b} (hbody : r.body = a ++ b) (hfirst : EndsInName (headerLines r.textLines ++ a))
      (hreads : ReadsValue r.sessionId b)

/-- The session identifier is a value of a cookie, or empty. -/
theorem session_id_plain : ∀ c ∈ r.sessionId, c ≠ 59 ∧ c ≠ 13 ∧ c ≠ 10 := by
  unfold sessionId
  cases r.cookieLine with
  | none => simp
  | some line =>
      rw [Option.bind_some]
      cases hlookup : line.cookies.lookup (lit "session_id") with
      | none => simp
      | some value =>
          obtain ⟨before, after, hsplit, -⟩ := List.lookup_eq_some_iff.mp hlookup
          refine line.values (lit "session_id", value) ?_
          rw [hsplit]
          exact List.mem_append_right _ List.mem_cons_self

/-- Cookies that are joined are told apart by the separators behind all but the last. -/
theorem intercalate_cookies (before later : List (Bytes × Bytes)) (cookie : Bytes × Bytes) :
    (lit "; ").intercalate ((before ++ cookie :: later).map cookieText) =
      (before.flatMap fun other => cookieText other ++ lit "; ") ++ cookieText cookie ++
        later.flatMap fun other => lit "; " ++ cookieText other := by
  induction before with
  | nil =>
      induction later generalizing cookie with
      | nil => simp
      | cons other later ih =>
          have hrest := ih other
          simp only [List.nil_append, List.map_cons, List.flatMap_nil] at hrest ⊢
          rw [List.intercalate_cons_cons, hrest, List.flatMap_cons]
          simp only [List.append_assoc]
  | cons other before ih =>
      rw [List.cons_append, List.map_cons, List.intercalate_cons_of_ne_nil (by simp), ih,
        List.flatMap_cons]
      simp only [List.append_assoc]

/-- What stands before a cookie in its line ends in no part of a name. -/
theorem getLast_before_cookie (line : CookieLine) (before : List (Bytes × Bytes)) :
    ∀ c ∈ (line.spaces ++ before.flatMap fun other => cookieText other ++ lit "; ").getLast?,
      c = 32 ∨ c = 9 := by
  intro c hc
  rcases List.eq_nil_or_concat before with rfl | ⟨others, last, rfl⟩
  · rw [List.flatMap_nil, List.append_nil] at hc
    exact line.blank c (List.mem_of_getLast? hc)
  · left
    rw [List.concat_eq_append, List.flatMap_append, List.flatMap_singleton, ← List.append_assoc,
      ← List.append_assoc, List.getLast?_append] at hc
    exact (Option.some.inj hc).symm

variable {r} {line : CookieLine} {before later : List (Bytes × Bytes)} {value : Bytes}

/-- The session identifier is the value of the cookie, wherever it stands in its line. -/
theorem session_id_of_cookies (hline : r.cookieLine = some line)
    (hcookies : line.cookies = before ++ (lit "session_id", value) :: later) :
    r.sessionId = value := by
  have hdistinct := line.distinct
  rw [hcookies, List.map_append, List.map_cons] at hdistinct
  have hnone : before.lookup (lit "session_id") = none := by
    refine List.lookup_eq_none_iff.mpr fun other hother => ?_
    have hmem : other.1 ∈ before.map Prod.fst := List.mem_map_of_mem hother
    have hne : other.1 ≠ lit "session_id" := fun hsame =>
      List.disjoint_of_nodup_append hdistinct hmem (hsame ▸ List.mem_cons_self)
    exact bne_iff_ne.mpr hne.symm
  rw [sessionId, hline, Option.bind_some, hcookies, List.lookup_append, hnone, Option.none_or,
    List.lookup_cons_self, Option.getD_some]

/-- A request with a `session_id` cookie is what stands before the cookie, its value, and what
stands behind it. -/
theorem text_of_cookies (hline : r.cookieLine = some line)
    (hcookies : line.cookies = before ++ (lit "session_id", value) :: later) :
    r.text = r.front ++ lit "Cookie:" ++ (beforeCookie line before ++ lit "session_id=" ++
      (value ++ (behindCookie later ++ lit "\r\n" ++ r.rear))) := by
  have hname : cookieText (lit "session_id", value) = lit "session_id=" ++ value := rfl
  rw [text, hline, Option.map_some, Option.toList_some, headerLines, List.flatMap_singleton,
    CookieLine.text, hcookies, intercalate_cookies, hname, beforeCookie, behindCookie]
  simp only [List.append_assoc]

/-- When no text before the cookie looks like it, the lookup reads from its value on. -/
theorem session_text_of_first (hline : r.cookieLine = some line)
    (hcookies : line.cookies = before ++ (lit "session_id", value) :: later)
    (hfront : ¬ lit "Cookie:" <:+: r.front)
    (hbefore : ¬ lit "session_id=" <:+: beforeCookie line before) :
    sessionText r.text = some (value ++ (behindCookie later ++ lit "\r\n" ++ r.rear)) := by
  have hlast : ∀ c ∈ r.front.getLast?, c ∉ lit "Cookie:" :=
    last_not_mem (getLast_header_lines _ _) (by decide)
  have hblank : ∀ c ∈ (beforeCookie line before).getLast?, c ∉ lit "session_id=" := by
    intro c hc
    rcases getLast_before_cookie line before c hc with rfl | rfl
    · decide
    · decide
  unfold sessionText
  rw [text_of_cookies hline hcookies, behind_append_of_barrier hfront hlast, Option.bind_some,
    behind_append_of_barrier hbefore hblank]

/-- From behind the name of the cookie, its value is read exactly when the value ends in
its line. -/
theorem value_of_cookie_iff (hline : r.cookieLine = some line)
    (hcookies : line.cookies = before ++ (lit "session_id", value) :: later) :
    valueOf (value ++ (behindCookie later ++ lit "\r\n" ++ r.rear)) = value ↔
      later ≠ [] ∨ 59 ∉ r.rear := by
  have hplain := r.session_id_plain
  rw [session_id_of_cookies hline hcookies] at hplain
  have hsemicolon : (59 : UInt8) ∉ value := fun h => (hplain 59 h).1 rfl
  have hreturn : (13 : UInt8) ∉ value := fun h => (hplain 13 h).2.1 rfl
  cases later with
  | nil =>
      have hone : ¬ lit "\r\n" <:+: value := fun hinside => hreturn (hinside.subset (by decide))
      have hnext : ¬ value ++ lit ";" <+: value := fun hbegins => by
        have hlength := hbegins.length_le
        rw [List.length_append] at hlength
        exact absurd hlength (by simp [lit])
      have hread := value_of_line_iff hsemicolon hreturn hone r.rear
      rw [or_iff_right hnext, eq_self_iff_true, true_and, List.mem_append,
        or_iff_right hsemicolon] at hread
      rw [or_iff_right (fun h => h rfl), ← hread]
      rfl
  | cons other later =>
      refine iff_of_true ?_ (.inl (List.cons_ne_nil _ _))
      rw [value_of_eq_iff hsemicolon hreturn, behindCookie, List.flatMap_cons]
      refine .inl ⟨List.prefix_append _ _, .inl ?_⟩
      rw [List.drop_left]
      exact ⟨_, rfl⟩

/-- The text is that of the lines, with the body behind them. -/
theorem text_eq : r.text = headerLines r.textLines ++ r.body := by
  simp [text, front, rear, textLines, headerLines]

/-- The line of the cookies has no end in it. -/
theorem return_not_mem_cookies (line : CookieLine) : 13 ∉ line.text := by
  have hcookie : ∀ cookie ∈ line.cookies, 13 ∉ cookieText cookie := by
    intro cookie hcookie hmem
    simp only [cookieText, List.mem_append, List.mem_cons] at hmem
    obtain hname | habsurd | hvalue := hmem
    · exact (line.names cookie hcookie 13 hname).2.2.1 rfl
    · exact absurd habsurd (by decide)
    · exact (line.values cookie hcookie 13 hvalue).2.1 rfl
  have hspaces : 13 ∉ line.spaces := fun hmem => by
    obtain habsurd | habsurd := line.blank 13 hmem
    · exact absurd habsurd (by decide)
    · exact absurd habsurd (by decide)
  have hjoined : ∀ cookies : List (Bytes × Bytes), (∀ cookie ∈ cookies, 13 ∉ cookieText cookie) →
      13 ∉ (lit "; ").intercalate (cookies.map cookieText) := by
    intro cookies hall
    induction cookies with
    | nil => simp
    | cons cookie cookies ih =>
        obtain ⟨hfirst, hrest⟩ := List.forall_mem_cons.mp hall
        cases cookies with
        | nil => simpa using hfirst
        | cons other cookies =>
            rw [List.map_cons, List.intercalate_cons_of_ne_nil (by simp)]
            simp only [List.mem_append, not_or]
            exact ⟨⟨hfirst, by decide⟩, ih hrest⟩
  simp only [CookieLine.text, List.mem_append, not_or]
  exact ⟨⟨by decide, hspaces⟩, hjoined _ hcookie⟩

/-- None of the lines has an end in it. -/
theorem one_line {s : Bytes} (h : s ∈ r.textLines) : ¬ lit "\r\n" <:+: s := by
  simp only [textLines, List.mem_cons, List.mem_append, Option.mem_toList, Option.map_eq_some_iff,
    List.not_mem_nil, or_false] at h
  obtain rfl | ((hbefore | ⟨line, -, rfl⟩) | hafter) | rfl := h
  · exact r.oneLine
  · exact (r.lines s (List.mem_append_left _ hbefore)).2.1
  · exact fun hinside => return_not_mem_cookies line (hinside.subset (by decide))
  · exact (r.lines s (List.mem_append_right _ hafter)).2.1
  · decide

/-- A lookup goes on from a place in a line. -/
theorem value_from_line_iff {before after : List Bytes} {a b : Bytes}
    (hlines : r.textLines = before ++ (a ++ b) :: after) :
    valueOf (headerLines (b :: after) ++ r.body) = r.sessionId ↔
      r.sessionId ++ lit ";" <+: b ∨ r.sessionId = b ∧ 59 ∉ b ++ (headerLines after ++ r.body) := by
  have hplain := r.session_id_plain
  have hone : ¬ lit "\r\n" <:+: a ++ b := r.one_line (by rw [hlines]; simp)
  rw [header_lines_cons, List.append_assoc, List.cons_append, List.cons_append]
  exact value_of_line_iff (fun h => (hplain 59 h).1 rfl) (fun h => (hplain 13 h).2.1 rfl)
    (fun hinside => hone (hinside.trans (List.suffix_append _ _).isInfix)) _

/-- A place in a line is one in the text. -/
theorem text_of_line {before after : List Bytes} {a b : Bytes}
    (hlines : r.textLines = before ++ (a ++ b) :: after) :
    r.text = headerLines before ++ a ++ (headerLines (b :: after) ++ r.body) := by
  rw [text_eq, hlines, header_lines_cons, headerLines, List.flatMap_append, ← headerLines,
    ← headerLines, header_lines_cons]
  simp only [List.append_assoc]

/-- What stands behind the first text that looks like the session cookie is read as its value
exactly when it happens to be the value. -/
theorem coincides_iff (r : CookieRequest) :
    ((sessionText r.text).map valueOf).getD [] = r.sessionId ↔ r.Coincides := by
  have hplain := r.session_id_plain
  have hbody (b : Bytes) : valueOf b = r.sessionId ↔ ReadsValue r.sessionId b :=
    value_of_eq_iff (fun h => (hplain 59 h).1 rfl) (fun h => (hplain 13 h).2.1 rfl)
  constructor
  · intro hreads
    cases hfound : sessionText r.text with
    | none =>
        rw [hfound] at hreads
        exact .nowhere (session_text_eq_none_iff.mp hfound) hreads.symm
    | some rest =>
        rw [hfound, Option.map_some, Option.getD_some] at hreads
        obtain ⟨s, hsplit, hname⟩ := session_text_eq_some_iff.mp hfound
        have hlast : s.getLast? = some 61 := by
          obtain ⟨front, middle, rfl, -, ⟨name, rfl⟩, -⟩ := hname
          rw [List.getLast?_append, List.getLast?_append]
          rfl
        have hprefix : s <+: headerLines r.textLines ++ r.body := by
          rw [← text_eq]
          exact ⟨rest, hsplit.symm⟩
        obtain ⟨before, a, b, after, hlines, rfl⟩ | ⟨a, b, hsplitBody, rfl⟩ :=
          exists_line_of_prefix hprefix hlast (by decide)
        · rw [text_of_line hlines] at hsplit
          rw [← List.append_cancel_left hsplit, value_from_line_iff hlines] at hreads
          exact .line hlines hname hreads
        · rw [text_eq, hsplitBody, ← List.append_assoc] at hsplit
          rw [← List.append_cancel_left hsplit, hbody] at hreads
          exact .body hsplitBody hname hreads
  · intro hcoincides
    cases hcoincides with
    | nowhere hnone hvalue =>
        rw [session_text_eq_none_iff.mpr hnone, hvalue]
        rfl
    | line hlines hname hreads =>
        rw [session_text_eq_some_iff.mpr ⟨_, text_of_line hlines, hname⟩]
        exact (value_from_line_iff hlines).mpr hreads
    | @body a b hsplit hname hreads =>
        have htext : r.text = headerLines r.textLines ++ a ++ b := by
          rw [text_eq, hsplit, List.append_assoc]
        rw [session_text_eq_some_iff.mpr ⟨_, htext, hname⟩]
        exact (hbody b).mpr hreads

end CookieRequest

/-- The lookup returns the session identifier exactly when it reads the session cookie to its end,
or when that cookie is not the first text that looks like it and the session identifier happens to
stand behind that text. -/
theorem cookie_extraction_iff (r : CookieRequest) :
    getSessionIdFromCookie r.text = .ok r.sessionId ↔
      r.CookieReads ∨ (¬ ∃ later, r.CookieFirst later) ∧ r.Coincides := by
  rw [get_session_id_from_cookie_eq, Except.ok.injEq]
  by_cases hfirst : ∃ later, r.CookieFirst later
  · rw [or_iff_left fun h => h.1 hfirst]
    have hreads (later : List (Bytes × Bytes)) (h : r.CookieFirst later) :
        ((sessionText r.text).map valueOf).getD [] = r.sessionId ↔ later ≠ [] ∨ 59 ∉ r.rear := by
      obtain ⟨line, before, value, hline, hcookies, hfront, hbefore⟩ := h
      rw [CookieRequest.session_text_of_first hline hcookies hfront hbefore,
        CookieRequest.session_id_of_cookies hline hcookies]
      exact CookieRequest.value_of_cookie_iff hline hcookies
    constructor
    · intro hagrees
      obtain ⟨later, h⟩ := hfirst
      exact ⟨later, h, (hreads later h).mp hagrees⟩
    · intro h
      obtain ⟨later, h, hend⟩ := h
      exact (hreads later h).mpr hend
  · rw [and_iff_right hfirst, or_iff_right]
    · exact r.coincides_iff
    · intro h
      obtain ⟨later, h, -⟩ := h
      exact hfirst ⟨later, h⟩

/-- A request with one cookie, and a later header line with a semicolon in it. -/
def browserRequest : CookieRequest where
  requestLine := lit "GET / HTTP/1.1"
  before := [lit "Host: localhost"]
  cookieLine := some
    { spaces := [32]
      cookies := [(lit "session_id", lit "abc")]
      blank := forall_mem_of_all (by decide)
      names := List.forall_mem_singleton.mpr (forall_mem_of_all (by decide))
      values := List.forall_mem_singleton.mpr (forall_mem_of_all (by decide))
      distinct := by decide }
  after := [lit "User-Agent: Mozilla/5.0 (X11; Linux)"]
  body := []
  oneLine := (fieldRequest []).oneLine
  lines := by decide

/-- Without a semicolon in its line, the value is read up to a later one. -/
theorem cookie_extraction_overruns :
    getSessionIdFromCookie browserRequest.text ≠ .ok browserRequest.sessionId := by
  decide +kernel

end Dvws
