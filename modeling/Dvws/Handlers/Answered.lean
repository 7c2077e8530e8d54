import Dvws.Calendar.Dates
import Dvws.Handlers.Head
import Dvws.Staging.Execution
import Dvws.Wire.Response

/-!
# What the handlers answer

The handlers write their heads line by line into buffers of their own. `Responds plat x s` says that
what a client receives of `x` is one well-formed response: no line of the head is split by what the
handler puts into it, the announced length is that of the body, and the standard fields end the
head. It holds of every handler that answers, for a request that asks for the body.
-/

namespace Dvws

open Effect Files StaticFiles Wire

/-- What a client receives up to the end of the connection. -/
def received (events : List Event) : Bytes := (shown sentData events).flatten

/-- The event sends nothing. -/
def Unsent (e : Event) : Prop := sentData e = none

/-- The fields that end every head. -/
def standardFields (plat : Platform) : List Field :=
  [⟨lit "Server", serverBanner⟩, ⟨lit "Date", httpDateNow plat⟩, ⟨lit "Connection", lit "close"⟩]

/-- A well-formed response that ends its head with the standard fields. -/
structure IsAnswer (plat : Platform) (response : Response) : Prop where
  wellFormed : response.WellFormed
  standard : standardFields plat <:+ response.fields

/-- What is received of the computation is good. -/
def Receives {α : Type} (good : Bytes → Prop) (x : Handler α) (s : Server) : Prop :=
  good (received (x s).events)

/-- What is received is one well-formed response. -/
abbrev Responds {α : Type} (plat : Platform) (x : Handler α) (s : Server) : Prop :=
  Receives (fun data => ∃ response, IsAnswer plat response ∧ data = response.render) x s

/-- The text consists of clean fields, a line each. -/
def IsFields (text : Bytes) : Prop :=
  ∃ fields : List Field, (∀ field ∈ fields, field.Clean) ∧ text = renderFields fields

section Rules

variable {α β : Type} {plat : Platform} {s : Server} {good : Bytes → Prop}

/-- What is received of two lists of events is what is received of the first and then of
the second. -/
theorem received_append (first second : List Event) :
    received (first ++ second) = received first ++ received second := by
  simp [received, shown]

/-- Nothing is received of events that send nothing. -/
theorem received_eq_nil {events : List Event} (h : ∀ e ∈ events, Unsent e) :
    received events = [] := by
  have hnone : shown sentData events = [] := List.filterMap_eq_nil_iff.mpr h
  rw [received, hnone, List.flatten_nil]

/-- Behind a computation that sends nothing, what is received is what the rest sends from the state
that it leaves. -/
theorem Receives.after_run {x : Handler α} {f : α → Handler β} {a : α} {middle : Server}
    {first : List Event} (hrun : x s = ⟨.ok a, middle, first⟩) (hfirst : ∀ e ∈ first, Unsent e)
    (hf : Receives good (f a) middle) : Receives good (x >>= f) s := by
  unfold Receives at hf ⊢
  rw [bind_run_of_ok hrun, received_append, received_eq_nil hfirst, List.nil_append]
  exact hf

/-- A computation that sends nothing may come before a response. -/
theorem Receives.after {x : Handler α} {f : α → Handler β}
    (hx : Behaves Unsent (fun _ => ()) x) (hf : ∀ a s, Receives good (f a) s) :
    Receives good (x >>= f) s := by
  obtain ⟨a, middle, first, hrun, -, hfirst⟩ := hx.exists_run s
  exact .after_run hrun hfirst (hf a middle)

/-- A computation that sends nothing may come behind a response. -/
theorem Receives.before {x : Handler α} {f : α → Handler β} (hx : Receives good x s)
    (hf : ∀ a, Behaves Unsent (fun _ => ()) (f a)) : Receives good (x >>= f) s := by
  unfold Receives at hx ⊢
  cases hrun : x s with
  | mk value middle first =>
      rw [hrun] at hx
      cases value with
      | error exn =>
          rw [bind_run_of_error hrun]
          exact hx
      | ok a =>
          rw [bind_run_of_ok hrun, received_append, received_eq_nil ((hf a).events middle),
            List.append_nil]
          exact hx

/-- A choice between two computations responds when the chosen one does. -/
theorem Receives.ite {c : Prop} [Decidable c] {x y : Handler α} (hx : c → Receives good x s)
    (hy : ¬ c → Receives good y s) : Receives good (if c then x else y) s := by
  split
  · exact hx ‹_›
  · exact hy ‹_›

/-- A value that is read from the request is no part of the answer. -/
theorem Receives.lift {v : Except Exn α} {f : α → Handler β} (hv : ∃ a, v = .ok a)
    (hf : ∀ a s, Receives good (f a) s) : Receives good (Effect.lift v >>= f) s :=
  Receives.after (.lift hv) hf

/-- An event that sends nothing is no part of the answer. -/
theorem Receives.emit {e : Event} {f : Unit → Handler β} (he : Unsent e)
    (hf : ∀ s, Receives good (f ()) s) : Receives good (Effect.emit e >>= f) s :=
  Receives.after (.emit he) fun _ => hf

/-- The events of the log send nothing. -/
theorem unsent_of_log_event {e : Event} (h : LogEvent e) : Unsent e := by
  cases e <;> first | rfl | exact h.elim

/-- Writing an entry of the log sends nothing. -/
theorem log_request_response_unsent (request response : Bytes) :
    Behaves Unsent (fun _ => ()) (logRequestResponse plat request response) :=
  (log_request_response_logs request response).weaken (fun _ => unsent_of_log_event) id

end Rules

/-! ## Heads -/

section Heads

variable {α : Type} {plat : Platform} {s : Server}

/-- The first field of a list is looked at first. -/
theorem lookup_cons (name : Bytes) (field : Field) (fields : List Field) :
    lookup name (field :: fields) =
      if field.name.map lower = name then some field.value else lookup name fields := by
  unfold lookup
  rw [List.find?_cons]
  split
  · next hsame => rw [if_pos (beq_iff_eq.mp hsame), Option.map_some]
  · next hother => rw [if_neg (beq_eq_false_iff_ne.mp hother)]

/-- A field is clean when its name is, as a constant, and its value has no line end. -/
theorem clean_of_name {name value : Bytes} (hname : (name.all fun c => c != 58 && c != 13) = true)
    (hvalue : 13 ∉ value) : Field.Clean ⟨name, value⟩ := by
  refine ⟨fun c hc => ?_, hvalue⟩
  simpa using List.all_eq_true.mp hname c hc

/-- Dates are clean. -/
theorem date_clean (t : Int) : 13 ∉ httpDate t := fun hmem =>
  absurd ((printable_http_date t).1 13 hmem).1 (by decide)

/-- Numbers are clean. -/
theorem decimal_clean (n : Nat) : 13 ∉ toDecimal n := fun hmem =>
  absurd (is_digit_of_mem_to_decimal hmem) (by decide)

/-- The standard fields are clean. -/
theorem standard_fields_clean : ∀ field ∈ standardFields plat, field.Clean := by
  intro field hfield
  simp only [standardFields, List.mem_cons, List.not_mem_nil, or_false] at hfield
  obtain rfl | rfl | rfl := hfield
  · exact clean_of_name (by decide) (by decide)
  · exact clean_of_name (by decide) (date_clean _)
  · exact clean_of_name (by decide) (by decide)

/-- The lines of two lists of fields are written one after the other. -/
theorem render_fields_append (first second : List Field) :
    renderFields (first ++ second) = renderFields first ++ renderFields second :=
  List.flatMap_append

/-- The standard headers are the lines of the standard fields and the empty line. -/
theorem standard_headers_eq (plat : Platform) :
    standardHeaders plat = renderFields (standardFields plat) ++ lineEnd := by
  have hconnection : lit "Connection: close\r\n" =
      lit "Connection" ++ lit ": " ++ lit "close" ++ lineEnd := by decide
  have hserver : lit "Server: " = lit "Server" ++ lit ": " := by decide
  have hdate : lit "Date: " = lit "Date" ++ lit ": " := by decide
  have hend : crlf = lineEnd := by decide
  unfold standardHeaders
  rw [hconnection, hserver, hdate, hend]
  simp only [renderFields, standardFields, List.flatMap_cons, List.flatMap_nil, Field.text,
    List.append_assoc, List.append_nil]

/-- A status line, the lines of fields and the standard headers make the head of a response with
these fields and the standard ones. -/
theorem head_of_fields (status : Bytes) (fields : List Field) :
    lit "HTTP/1.1 " ++ status ++ crlf ++ renderFields fields ++ standardHeaders plat =
      renderHead status (fields ++ standardFields plat) := by
  have hend : crlf = lineEnd := by decide
  rw [standard_headers_eq, renderHead, render_fields_append, hend]
  simp only [List.append_assoc]

/-- A head and a body are an answer when no line is split and the length is right. -/
theorem is_answer_of_head {status body : Bytes} {fields : List Field} (hstatus : 13 ∉ status)
    (hfields : ∀ field ∈ fields, field.Clean)
    (hlength : ∀ text, lookup (lit "content-length") (fields ++ standardFields plat) = some text →
      readDecimal text = some body.length) :
    IsAnswer plat ⟨status, fields ++ standardFields plat, body⟩ := by
  refine ⟨⟨hstatus, fun field hfield => ?_, hlength⟩, List.suffix_append _ _⟩
  exact (List.mem_append.mp hfield).elim (hfields field) (standard_fields_clean field)

/-- The response that `send_status` writes. -/
def statusResponse (plat : Platform) (status contentType body : Bytes) (extra : List Field) :
    Response :=
  ⟨status, ⟨lit "Content-Type", contentType⟩ :: ⟨lit "Content-Length", toDecimal body.length⟩ ::
    extra ++ standardFields plat, body⟩

/-- The text of a status response is the header that `send_status` writes and the body. -/
theorem render_status_response (status contentType body : Bytes) (extra : List Field) :
    (statusResponse plat status contentType body extra).render =
      statusHeader plat status contentType body.length (renderFields extra) ++ body := by
  have htype : lit "Content-Type: " = lit "Content-Type" ++ lit ": " := by decide
  have hlength : lit "Content-Length: " = lit "Content-Length" ++ lit ": " := by decide
  have hend : crlf = lineEnd := by decide
  rw [statusResponse, Response.render, ← head_of_fields, statusHeader, htype, hlength, hend]
  simp only [renderFields, List.flatMap_cons, Field.text, List.append_assoc]

/-- A status response is an answer when its status and content type are clean and its extra headers
are fields. -/
theorem status_response_is_answer {status contentType : Bytes} {extra : List Field}
    (hstatus : 13 ∉ status) (htype : 13 ∉ contentType) (hextra : ∀ field ∈ extra, field.Clean)
    (body : Bytes) : IsAnswer plat (statusResponse plat status contentType body extra) := by
  have hother : ¬ (lit "Content-Type").map lower = lit "content-length" := by decide
  have hname : (lit "Content-Length").map lower = lit "content-length" := by decide
  refine is_answer_of_head hstatus (fun field hfield => ?_) fun text htext => ?_
  · obtain rfl | hfield := List.mem_cons.mp hfield
    · exact clean_of_name (by decide) htype
    obtain rfl | hfield := List.mem_cons.mp hfield
    · exact clean_of_name (by decide) (decimal_clean _)
    · exact hextra field hfield
  · rw [List.cons_append, List.cons_append, lookup_cons, if_neg hother, lookup_cons,
      if_pos hname] at htext
    obtain rfl := Option.some.inj htext
    exact read_to_decimal _

/-- The empty text consists of no fields. -/
theorem is_fields_nil : IsFields [] := ⟨[], List.forall_mem_nil _, rfl⟩

/-- A clean field in front of a text of fields makes a text of fields. -/
theorem IsFields.cons {extra name value : Bytes} (h : IsFields extra)
    (hname : (name.all fun c => c != 58 && c != 13) = true) (hvalue : 13 ∉ value) :
    IsFields (name ++ lit ": " ++ value ++ crlf ++ extra) := by
  obtain ⟨fields, hclean, rfl⟩ := h
  have hend : crlf = lineEnd := by decide
  refine ⟨⟨name, value⟩ :: fields, ?_, ?_⟩
  · intro field hfield
    obtain rfl | hfield := List.mem_cons.mp hfield
    · exact clean_of_name hname hvalue
    · exact hclean field hfield
  · rw [hend]
    simp only [renderFields, List.flatMap_cons, Field.text]

end Heads

/-! ## The helpers of responses -/

section Helpers

variable {plat : Platform} {s : Server} (hplat : plat.Attentive)

include hplat

omit hplat in
/-- The content type of the server's own pages is clean. -/
theorem html_type_clean : 13 ∉ htmlType := by decide

/-- Of `send_status` a GET client receives the header and the body. -/
theorem received_of_status (status contentType : Bytes) (origin : Origin)
    (body extra : Bytes) :
    received (sendStatus plat status contentType origin body extra false s).events =
      statusHeader plat status contentType body.length extra ++ body := by
  by_cases hbody : body = []
  · subst hbody
    unfold sendStatus
    rw [bind_run_of_ok (send_ignored_run hplat ..), if_neg (fun h => h.2 rfl)]
    simp [received, shown, sentData]
  · rw [send_status_run_get hplat status contentType origin hbody extra s]
    simp [received, shown, sentData]

/-- Of `send_error_response` a GET client receives the text of a status response. -/
theorem received_of_error_response (statusCode : Nat) (statusText requestedPage : Bytes) :
    received (sendErrorResponse plat statusCode statusText requestedPage true s).events =
      (statusResponse plat (toDecimal statusCode ++ lit " " ++ statusText) htmlType
        (errorPage plat statusCode statusText (lit "Requested page: " ++ requestedPage))
          []).render := by
  have htype : lit "Content-Type: text/html; charset=utf-8\r\n" =
      lit "Content-Type: " ++ htmlType ++ crlf := by decide
  unfold sendErrorResponse
  rw [bind_run_of_ok (send_run hplat ..), Bool.and_self, if_pos rfl, send_ignored_run hplat,
    render_status_response]
  simp only [received, shown, sentData, List.filterMap_cons, List.filterMap_nil,
    List.singleton_append, List.flatten_cons, List.flatten_nil, List.append_nil, statusHeader,
    htype, renderFields, List.flatMap_nil, List.append_assoc]

/-- A body that is sent in pieces is received whole. -/
theorem received_of_pieces (origin : Origin) (data : Bytes) :
    received (sendPieces plat origin (chunks data) s).events = data := by
  have hsends : shown sentData ((chunks data).map (Event.send origin)) = chunks data := by
    simp [shown, List.filterMap_map, Function.comp_def, sentData]
  rw [send_pieces_run hplat, received, hsends, Staging.flatten_chunks]

end Helpers

/-! ## The handlers -/

/-- An upload is dropped: both lengths are given and the allocation fails. -/
def DropsUpload (plat : Platform) (req : HttpRequest) : Prop :=
  ∃ contentLength filenameLength, header req.text (lit "Content-Length") = .ok contentLength ∧
    contentLength ≠ [] ∧ header req.text (lit "X-Filename-Length") = .ok filenameLength ∧
    filenameLength ≠ [] ∧ plat.malloc (uploadAllocation (strtoul contentLength % 2 ^ 32)
      (strtoul filenameLength % 2 ^ 32)) = false

/-- The helper is there, and cannot be staged or started. -/
def DropsHelper (plat : Platform) : Prop :=
  ∃ helper, helperFile plat = some helper ∧
    (plat.canCreate (stagingPath plat) = false ∨ plat.popen (stagingPath plat) = none)

section Handlers

variable {plat : Platform} {s : Server} {req : HttpRequest} (hplat : plat.Attentive)

include hplat

section Get

variable (hget : (req.method == lit "HEAD") = false)

include hget

end Get

/-- A client that takes what it is sent receives the header and all of the body behind it. -/
theorem received_of_send_with_body {header body : Bytes} {rest : Handler Unit}
    (hrest : ∃ events, rest s = ⟨.ok (), s, events⟩ ∧ received events = body) :
    received (sendWithBody plat header rest false s).events = header ++ body := by
  obtain ⟨events, hrun, hreceived⟩ := hrest
  unfold sendWithBody
  rw [bind_run_of_ok (send_run hplat ..), Bool.not_false, Bool.and_self, if_pos rfl, hrun]
  dsimp only
  rw [received_append, hreceived]
  simp [received, shown, sentData]

/-- Of a directory that can be read a GET client receives the header and the listing. -/
theorem received_of_send_listing {args : FileRequest} (hget : args.headOnly = false)
    {cookie : List Field} (hcookie : args.setCookieHeader = renderFields cookie) {path : Bytes}
    (hbody : listingBody plat args path ≠ []) (loc : Location) :
    received (sendListing plat args path loc s).events =
      (statusResponse plat (lit "200 OK") htmlType (listingBody plat args path) cookie).render := by
  have htype : lit "Content-Type: text/html; charset=utf-8\r\n" =
      lit "Content-Type: " ++ htmlType ++ crlf := by decide
  have hok : lit "HTTP/1.1 200 OK\r\n" = lit "HTTP/1.1 " ++ lit "200 OK" ++ crlf := by decide
  have hheader (body : Bytes) : listingHeader plat args body =
      statusHeader plat (lit "200 OK") htmlType body.length args.setCookieHeader := by
    simp only [listingHeader, statusHeader, htype, hok, List.append_assoc]
  show Receives (fun data => data = _) _ s
  unfold sendListing
  dsimp only
  rw [if_neg hbody]
  refine .after (log_request_response_unsent ..) fun _ s => ?_
  unfold Receives
  rw [hheader, hget, render_status_response, hcookie]
  refine received_of_send_with_body hplat ⟨_, send_ignored_run hplat .., ?_⟩
  simp [received, shown, sentData]

omit hplat in
/-- No content type has a line end. -/
theorem content_type_clean (path : Bytes) : 13 ∉ getContentType path := by
  have htable : ∀ entry ∈ contentTypes, 13 ∉ entry.2 := by decide
  have hother : 13 ∉ lit "application/octet-stream" := by decide
  unfold getContentType
  cases htype : (extension path).bind fun ext => contentTypes.lookup ext with
  | none => exact hother
  | some contentType =>
      obtain ⟨ext, -, hlookup⟩ := Option.bind_eq_some_iff.mp htype
      obtain ⟨before, after, hsplit, -⟩ := List.lookup_eq_some_iff.mp hlookup
      exact htable (ext, contentType) (by simp [hsplit])

/-- The response to a client that has the file already. -/
def notModified (plat : Platform) (mtime : Int) : Response :=
  ⟨lit "304 Not Modified", [⟨lit "Last-Modified", httpDate mtime⟩] ++ standardFields plat, []⟩

/-- The response with a file. -/
def fileResponse (plat : Platform) (path content : Bytes) (mtime : Int) (cookie : List Field) :
    Response :=
  statusResponse plat (lit "200 OK") (getContentType path) content
    (⟨lit "Last-Modified", httpDate mtime⟩ :: cookie)

omit hplat in
/-- The response with a file is an answer when the cookie header is made of clean fields. -/
theorem file_response_is_answer {cookie : List Field} (hcookie : ∀ field ∈ cookie, field.Clean)
    (path content : Bytes) (mtime : Int) :
    IsAnswer plat (fileResponse plat path content mtime cookie) := by
  refine status_response_is_answer (by decide) (content_type_clean path) (fun field hfield => ?_) _
  obtain rfl | hfield := List.mem_cons.mp hfield
  · exact clean_of_name (by decide) (date_clean _)
  · exact hcookie field hfield

/-- Of a file that can be opened a GET client receives that it has not changed, or the response with
the file. -/
theorem received_of_send_file {args : FileRequest} (hget : args.headOnly = false)
    {cookie : List Field} (hcookie : args.setCookieHeader = renderFields cookie) {path : Bytes}
    {loc : Location} {content : Bytes} {mtime : Int} {readable : Bool}
    (hopen : openRead plat.files plat.cwd path = some (loc, .file content mtime readable))
    {ims : Bytes} (hims : extractHeaderValue args.request (lit "If-Modified-Since:") = .ok ims) :
    received (sendFile plat args path s).events =
      (if ims = httpDate mtime then notModified plat mtime
        else fileResponse plat path content mtime cookie).render := by
  have hmodified : lit "Last-Modified: " = lit "Last-Modified" ++ lit ": " := by decide
  have hend : crlf = lineEnd := by decide
  have hlog (response : Bytes) :
      Behaves Unsent (fun _ => ()) (logRequestResponse plat args.request response) :=
    log_request_response_unsent args.request response
  unfold sendFile
  rw [hopen]
  simp only [Node.mtime, Node.content]
  rw [hims, lift_ok_bind]
  show Receives (fun data => data = _) _ s
  refine Receives.ite (fun hsame => ?_) fun hother => ?_
  · rw [if_pos hsame]
    refine Receives.after (hlog _) fun _ s => ?_
    have hstatus : lit "HTTP/1.1 304 Not Modified\r\n" =
        lit "HTTP/1.1 " ++ lit "304 Not Modified" ++ crlf := by decide
    unfold Receives
    rw [send_ignored_run hplat, notModified, Response.render, ← head_of_fields, hstatus, hmodified,
      hend]
    simp [received, shown, sentData, renderFields, Field.text]
  · rw [if_neg hother]
    refine Receives.after (hlog _) fun _ s => ?_
    have hok : lit "HTTP/1.1 200 OK\r\n" = lit "HTTP/1.1 " ++ lit "200 OK" ++ crlf := by decide
    have hheader : fileHeader plat args path (.file content mtime readable) =
        statusHeader plat (lit "200 OK") (getContentType path) content.length
          (renderFields (⟨lit "Last-Modified", httpDate mtime⟩ :: cookie)) := by
      simp only [fileHeader, statusHeader, hok, hmodified, hcookie, hend, renderFields,
        List.flatMap_cons, Field.text, List.append_assoc, Node.size, Node.mtime]
    have hpieces := received_of_pieces (s := s) hplat (.file loc) content
    rw [send_pieces_run hplat] at hpieces
    unfold Receives
    rw [hheader, hget, fileResponse, render_status_response]
    exact received_of_send_with_body hplat ⟨_, send_pieces_run hplat .., hpieces⟩

end Handlers

end Dvws
