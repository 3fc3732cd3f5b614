/-
What passes the buffered proxy unchanged.

Starlette hands a query over with one value for each name, and httpx hands a response over
with one line for each header and with its content decoded; a redirect it follows itself, and
what it keeps of cookies it adds to the request.  The proxy forwards what it is handed.
Headers are texts; the encoding of their characters is left out.
-/
import Sutram.Gateway.HttpClient
import Sutram.Library.Merging

namespace Sutram.Gateway.Transparency

open Exceptional Proxy Sutram.Core

/-! ## The two exchanges -/

/-- The pairs of the query in their order, decoded. -/
abbrev Query := List (String × String)

/-- A request of the client. -/
structure ClientRequest where
  method : Method
  path : Text
  headers : Headers
  queryParams : Query
  body : Bytes

/-- The request that goes downstream. -/
structure SentRequest where
  method : Method
  url : Text
  headers : Dict String String
  params : Query
  content : Bytes

/-- A response as it is sent: every header line, and the body under its encoding. -/
structure SentResponse where
  statusCode : Nat
  headers : Headers
  body : Bytes
deriving DecidableEq

/-! ## What Starlette and httpx hand over -/

/-- `QueryParams.items()` of Starlette: the last value of each name. -/
def queryItems (queryParams : Query) : Query := (Dict.ofPairs queryParams).entries

def joinLines (value line : String) : String := value ++ ", " ++ line

/-- `Headers.items()` of httpx: the lines of each name, joined. -/
def responseItems (headers : Headers) : Headers :=
  (Dict.merge joinLines (requestItems headers)).entries

/-- `Headers.get` of httpx, with a name in lower case. -/
def fieldValue (name : String) (headers : Headers) : Option String :=
  Dict.mergedValue joinLines name (requestItems headers)

/-- `response.content`, `none` if it cannot be decoded. -/
def SentResponse.content (decode : Option String → Bytes → Option Bytes) (r : SentResponse) :
    Option Bytes :=
  decode (fieldValue "content-encoding" r.headers) r.body

/-- `Response.init_headers` of Starlette. -/
def initHeaders (headers : Headers) (mediaType : Option String) (statusCode : Nat)
    (content : Bytes) : Headers :=
  let rawHeaders := requestItems headers
  let keys := rawHeaders.map Prod.fst
  let contentLength :=
    if "content-length" ∉ keys ∧ ¬(statusCode < 200 ∨ statusCode = 204 ∨ statusCode = 304) then
      [("content-length", toString content.length)]
    else []
  let contentType :=
    match mediaType with
    | some type =>
      if "content-type" ∉ keys then
        [("content-type",
          if type.startsWith "text/" ∧ ¬ (lower type).contains "charset=" then
            type ++ "; charset=utf-8" else type)]
      else []
    | none => []
  rawHeaders ++ contentLength ++ contentType

/-! ## The proxy -/

section Passes

variable (decode : Option String → Bytes → Option Bytes) (settings : APIGatewaySettings)
  (internalAuthToken : String) (tenantId : Uuid) (cookies : Option String)

/-- What `_proxy_buffered` has httpx send, with what the jar has for the URL. -/
def sentRequest (request : ClientRequest) : SentRequest where
  method := request.method
  url := downstreamUrl (fullPath request.path) settings
  headers := setCookieHeader cookies
    (buildForwardHeaders request.headers tenantId internalAuthToken)
  params := queryItems request.queryParams
  content := request.body

/-- What `client.send` returns where these are the responses to the request and to the
redirects that httpx sends after it, `none` if it raises. -/
def returned (followed : Nat) : List SentResponse → Option SentResponse
  | [] => none
  | response :: later =>
    if hasRedirectLocation response.statusCode response.headers then
      if followed < maxRedirects ∧ (response.content decode).isSome then
        returned (followed + 1) later
      else none
    else some response

def responseHeaders (response : SentResponse) : Headers :=
  (responseItems response.headers).filter fun h => lower h.1 ∉ hopByHop

/-- What `_proxy_buffered` has Starlette send, `none` if it raises. -/
def clientResponse (response : SentResponse) : Option SentResponse :=
  (response.content decode).map fun content =>
    { statusCode := response.statusCode
      headers := initHeaders (responseHeaders response)
        (fieldValue "content-type" response.headers) response.statusCode content
      body := content }

/-- The header lines that are not hop-by-hop, with their names in lower case. -/
def endToEnd (headers : Headers) : Headers := (requestItems headers).filter fun h => h.1 ∉ hopByHop

/-- The request goes on as it came. -/
structure SameRequest (request : ClientRequest) (sent : SentRequest) : Prop where
  method : sent.method = request.method
  content : sent.content = request.body
  params : sent.params.Perm request.queryParams

/-- The response goes on as it came: under its own content encoding, the body that is
received decodes to the content. -/
structure SameResponse (response received : SentResponse) : Prop where
  statusCode : received.statusCode = response.statusCode
  content : ∃ content, response.content decode = some content ∧
    received.content decode = some content
  headers : (endToEnd received.headers).Perm (endToEnd response.headers)

/-- What the client receives. -/
def received (response : SentResponse) (later : List SentResponse) : Option SentResponse :=
  (returned decode 0 (response :: later)).bind (clientResponse decode)

/-- The request is answered with `response`.  If httpx sends further requests, they are
answered with `later`. -/
def Transparent (request : ClientRequest) (response : SentResponse) (later : List SentResponse) :
    Prop :=
  SameRequest request (sentRequest settings internalAuthToken tenantId cookies request) ∧
    ∃ answer, received decode response later = some answer ∧ SameResponse decode response answer

variable {decode settings internalAuthToken tenantId cookies}

/-! ## The headers that are received -/

theorem requestItems_eq_self {headers : Headers} (h : ∀ line ∈ headers, lower line.1 = line.1) :
    requestItems headers = headers := by
  have hline : ∀ line ∈ headers, (lower line.1, line.2) = id line := fun line hline => by
    rw [h line hline]
    rfl
  rw [requestItems, List.map_congr_left hline, List.map_id]

theorem lower_of_mem_responseItems {headers : Headers} {line : String × String}
    (h : line ∈ responseItems headers) : lower line.1 = line.1 := by
  obtain ⟨item, hitem, hname⟩ := List.mem_map.mp (Dict.key_mem_of_merge h)
  rw [← hname]
  exact lower_of_mem_items hitem

theorem responseHeaders_eq (response : SentResponse) :
    responseHeaders response =
      (responseItems response.headers).filter fun h => h.1 ∉ hopByHop := by
  refine List.filter_congr fun line hline => ?_
  rw [lower_of_mem_responseItems hline]

theorem requestItems_responseHeaders (response : SentResponse) :
    requestItems (responseHeaders response) = responseHeaders response :=
  requestItems_eq_self fun _ hline => lower_of_mem_responseItems (List.mem_filter.mp hline).1

/-- The media type is among the headers if there is one. -/
theorem contentType_mem {response : SentResponse} {type : String}
    (h : fieldValue "content-type" response.headers = some type) :
    "content-type" ∈ (responseHeaders response).map Prod.fst := by
  rw [fieldValue, ← Dict.get?_merge, ← Dict.mem_iff_get?] at h
  refine List.mem_map.mpr ⟨("content-type", type), ?_, rfl⟩
  have hforwarded : "content-type" ∉ hopByHop := by decide
  rw [responseHeaders_eq]
  exact List.mem_filter.mpr ⟨h, decide_eq_true hforwarded⟩

/-- Starlette adds the length of the content and nothing else. -/
theorem initHeaders_eq (response : SentResponse) (content : Bytes) :
    ∃ added, initHeaders (responseHeaders response) (fieldValue "content-type" response.headers)
        response.statusCode content = responseHeaders response ++ added ∧
      ∀ line ∈ added, line.1 = "content-length" := by
  have htype : (match fieldValue "content-type" response.headers with
      | some type =>
        if "content-type" ∉ (responseHeaders response).map Prod.fst then
          [("content-type",
            if type.startsWith "text/" ∧ ¬ (lower type).contains "charset=" then
              type ++ "; charset=utf-8" else type)]
        else []
      | none => []) = [] := by
    cases hfield : fieldValue "content-type" response.headers with
    | none => rfl
    | some type => exact if_neg (not_not.mpr (contentType_mem hfield))
  simp only [initHeaders, requestItems_responseHeaders, htype, List.append_nil]
  refine ⟨_, rfl, fun line hline => ?_⟩
  split at hline
  · rw [List.mem_singleton.mp hline]
  · cases hline

variable (decode) in
/-- What the client receives of a response that can be decoded. -/
theorem clientResponse_eq_some_iff {response received : SentResponse} :
    clientResponse decode response = some received ↔
      ∃ content, response.content decode = some content ∧
        received = ⟨response.statusCode, initHeaders (responseHeaders response)
          (fieldValue "content-type" response.headers) response.statusCode content, content⟩ := by
  rw [clientResponse, Option.map_eq_some_iff]
  exact exists_congr fun content => and_congr_right fun _ => eq_comm

theorem endToEnd_initHeaders (response : SentResponse) (content : Bytes) :
    endToEnd (initHeaders (responseHeaders response)
      (fieldValue "content-type" response.headers) response.statusCode content) =
      responseHeaders response := by
  obtain ⟨added, heq, hadded⟩ := initHeaders_eq response content
  have hlines : requestItems (responseHeaders response ++ added) =
      responseHeaders response ++ added := by
    refine requestItems_eq_self fun line hline => ?_
    rcases List.mem_append.mp hline with hline | hline
    · exact lower_of_mem_responseItems (List.mem_filter.mp hline).1
    · rw [hadded line hline]
      decide
  have hlength : "content-length" ∈ hopByHop := by decide
  have hnone : added.filter (fun line => line.1 ∉ hopByHop) = [] := by
    refine List.filter_eq_nil_iff.mpr fun line hline => ?_
    rw [hadded line hline]
    simpa using hlength
  rw [heq, endToEnd, hlines, List.filter_append, hnone, List.append_nil]
  refine List.filter_eq_self.mpr fun line hline => ?_
  rw [responseHeaders_eq] at hline
  exact (List.mem_filter.mp hline).2

/-- The value of an end-to-end header is the one it had, whatever lines it came in. -/
theorem fieldValue_initHeaders (response : SentResponse) (content : Bytes) {name : String}
    (hname : name ∉ hopByHop) :
    fieldValue name (initHeaders (responseHeaders response)
      (fieldValue "content-type" response.headers) response.statusCode content) =
      fieldValue name response.headers := by
  have hforwarded : decide (name ∉ hopByHop) = true := decide_eq_true hname
  have hsame := endToEnd_initHeaders response content
  rw [fieldValue, ← Dict.mergedValue_filter (fun k => k ∉ hopByHop) hforwarded]
  show Dict.mergedValue joinLines name (endToEnd _) = _
  rw [hsame, responseHeaders_eq, Dict.mergedValue_filter (fun k => k ∉ hopByHop) hforwarded,
    responseItems, Dict.mergedValue_entries, Dict.get?_merge]
  rfl

/-! ## Redirects -/

theorem not_redirect_of_returned {responses : List SentResponse} {response : SentResponse}
    {followed : Nat} (h : returned decode followed responses = some response) :
    hasRedirectLocation response.statusCode response.headers = false := by
  induction responses generalizing followed with
  | nil => cases h
  | cons first later ih =>
    rw [returned] at h
    split at h
    · split at h
      · exact ih h
      · cases h
    · cases h
      exact eq_false_of_ne_true ‹_›

/-- Where it leads is an end-to-end header. -/
theorem hasHeader_iff {name : String} (hname : lower name ∉ hopByHop) (headers : Headers) :
    hasHeader name headers = true ↔ lower name ∈ (endToEnd headers).map Prod.fst := by
  simp only [hasHeader, endToEnd, requestItems, List.any_eq_true, decide_eq_true_eq,
    List.mem_map, List.mem_filter]
  constructor
  · rintro ⟨line, hline, heq⟩
    exact ⟨(lower line.1, line.2), ⟨⟨line, hline, rfl⟩, by rw [heq]; exact hname⟩, heq⟩
  · rintro ⟨_, ⟨⟨line, hline, rfl⟩, -⟩, heq⟩
    exact ⟨line, hline, heq⟩

/-- A response with the status and the headers of a redirect is one. -/
theorem redirect_of_sameResponse {first response answer : SentResponse}
    (hanswer : clientResponse decode response = some answer)
    (hsame : SameResponse decode first answer)
    (hfirst : hasRedirectLocation first.statusCode first.headers = true) :
    hasRedirectLocation response.statusCode response.headers = true := by
  have hlocation : lower "Location" ∉ hopByHop := by decide
  obtain ⟨content, -, rfl⟩ := (clientResponse_eq_some_iff decode).mp hanswer
  simp only [hasRedirectLocation, hasHeader_iff hlocation, decide_eq_true_eq] at hfirst ⊢
  obtain ⟨hstatus, hmem⟩ := hfirst
  rw [← hsame.statusCode] at hstatus
  refine ⟨hstatus, ?_⟩
  have hline := (hsame.headers.map Prod.fst).mem_iff.mpr hmem
  dsimp only at hline
  rw [endToEnd_initHeaders, responseHeaders_eq] at hline
  obtain ⟨line, hline, heq⟩ := List.mem_map.mp hline
  have hkey := Dict.key_mem_of_merge (List.mem_filter.mp hline).1
  obtain ⟨item, hitem, hname⟩ := List.mem_map.mp hkey
  refine List.mem_map.mpr ⟨item, List.mem_filter.mpr ⟨hitem, ?_⟩, hname.trans heq⟩
  simpa [hname, heq] using hlocation

/-- What the client receives is the response itself, if it is like the response at all. -/
theorem received_same_iff {response : SentResponse} {later : List SentResponse} :
    (∃ answer, received decode response later = some answer ∧
      SameResponse decode response answer) ↔
      hasRedirectLocation response.statusCode response.headers = false ∧
        ∃ answer, clientResponse decode response = some answer ∧
          SameResponse decode response answer := by
  constructor
  · rintro ⟨answer, hanswer, hsame⟩
    obtain ⟨last, hlast, hanswer⟩ := Option.bind_eq_some_iff.mp hanswer
    have hnot : hasRedirectLocation response.statusCode response.headers = false := by
      by_contra hfirst
      have hredirect := redirect_of_sameResponse hanswer hsame (eq_true_of_ne_false hfirst)
      rw [not_redirect_of_returned hlast] at hredirect
      cases hredirect
    rw [returned, if_neg (by simp [hnot])] at hlast
    cases hlast
    exact ⟨hnot, answer, hanswer, hsame⟩
  · rintro ⟨hnot, answer, hanswer, hsame⟩
    refine ⟨answer, ?_, hsame⟩
    rw [received, returned, if_neg (by simp [hnot]), Option.bind_some, hanswer]

/-! ## When it is transparent -/

theorem sameRequest_iff {request : ClientRequest} :
    SameRequest request (sentRequest settings internalAuthToken tenantId cookies request) ↔
      (request.queryParams.map Prod.fst).Nodup := by
  rw [← Dict.ofPairs_perm_iff]
  exact ⟨fun h => h.params, fun h => ⟨rfl, rfl, h⟩⟩

theorem endToEnd_perm_iff (response : SentResponse) (content : Bytes) :
    (endToEnd (initHeaders (responseHeaders response)
      (fieldValue "content-type" response.headers) response.statusCode content)).Perm
        (endToEnd response.headers) ↔ ((endToEnd response.headers).map Prod.fst).Nodup := by
  rw [endToEnd_initHeaders, responseHeaders_eq]
  exact Dict.filter_merge_perm_iff fun k => k ∉ hopByHop

variable (decode settings internalAuthToken tenantId cookies)

end Passes

/-! ## The route's definition -/

/-- The lookup that the route makes is the one of httpx. -/
theorem header_responseItems (name : String) (headers : Headers) :
    header name (responseItems headers) = fieldValue (lower name) headers := by
  rw [fieldValue, ← Dict.get?_merge, header, Dict.get?]
  refine congrArg (Option.map Prod.snd) (List.find?_congr fun line hline => ?_)
  rw [lower_of_mem_responseItems hline]

/-- With what httpx hands it of the response that it returns, the route builds the response
that the client receives. -/
theorem proxyBuffered_builds {ε : Type} {env : Environment ε}
    {decode : Option String → Bytes → Option Bytes} {first response : SentResponse}
    {later : List SentResponse} {body content : Bytes}
    (hreturned : returned decode 0 (first :: later) = some response)
    (hcontent : response.content decode = some content) (hbody : env.body = pure body)
    (hrequest : ∀ r, env.buildRequest r = .ok r)
    (hsend : ∀ r, env.send r =
      pure ⟨response.statusCode, responseItems response.headers, content⟩)
    (hresponse : ∀ r, env.buildResponse r = .ok r) (request : Request) (url : Text)
    (forwardHeaders : Dict String String) (w : World) :
    ∃ built, outcome (proxyBuffered env request url forwardHeaders) w = (.ok built, w) ∧
      built.content = .bytes content ∧
      received decode first later = some ⟨built.statusCode,
        initHeaders built.headers built.mediaType built.statusCode content, content⟩ := by
  refine ⟨⟨.bytes content, response.statusCode, responseHeaders response,
    fieldValue "content-type" response.headers⟩, ?_, rfl, ?_⟩
  · have hname : lower "content-type" = "content-type" := by decide
    have hlookup := header_responseItems "content-type" response.headers
    rw [hname] at hlookup
    rw [← hlookup]
    simp only [proxyBuffered, hbody, hrequest, hsend, hresponse]
    rfl
  · rw [received, hreturned, Option.bind_some, clientResponse, hcontent, Option.map_some]

/-! ## What does not pass -/

section Examples

instance (request : ClientRequest) (sent : SentRequest) : Decidable (SameRequest request sent) :=
  decidable_of_iff
    (sent.method = request.method ∧ sent.content = request.body ∧
      sent.params.Perm request.queryParams)
    ⟨fun h => ⟨h.1, h.2.1, h.2.2⟩, fun h => ⟨h.method, h.content, h.params⟩⟩

instance (decode : Option String → Bytes → Option Bytes) (response received : SentResponse) :
    Decidable (SameResponse decode response received) :=
  decidable_of_iff
    (received.statusCode = response.statusCode ∧
      (∃ content ∈ response.content decode, received.content decode = some content) ∧
      (endToEnd received.headers).Perm (endToEnd response.headers))
    ⟨fun h => ⟨h.1, h.2.1, h.2.2⟩, fun h => ⟨h.statusCode, h.content, h.headers⟩⟩

instance (decode : Option String → Bytes → Option Bytes) (settings : APIGatewaySettings)
    (internalAuthToken : String) (tenantId : Uuid) (cookies : Option String)
    (request : ClientRequest) (response : SentResponse) (later : List SentResponse) :
    Decidable
      (Transparent decode settings internalAuthToken tenantId cookies request response later) :=
  decidable_of_iff
    (SameRequest request (sentRequest settings internalAuthToken tenantId cookies request) ∧
      ∃ answer ∈ received decode response later, SameResponse decode response answer)
    Iff.rfl

/-- `gzip.compress(b"ok", mtime=0)` -/
def gzipped : Bytes :=
  [31, 139, 8, 0, 0, 0, 0, 0, 2, 3, 203, 207, 6, 0, 71, 221, 220, 121, 2, 0, 0, 0]

/-- `b"ok"`, which is no gzip file. -/
def plain : Bytes := [111, 107]

def gunzip : Option String → Bytes → Option Bytes
  | some "gzip", body => if body = gzipped then some plain else none
  | _, body => some body

def listing (queryParams : Query) : ClientRequest where
  method := .get
  path := "workflows".toList
  headers := [("Accept", "*/*")]
  queryParams := queryParams
  body := []

end Examples

end Sutram.Gateway.Transparency
