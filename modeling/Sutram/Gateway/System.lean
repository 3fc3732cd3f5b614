/-
The gateway with many requests under way.

A request is authenticated when it arrives, counted by the rate limiter, checked for its
idempotency key when its endpoint asks for one, and sent downstream, where it may be
redirected.  The requests of all tenants share the clock, the two Redis databases and the
HTTP client with its cookies.  Every command, every response and every failure is an action
of its own; the clock shows whole seconds.
-/
import Sutram.Core.RateLimit
import Sutram.Gateway.Auth
import Sutram.Gateway.HttpClient
import Sutram.Library.Projection

namespace Sutram.Gateway.System

open Sutram.Core Runs Idempotency

/-! ## Requests -/

/-- A request of a client, and when it comes to the gateway. -/
structure Client where
  arrivedAt : Nat
  request : Proxy.Request
  body : Proxy.Bytes

structure Config where
  settings : APIGatewaySettings
  internalAuthToken : String
  jwtSecret : String
  jwtAlgorithm : String
  requestsPerMinute : Nat
  jose : Jose
  unicode : Uuid.Unicode
  httpx : Httpx

/-- `AuthDep` -/
def Config.tenantOf (g : Config) (k : Client) : Except Raised Uuid :=
  getTenantId g.jose g.unicode k.arrivedAt g.jwtSecret g.jwtAlgorithm
    (header "Authorization" k.request.headers)

/-- What the store of idempotency keys is asked about. -/
def Client.scopedKey (k : Client) (tenantId : Uuid) : Option String :=
  Call.scopedKey ⟨k.request.method, k.request.path, tenantId,
    header "Idempotency-Key" k.request.headers⟩

/-- What the gateway asks httpx for, by either code path. -/
def Config.upstreamRequest (g : Config) (k : Client) (tenantId : Uuid) :
    Proxy.UpstreamRequest where
  method := k.request.method
  url := downstreamUrl (fullPath k.request.path) g.settings
  headers := buildForwardHeaders k.request.headers tenantId g.internalAuthToken
  content := if Proxy.isSse k.request then [] else k.body
  params := k.request.queryParams

inductive Answer where
  /-- The tenant is refused, with 401 or, where nothing catches the error, with 500. -/
  | refused (e : Raised)
  /-- 429 -/
  | rateLimitExceeded
  /-- 409 -/
  | duplicateRequest
  | upstream (statusCode : Nat)
  /-- 200, and the events of the downstream stream if it sends any. -/
  | stream
  /-- An exception that no handler of the route catches. -/
  | serverError
deriving DecidableEq

/-- What the client has where httpx raises: the status of a stream it has already. -/
def Client.raised (k : Client) : Answer := if Proxy.isSse k.request then .stream else .serverError

/-- The next operation of a request. -/
inductive Phase where
  | arrive
  | checkRateLimit
  | checkIdempotency
  | forward
  /-- The response has begun, and the downstream stream is not open yet. -/
  | openStream
  /-- httpx waits for the answer to what it has been asked for, or to a redirect of it. -/
  | respond (request : Proxy.UpstreamRequest) (followed : Nat)
  | redirect (built : Built) (followed : Nat)
  | deleteKey (statusCode : Nat)
  | done (a : Answer)
deriving DecidableEq

/-! ## The system -/

/-- A request that has gone downstream, by the call it is for and the redirects before it. -/
structure Sent where
  client : Nat
  followed : Nat
  built : Built
deriving DecidableEq

def Sent.place (e : Sent) : Nat × Nat := (e.client, e.followed)

/-- What a request has been answered with downstream. -/
structure Answered where
  client : Nat
  followed : Nat
  reply : UpstreamReply

def Answered.place (r : Answered) : Nat × Nat := (r.client, r.followed)

structure State where
  now : Nat := 0
  redis : Redis := fun _ => none
  store : Store := fun _ => none
  phases : Nat → Phase := fun _ => .arrive
  /-- The calls of the rate limiter's script, each with whether it admits the request. -/
  checked : List (Nat × RateLimiter.Call × Bool) := []
  sent : List Sent := []
  answered : List Answered := []

/-- The responses that httpx has its cookies from. -/
def State.replies (s : State) : List UpstreamReply := s.answered.map Answered.reply

def State.goto (s : State) (c : Nat) (p : Phase) : State :=
  { s with phases := Function.update s.phases c p }

/-- An operation of a request that has a tenant.  The reply to a command may be lost after
the command has taken effect. -/
inductive Op where
  | checkRateLimit (lost : Bool)
  | checkIdempotency (lost : Bool)
  | forward
  | respond (statusCode : Nat) (headers : Headers)
  | deleteKey (lost : Bool)
  /-- The operation raises before it has an effect, or the process dies. -/
  | fail
deriving DecidableEq, Repr

inductive Action where
  | arrive (c : Nat)
  | op (c : Nat) (o : Op)
  /-- Redis removes a counter whose TTL has passed. -/
  | evict (key : String)
  | wait (seconds : Nat)
deriving DecidableEq, Repr

variable (g : Config) (clients : Nat → Client)

section Operations

variable (k : Client) (c : Nat) (t : Uuid) (s : State)

/-- What follows the script, by its answer if that comes back. -/
def afterCheck (lost : Bool) (result : Except RateLimitExceeded Unit) : Phase :=
  match lost, result with
  | true, _ => .done .serverError
  | false, .ok () => .checkIdempotency
  | false, .error _ => .done .rateLimitExceeded

def checkRateLimit (lost : Bool) : State :=
  let (result, redis) := RateLimiter.check g.requestsPerMinute s.redis s.now t.str
  { s.goto c (afterCheck lost result) with
    redis := redis
    checked := s.checked ++ [(c, ⟨t.str, s.now⟩, result.isOk)] }

def checkIdempotency (lost : Bool) : State :=
  match k.scopedKey t with
  | none => s.goto c .forward
  | some key =>
    let (isDuplicate, store) := IdempotencyStore.checkAndStore s.store s.now key
    let phase := if isDuplicate then .done .duplicateRequest else .forward
    { s.goto c (if lost then .done .serverError else phase) with store := store }

def send (built : Built) (followed : Nat) : State :=
  { s.goto c (.respond built.request followed) with
    sent := s.sent ++ [⟨c, followed, built⟩] }

/-- What httpx has of a request at this time. -/
def State.build (request : Proxy.UpstreamRequest) : Built := g.httpx.build s.replies s.now request

/-- The first request of a call. -/
def sendFirst : State := send c s (s.build g (g.upstreamRequest k t)) 0

/-- What follows a response that httpx does not return. -/
def afterRedirect (request : Proxy.UpstreamRequest) (followed : Nat) (r : UpstreamReply) : Phase :=
  match g.httpx.redirectRequest request r with
  | some next =>
    if followed < maxRedirects then .redirect (s.build g next) (followed + 1) else .done k.raised
  | none => .done k.raised

/-- What follows a response that it returns: on a server error the key is deleted so that
the client can retry. -/
def afterResponse (statusCode : Nat) : Phase :=
  if Proxy.isSse k.request then .done .stream
  else if (k.scopedKey t).isSome ∧ 500 ≤ statusCode then .deleteKey statusCode
  else .done (.upstream statusCode)

/-- The response to the request `request`, whose cookies are there for the next request. -/
def respond (request : Proxy.UpstreamRequest) (followed : Nat) (statusCode : Nat)
    (headers : Headers) : State :=
  let r : UpstreamReply := ⟨s.now, request.url, statusCode, headers⟩
  let s' : State := { s with answered := s.answered ++ [⟨c, followed, r⟩] }
  s'.goto c (if r.redirects then afterRedirect g k s' request followed r
    else afterResponse k t statusCode)

def deleteKey (statusCode : Nat) (lost : Bool) : State :=
  { s.goto c (.done (if lost then .serverError else .upstream statusCode)) with
    store := match k.scopedKey t with
      | some key => IdempotencyStore.delete s.store key
      | none => s.store }

/-- What the client has in the end where the next operation raises. -/
def failed : Phase → Option Answer
  | .arrive | .done _ => none
  | .openStream | .respond _ _ | .redirect _ _ => some k.raised
  | _ => some .serverError

/-- An operation of the request `c`, which is `k` and of the tenant `t`. -/
def perform : Op → Option State
  | .checkRateLimit lost =>
    if s.phases c = .checkRateLimit then some (checkRateLimit g c t s lost) else none
  | .checkIdempotency lost =>
    if s.phases c = .checkIdempotency then some (checkIdempotency k c t s lost) else none
  | .forward =>
    match s.phases c with
    | .forward =>
      if Proxy.isSse k.request then some (s.goto c .openStream) else some (sendFirst g k c t s)
    | .openStream => some (sendFirst g k c t s)
    | .redirect built followed => some (send c s built followed)
    | _ => none
  | .respond statusCode headers =>
    match s.phases c with
    | .respond request followed => some (respond g k c t s request followed statusCode headers)
    | _ => none
  | .deleteKey lost =>
    match s.phases c with
    | .deleteKey statusCode => some (deleteKey k c t s statusCode lost)
    | _ => none
  | .fail => (failed k (s.phases c)).map fun a => s.goto c (.done a)

/-- What an operation can do. -/
inductive Performed : Op → State → Prop where
  | checkRateLimit {lost : Bool} (hphase : s.phases c = .checkRateLimit) :
    Performed (.checkRateLimit lost) (checkRateLimit g c t s lost)
  | checkIdempotency {lost : Bool} (hphase : s.phases c = .checkIdempotency) :
    Performed (.checkIdempotency lost) (checkIdempotency k c t s lost)
  | openStream (hphase : s.phases c = .forward) (hsse : Proxy.isSse k.request = true) :
    Performed .forward (s.goto c .openStream)
  | sendBuffered (hphase : s.phases c = .forward) (hsse : Proxy.isSse k.request = false) :
    Performed .forward (sendFirst g k c t s)
  | sendStream (hphase : s.phases c = .openStream) : Performed .forward (sendFirst g k c t s)
  | redirect {built : Built} {followed : Nat} (hphase : s.phases c = .redirect built followed) :
    Performed .forward (send c s built followed)
  | respond {request : Proxy.UpstreamRequest} {followed statusCode : Nat} {headers : Headers}
    (hphase : s.phases c = .respond request followed) :
    Performed (.respond statusCode headers)
      (respond g k c t s request followed statusCode headers)
  | deleteKey {statusCode : Nat} {lost : Bool} (hphase : s.phases c = .deleteKey statusCode) :
    Performed (.deleteKey lost) (deleteKey k c t s statusCode lost)
  | fail {a : Answer} (hphase : failed k (s.phases c) = some a) :
    Performed .fail (s.goto c (.done a))

variable {g k c t s} in
theorem perform_eq_some_iff {o : Op} {s' : State} :
    perform g k c t s o = some s' ↔ Performed g k c t s o s' := by
  constructor
  · intro hstep
    cases o with
    | checkRateLimit lost =>
      simp only [perform] at hstep
      split at hstep <;> cases hstep
      exact .checkRateLimit ‹_›
    | checkIdempotency lost =>
      simp only [perform] at hstep
      split at hstep <;> cases hstep
      exact .checkIdempotency ‹_›
    | forward =>
      simp only [perform] at hstep
      split at hstep
      · split at hstep <;> cases hstep
        · exact .openStream ‹_› ‹_›
        · exact .sendBuffered ‹_› (eq_false_of_ne_true ‹_›)
      · cases hstep
        exact .sendStream ‹_›
      · cases hstep
        exact .redirect ‹_›
      · cases hstep
    | respond statusCode headers =>
      simp only [perform] at hstep
      split at hstep <;> cases hstep
      exact .respond ‹_›
    | deleteKey lost =>
      simp only [perform] at hstep
      split at hstep <;> cases hstep
      exact .deleteKey ‹_›
    | fail =>
      obtain ⟨a, ha, rfl⟩ := Option.map_eq_some_iff.mp hstep
      exact .fail ha
  · intro h
    cases h with
    | checkRateLimit hphase => exact if_pos hphase
    | checkIdempotency hphase => exact if_pos hphase
    | openStream hphase hsse => simp [perform, hphase, hsse]
    | sendBuffered hphase hsse => simp [perform, hphase, hsse]
    | sendStream hphase => simp [perform, hphase]
    | redirect hphase => simp [perform, hphase]
    | respond hphase => simp [perform, hphase]
    | deleteKey hphase => simp [perform, hphase]
    | fail hphase => simp [perform, hphase]

end Operations

def evict (redis : Redis) (now : ℚ≥0) (key : String) : Redis :=
  if Expiring.get (redis key) now = none then Function.update redis key none else redis

/-- What the system does, given what the dependency makes of each request. -/
def stepWith (tenant : Nat → Except Raised Uuid) (s : State) : Action → Option State
  | .arrive c =>
    if s.phases c = .arrive ∧ (clients c).arrivedAt = s.now then
      some (s.goto c (match tenant c with
        | .ok _ => .checkRateLimit
        | .error e => .done (.refused e)))
    else none
  | .op c o =>
    match tenant c with
    | .ok t => perform g (clients c) c t s o
    | .error _ => none
  | .evict key => some { s with redis := evict s.redis s.now key }
  | .wait seconds => some { s with now := s.now + seconds }

def step : State → Action → Option State := stepWith g clients fun c => g.tenantOf (clients c)

/-! ## Two tenants -/

/-- Tokens of two tenants, under HS256 with the secret `test-secret`. -/
def firstToken : String :=
  "eyJhbGciOiJIUzI1NiIsInR5cCI6IkpXVCJ9" ++ "." ++
    "eyJ0ZW5hbnRfaWQiOiIxMTExMTExMS0xMTExLTExMTEtMTEx" ++
    "MS0xMTExMTExMTExMTEiLCJleHAiOjQxMDI0NDQ4MDB9" ++
    "." ++ "axXNmR5hkxraILwGSwJC593S2tS9KQhh26N3mjWU9sU"

def secondToken : String :=
  "eyJhbGciOiJIUzI1NiIsInR5cCI6IkpXVCJ9" ++ "." ++
    "eyJ0ZW5hbnRfaWQiOiJmZmZmZmZmZi1mZmZmLWZmZmYtZmZm" ++
    "Zi1mZmZmZmZmZmZmZmYiLCJleHAiOjQxMDI0NDQ4MDB9" ++
    "." ++ "eKqzvuJBjARfVYop2kqDAFsTylE7r3oU4U4C859cOLk"

def tokens : List (String × Uuid) :=
  [(firstToken, .repdigit 1), (secondToken, .repdigit 15)]

def tokenClaims (tenantId : Uuid) : Claims :=
  Dict.ofPairs [("tenant_id", .str tenantId.str), ("exp", .int 4102444800)]

/-- What jose makes of the two tokens. -/
def tokenJose : Jose where
  decode now token secret algorithm :=
    match tokens.lookup token with
    | some tenantId =>
      if secret = "test-secret" ∧ algorithm = "HS256" then
        if now ≤ 4102444800 then .ok (tokenClaims tenantId) else .error .expiredSignature
      else .error (.other "Signature verification failed.")
    | none => .error (.other "Signature verification failed.")
  unverifiedAlg token :=
    if (tokens.lookup token).isSome then .ok (some (.str "HS256"))
    else .error (.other "Error decoding token headers.")
  Signed token secret algorithm claims :=
    secret = "test-secret" ∧ algorithm = "HS256" ∧
      ∃ tenantId, tokens.lookup token = some tenantId ∧ claims = tokenClaims tenantId
  expiry
    | .int time => some time
    | _ => none
  signed_of_decode h := by
    split at h
    · rename_i tenantId htoken
      split at h
      · rename_i hsecret
        split at h <;> cases h
        exact ⟨hsecret.1, hsecret.2, tenantId, htoken, rfl⟩
      · cases h
    · cases h
  unexpired_of_decode h := by
    split at h
    · split at h
      · split at h <;> cases h
        rename_i hnow
        intro exp hexp
        have hget : ∀ text, Dict.get? (Dict.ofPairs [("tenant_id", Json.str text),
            ("exp", Json.int 4102444800)]) "exp" = some (.int 4102444800) := fun _ => rfl
        cases hexp.symm.trans (hget _)
        exact ⟨4102444800, rfl, hnow⟩
      · cases h
    · cases h
  alg_of_decode h := by
    split at h
    · rename_i htoken
      split at h
      · rename_i hsecret
        rw [if_pos (by rw [htoken]; rfl), hsecret.2]
      · cases h
    · cases h

def directory (url : Text) : Text := (url.reverse.dropWhile (· ≠ '/')).reverse

/-- The cookies for a URL, each for what is in the directory of the URL it comes from. -/
def cookiesFor (replies : List UpstreamReply) (url : Text) : List String :=
  (replies.filter fun r => r.setsCookies ∧ directory r.url <+: url).filterMap fun r =>
    header "Set-Cookie" r.headers

/-- httpx between URLs of one host, with cookies that have a name and a value only. -/
def hostHttpx : Httpx where
  redirectRequest request r :=
    let method :=
      if r.statusCode ∈ [302, 303] ∨ r.statusCode = 301 ∧ request.method = .post then .get
      else request.method
    (header "Location" r.headers).map fun location =>
      { method := method
        url := location.toList
        headers := Dict.ofPairs
          (request.headers.entries.filter fun h => lower h.1 ≠ "cookie")
        content := if method = request.method then request.content else []
        params := "" }
  cookieHeader replies _ url :=
    match cookiesFor replies url with
    | [] => none
    | cookies => some ("; ".intercalate cookies)
  cookieHeader_eq_none := fun {replies} _ url h => by
    have hnone : cookiesFor replies url = [] := by
      rw [cookiesFor, List.filter_eq_nil_iff.mpr fun r hr => by simp [h r hr]]
      rfl
    rw [hnone]

def config : Config where
  settings := defaultSettings
  internalAuthToken := "internal"
  jwtSecret := "test-secret"
  jwtAlgorithm := "HS256"
  requestsPerMinute := 1
  jose := tokenJose
  unicode := plainUnicode
  httpx := hostHttpx

/-- A request that executes a workflow, with one idempotency key for all. -/
def execute (arrivedAt : Nat) (token : Option String) : Client where
  arrivedAt := arrivedAt
  request := {
    method := .post
    path := "workflows/7/execute".toList
    headers := ("Idempotency-Key", "unique-op-abc123") ::
      token.toList.map fun t => ("authorization", "Bearer " ++ t)
    queryParams := "" }
  body := []

theorem bearer_token {token : String} (h : token ≠ "") :
    bearer (some ("Bearer " ++ token)) = some token := by
  have hlist : ("Bearer " ++ token).toList = "Bearer".toList ++ ' ' :: token.toList := by
    rw [String.toList_append]
    rfl
  have hword : ∀ c ∈ "Bearer".toList, decide (c ≠ ' ') = true := by simp
  have hscheme : ("Bearer " ++ token).toList.takeWhile (· ≠ ' ') = "Bearer".toList := by
    rw [hlist, List.takeWhile_append_of_pos hword]
    simp
  have hcredentials : ("Bearer " ++ token).toList.dropWhile (· ≠ ' ') = ' ' :: token.toList := by
    rw [hlist, List.dropWhile_append_of_pos hword]
    simp
  have hlower : lower "Bearer" = "bearer" := by decide +kernel
  simp only [bearer, hscheme, hcredentials, List.drop_one, List.tail_cons, String.ofList_toList]
  rw [if_neg (by simp [h]), if_neg (by simp [hlower])]

/-- The tenant of a request with a known token, until the token expires. -/
theorem tenantOf_execute {arrivedAt : Nat} {token : String} {tenantId : Uuid}
    (htoken : tokens.lookup token = some tenantId) (hne : token ≠ "")
    (hnow : arrivedAt ≤ 4102444800) :
    config.tenantOf (execute arrivedAt (some token)) = .ok tenantId := by
  have hheader : header "Authorization" (execute arrivedAt (some token)).request.headers =
      some ("Bearer " ++ token) := by
    have hkey : lower "Idempotency-Key" ≠ lower "Authorization" := by decide +kernel
    have hname : lower "authorization" = lower "Authorization" := by decide +kernel
    simp [header, execute, hkey, hname]
  have hdecode : tokenJose.decode arrivedAt token "test-secret" "HS256" =
      .ok (tokenClaims tenantId) := by
    have htime : (arrivedAt : Int) ≤ 4102444800 := by exact_mod_cast hnow
    simp [tokenJose, htoken, htime]
  unfold Config.tenantOf
  rw [hheader]
  exact getTenantId_of_str _ _ _ _ _ (bearer_token hne) hdecode rfl rfl

/-- The first client executes the workflow again and again, the second once. -/
def bothExecute (c : Nat) : Client :=
  execute (120 + min c 2) (some (if c = 1 then secondToken else firstToken))

def bothTenants (c : Nat) : Uuid := if c = 1 then .repdigit 15 else .repdigit 1

theorem tenantOf_bothExecute (c : Nat) : config.tenantOf (bothExecute c) = .ok (bothTenants c) := by
  have hnow : 120 + min c 2 ≤ 4102444800 := by omega
  unfold bothExecute bothTenants
  split
  · exact tenantOf_execute (by decide +kernel) (by decide +kernel) hnow
  · exact tenantOf_execute (by decide +kernel) (by decide +kernel) hnow

theorem step_bothExecute :
    step config bothExecute = stepWith config bothExecute fun c => .ok (bothTenants c) := by
  unfold step
  simp only [tenantOf_bothExecute]

/-- The operations of a request that is let through and answered. -/
def served (c : Nat) (answer : List Action) : List Action :=
  [.op c (.checkRateLimit false), .op c (.checkIdempotency false), .op c .forward] ++ answer

/-- The second client's request fails downstream with a cookie; the first one's is
redirected to the same URL with a slash behind it. -/
def bothServed : List Action :=
  [.wait 120, .arrive 0, .wait 1, .arrive 1] ++
    served 1 [.op 1 (.respond 503 [("Set-Cookie", "session=2")])] ++
    served 0 [.op 0 (.respond 307
        [("Location", "http://workflow-service:8001/v1/workflows/7/execute/")]),
      .op 0 .forward, .op 0 (.respond 202 [])] ++
    [.op 1 (.deleteKey false), .wait 1, .arrive 2, .op 2 (.checkRateLimit false)]

end Sutram.Gateway.System
