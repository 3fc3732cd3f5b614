/-
One call of the gateway's route.

A call awaits the rate limiter, the store of idempotency keys, the client's body and the
downstream service, and each of them may raise.  The key is deleted in one place, after
a response with a server error has come back.
-/
import Sutram.Gateway.Headers
import Sutram.Gateway.Idempotency
import Sutram.Library.Exceptional

namespace Sutram.Gateway.Proxy

open Exceptional Idempotency Runs Sutram.Core

/-! ## What a call awaits -/

/-- The clock and the keys, which other requests share. -/
structure World where
  now : Nat
  store : Store

inductive Exn (ε : Type) where
  | httpException (statusCode : Nat)
  | rateLimitExceeded
  | other (e : ε)
deriving DecidableEq, Repr

abbrev Coroutine (ε α : Type) := Exceptional World (Exn ε) α

abbrev Bytes := List UInt8

structure Request where
  method : Method
  path : Text
  headers : Headers
  queryParams : String

structure UpstreamRequest where
  method : Method
  url : Text
  headers : Dict String String
  content : Bytes
  params : String
deriving DecidableEq

/-- The headers are their `items()`, one for each name. -/
structure UpstreamResponse where
  statusCode : Nat
  headers : Headers
  content : Bytes

inductive Content where
  | bytes (content : Bytes)
  /-- The events of a downstream stream, read while they are sent on. -/
  | stream (url : Text) (headers : Dict String String) (params : String)

structure Response where
  content : Content
  statusCode : Nat
  headers : Headers
  mediaType : Option String

structure Environment (ε : Type) where
  rateLimiterCheck : Uuid → Coroutine ε Unit
  setReply : Reply ε
  deleteReply : Reply ε
  body : Coroutine ε Bytes
  buildRequest : UpstreamRequest → Except (Exn ε) UpstreamRequest
  send : UpstreamRequest → Coroutine ε UpstreamResponse
  buildResponse : Response → Except (Exn ε) Response

variable {ε : Type}

/-- A Redis command with the value of its reply. -/
def redis {α : Type} (reply : Reply ε) (command : World → α × Store) : Coroutine ε α :=
  remote (reply.map .other) fun w => ((command w).1, { w with store := (command w).2 })

/-! ## The route -/

variable (env : Environment ε) (settings : APIGatewaySettings) (internalAuthToken : String)

def checkRateLimit (tenantId : Uuid) : Coroutine ε Unit :=
  tryCatch (env.rateLimiterCheck tenantId) fun
    | .rateLimitExceeded => throw (.httpException 429)
    | e => throw e

/-- Raise 409 if this key has been seen before for this tenant. -/
def checkIdempotency (tenantId : Uuid) : Option String → Coroutine ε Unit
  | none => pure ()
  | some idempotencyKey => do
    let isDuplicate ← redis env.setReply fun w =>
      IdempotencyStore.checkAndStore w.store w.now (scopedKey tenantId idempotencyKey)
    if isDuplicate then throw (.httpException 409)

/-- Read the full request body, send to downstream, return the full response. -/
def proxyBuffered (request : Request) (targetUrl : Text) (forwardHeaders : Dict String String) :
    Coroutine ε Response := do
  let body ← env.body
  let upstreamRequest ← MonadExcept.ofExcept (env.buildRequest
    ⟨request.method, targetUrl, forwardHeaders, body, request.queryParams⟩)
  let response ← env.send upstreamRequest
  let responseHeaders := response.headers.filter fun h => lower h.1 ∉ hopByHop
  MonadExcept.ofExcept (env.buildResponse
    ⟨.bytes response.content, response.statusCode, responseHeaders,
      header "content-type" response.headers⟩)

/-- The upstream is called after the response has begun. -/
def proxySse (targetUrl : Text) (forwardHeaders : Dict String String) (queryParams : String) :
    Response where
  content := .stream targetUrl forwardHeaders queryParams
  statusCode := 200
  headers := [("Cache-Control", "no-cache"), ("X-Accel-Buffering", "no")]
  mediaType := some "text/event-stream"

def isSse (request : Request) : Bool :=
  "/stream".toList.isSuffixOf (fullPath request.path) && request.method = .get

/-- On 5xx, delete the idempotency key so the client can retry. -/
def deleteOnError (tenantId : Uuid) (applies : Bool) (idempotencyKey : Option String)
    (response : Response) : Coroutine ε Unit :=
  match idempotencyKey with
  | some key =>
    if applies ∧ 500 ≤ response.statusCode then
      redis env.deleteReply fun w => ((), IdempotencyStore.delete w.store (scopedKey tenantId key))
    else pure ()
  | none => pure ()

def proxy (request : Request) (tenantId : Uuid) (idempotencyKey : Option String) :
    Coroutine ε Response := do
  checkRateLimit env tenantId
  let applies := idempotencyApplies request.method request.path
  if applies then checkIdempotency env tenantId idempotencyKey
  let targetUrl := downstreamUrl (fullPath request.path) settings
  let forwardHeaders := buildForwardHeaders request.headers tenantId internalAuthToken
  if isSse request then
    return proxySse targetUrl forwardHeaders request.queryParams
  let response ← proxyBuffered env request targetUrl forwardHeaders
  deleteOnError env tenantId applies idempotencyKey response
  return response

/-! ## How a call ends -/

/-- The status of the response that an exception becomes. -/
def Exn.statusCode : Exn ε → Nat
  | httpException statusCode => statusCode
  | _ => 500

/-- The status the client is answered with. -/
def answer : Except (Exn ε) Response → Nat
  | .ok response => response.statusCode
  | .error e => e.statusCode

/-- A request with the key is a duplicate now. -/
def Stored (key : String) (w : World) : Prop :=
  (IdempotencyStore.checkAndStore w.store w.now key).1

instance (key : String) (w : World) : Decidable (Stored key w) :=
  inferInstanceAs (Decidable (_ = true))

/-- The world after the SET of the key. -/
def World.keyed (w : World) (key : String) : World :=
  { w with store := (IdempotencyStore.checkAndStore w.store w.now key).2 }

/-- The world after the DEL of the key. -/
def World.unkeyed (w : World) (key : String) : World :=
  { w with store := IdempotencyStore.delete w.store key }

theorem not_stored_unkeyed (key : String) (w : World) : ¬Stored key (w.unkeyed key) := by
  simp [Stored, World.unkeyed, IdempotencyStore.checkAndStore, IdempotencyStore.delete,
    Expiring.get]

/-- The forwarding of a request that has passed the checks. -/
def forward (request : Request) (tenantId : Uuid) : Coroutine ε Response :=
  proxyBuffered env request (downstreamUrl (fullPath request.path) settings)
    (buildForwardHeaders request.headers tenantId internalAuthToken)

/-- The end of a call from the end of its forwarding. -/
def ended (key : String) : Except (Exn ε) Response × World → Except (Exn ε) Response × World
  | (.error e, w) => (.error e, w)
  | (.ok response, w) =>
    if 500 ≤ response.statusCode then
      (match env.deleteReply with
        | .arrives => .ok response
        | .raises _ e => .error (.other e),
        if env.deleteReply.performed then w.unkeyed key else w)
    else (.ok response, w)

variable {env settings internalAuthToken} {request : Request} {tenantId : Uuid} {key : String}
  {w w₁ : World}

theorem outcome_redis {α : Type} (reply : Reply ε) (command : World → α × Store) :
    outcome (redis reply command) w =
      (match reply with
        | .arrives => .ok (command w).1
        | .raises _ e => .error (.other e),
        if reply.performed then { w with store := (command w).2 } else w) := by
  rw [redis, outcome_remote, Reply.performed_map]
  cases reply <;> rfl

theorem outcome_checkRateLimit (h : outcome (env.rateLimiterCheck tenantId) w = (.ok (), w₁)) :
    outcome (checkRateLimit env tenantId) w = (.ok (), w₁) := by
  simp only [outcome, ExceptT.run, StateT.run] at h
  simp only [outcome, checkRateLimit, tryCatch, tryCatchThe, MonadExceptOf.tryCatch,
    ExceptT.tryCatch, ExceptT.run, ExceptT.mk, StateT.run, bind, StateT.bind]
  rw [h]
  rfl

/-- The check of a key that is not there passes and stores it. -/
theorem outcome_checkIdempotency (hset : env.setReply = .arrives)
    (hnew : ¬Stored (scopedKey tenantId key) w) :
    outcome (checkIdempotency env tenantId (some key)) w =
      (.ok (), w.keyed (scopedKey tenantId key)) := by
  have hredis := outcome_redis (w := w) env.setReply fun w =>
    IdempotencyStore.checkAndStore w.store w.now (scopedKey tenantId key)
  rw [hset] at hredis
  have hfirst : (IdempotencyStore.checkAndStore w.store w.now (scopedKey tenantId key)).1 = false :=
    eq_false_of_ne_true hnew
  unfold checkIdempotency
  rw [hset, outcome_bind_ok hredis, hfirst]
  rfl

/-- Only a server error that has come back leads to the DEL. -/
theorem outcome_finish (response : Response) :
    outcome (do
        deleteOnError env tenantId true (some key) response
        return response) w =
      ended env (scopedKey tenantId key) (.ok response, w) := by
  unfold deleteOnError ended
  by_cases herror : 500 ≤ response.statusCode
  · simp only [herror, and_self, if_true]
    have hredis := outcome_redis (w := w) env.deleteReply fun w =>
      ((), IdempotencyStore.delete w.store (scopedKey tenantId key))
    cases hreply : env.deleteReply with
    | arrives =>
      rw [hreply] at hredis
      rw [outcome_bind_ok hredis]
      rfl
    | raises performed e =>
      rw [hreply] at hredis
      rw [outcome_bind_error hredis]
      rfl
  · simp only [herror, and_false, if_false]
    rfl

/-- A guarded call that has passed its checks ends as its forwarding and the DEL make it. -/
theorem outcome_proxy (happlies : idempotencyApplies request.method request.path)
    (hrate : outcome (env.rateLimiterCheck tenantId) w = (.ok (), w₁))
    (hset : env.setReply = .arrives) (hnew : ¬Stored (scopedKey tenantId key) w₁) :
    outcome (proxy env settings internalAuthToken request tenantId (some key)) w =
      ended env (scopedKey tenantId key)
        (outcome (forward env settings internalAuthToken request tenantId)
          (w₁.keyed (scopedKey tenantId key))) := by
  have hsse : isSse request = false := by
    have hpost : request.method = .post := by
      simp only [idempotencyApplies, Bool.and_eq_true, decide_eq_true_eq] at happlies
      exact happlies.1
    simp [isSse, hpost]
  unfold proxy
  rw [outcome_bind_ok (outcome_checkRateLimit hrate)]
  simp only [happlies, if_true, hsse]
  rw [outcome_bind_ok (outcome_checkIdempotency hset hnew)]
  obtain ⟨r, w₂, hforward⟩ : ∃ r w₂,
      outcome (forward env settings internalAuthToken request tenantId)
        (w₁.keyed (scopedKey tenantId key)) = (r, w₂) := ⟨_, _, rfl⟩
  rw [hforward]
  cases r with
  | ok response => exact (outcome_bind_ok hforward).trans (outcome_finish response)
  | error e => exact outcome_bind_error hforward

/-! ## Among other calls -/

/-- The operations that are left to a call whose forwarding has ended. -/
def exit (env : Environment ε) (c : Nat) : Except (Exn ε) Response → List Action
  | .error _ => [.fail c false]
  | .ok response =>
    .respond c response.statusCode ::
      if 500 ≤ response.statusCode then
        match env.deleteReply with
        | .arrives => [.deleteKey c]
        | .raises performed _ => [.fail c performed]
      else []

def phaseOf : Except (Exn ε) Response → Phase
  | .ok response => .done (.upstream response.statusCode)
  | .error _ => .done .serverError

/-- One of many calls ends as a call by itself does. -/
theorem run_exit {calls : Nat → Call} {c : Nat} (hkey : (calls c).scopedKey = some key)
    {s : State} (hphase : s.phases c = .forward) (r : Except (Exn ε) Response) :
    ∃ s', run (step calls) s (exit env c r) = some s' ∧
      s'.phases c = phaseOf (ended env key (r, ⟨s.now, s.store⟩)).1 ∧
      (⟨s'.now, s'.store⟩ : World) = (ended env key (r, ⟨s.now, s.store⟩)).2 := by
  cases r with
  | error e =>
    refine ⟨s.goto c (.done .serverError), ?_, by simp [ended, phaseOf], rfl⟩
    simp [exit, run, step, hphase, State.goto]
  | ok response =>
    by_cases herror : 500 ≤ response.statusCode
    · have hrespond : step calls s (.respond c response.statusCode) =
          some (s.goto c (.deleteKey response.statusCode)) := by
        simp [step, hphase, respond, hkey, herror]
      simp only [exit, if_pos herror, run_cons_some hrespond, ended]
      cases env.deleteReply with
      | arrives =>
        refine ⟨_, by simp [run, step]; rfl, ?_, ?_⟩
        · simp [phaseOf]
        · simp [command, hkey, Reply.performed, World.unkeyed, State.goto]
      | raises performed e =>
        refine ⟨_, by simp [run, step]; rfl, ?_, ?_⟩
        · simp [phaseOf]
        · cases performed <;>
            simp [command, hkey, Reply.performed, World.unkeyed, State.goto]
    · refine ⟨s.goto c (.done (.upstream response.statusCode)), ?_, ?_, ?_⟩
      · simp [exit, herror, run, step, hphase, respond, hkey]
      · simp [ended, herror, phaseOf]
      · simp [ended, herror, State.goto]

/-! ## The key after an error -/

/-- The client is told of no server error, or the key has run out. -/
def Lapsed (key : String) (e : Exn ε) (w : World) : Prop :=
  500 ≤ e.statusCode → ¬Stored key w

/-- Reading the body, building the request, sending it and building the response: none of
them raises while the key is there, and the DEL after a server error is performed. -/
def Recoverable (env : Environment ε) (settings : APIGatewaySettings) (internalAuthToken : String)
    (request : Request) (tenantId : Uuid) (key : String) (w : World) : Prop :=
  match outcome env.body w with
  | (.error e, w) => Lapsed key e w
  | (.ok body, w) =>
    match env.buildRequest
      ⟨request.method, downstreamUrl (fullPath request.path) settings,
        buildForwardHeaders request.headers tenantId internalAuthToken, body,
        request.queryParams⟩ with
    | .error e => Lapsed key e w
    | .ok upstreamRequest =>
      match outcome (env.send upstreamRequest) w with
      | (.error e, w) => Lapsed key e w
      | (.ok response, w) =>
        match env.buildResponse
          ⟨.bytes response.content, response.statusCode,
            response.headers.filter fun h => lower h.1 ∉ hopByHop,
            header "content-type" response.headers⟩ with
        | .error e => Lapsed key e w
        | .ok response => 500 ≤ response.statusCode →
          env.deleteReply.performed ∨ ¬Stored key w

/-- What the condition says of the forwarding as a whole. -/
def RecoverableAfter (env : Environment ε) (key : String) :
    Except (Exn ε) Response × World → Prop
  | (.error e, w) => Lapsed key e w
  | (.ok response, w) => 500 ≤ response.statusCode →
    env.deleteReply.performed ∨ ¬Stored key w

theorem recoverable_iff :
    Recoverable env settings internalAuthToken request tenantId key w ↔
      RecoverableAfter env key
        (outcome (forward env settings internalAuthToken request tenantId) w) := by
  unfold Recoverable forward proxyBuffered
  obtain ⟨body, w₁, hbody⟩ : ∃ r w', outcome env.body w = (r, w') := ⟨_, _, rfl⟩
  rw [hbody]
  cases body with
  | error e =>
    rw [outcome_bind_error hbody]
    rfl
  | ok body =>
    rw [outcome_bind_ok hbody]
    dsimp only
    cases hbuild : env.buildRequest
        ⟨request.method, downstreamUrl (fullPath request.path) settings,
          buildForwardHeaders request.headers tenantId internalAuthToken, body,
          request.queryParams⟩ with
    | error e => rfl
    | ok upstreamRequest =>
      rw [outcome_bind_ok (outcome_ofExcept (.ok upstreamRequest) w₁)]
      obtain ⟨sent, w₂, hsend⟩ : ∃ r w', outcome (env.send upstreamRequest) w₁ = (r, w') :=
        ⟨_, _, rfl⟩
      dsimp only
      rw [hsend]
      cases sent with
      | error e =>
        rw [outcome_bind_error hsend]
        rfl
      | ok response =>
        rw [outcome_bind_ok hsend, outcome_ofExcept]
        dsimp only
        cases env.buildResponse _ <;> rfl

/-- The client learns of a server error whether or not the DEL raises. -/
theorem answer_ended {response : Response} (herror : 500 ≤ response.statusCode) :
    500 ≤ answer (ended env key (.ok response, w)).1 := by
  simp only [ended, if_pos herror]
  cases env.deleteReply with
  | arrives => exact herror
  | raises performed e => exact le_rfl

theorem stored_ended {response : Response} (herror : 500 ≤ response.statusCode) :
    ¬Stored key (ended env key (.ok response, w)).2 ↔
      env.deleteReply.performed ∨ ¬Stored key w := by
  simp only [ended, if_pos herror]
  cases hperformed : env.deleteReply.performed with
  | true => simpa using not_stored_unkeyed key w
  | false => simp

/-- After every server error of a guarded call its key is gone, so that a retry is
forwarded, exactly when no exception has ended the forwarding before the key ran out and
the key's DEL has been performed. -/
theorem released_iff (env : Environment ε) (settings : APIGatewaySettings)
    (internalAuthToken : String) (request : Request) (tenantId : Uuid) (key : String)
    (w w₁ : World) (happlies : idempotencyApplies request.method request.path)
    (hrate : outcome (env.rateLimiterCheck tenantId) w = (.ok (), w₁))
    (hset : env.setReply = .arrives) (hnew : ¬Stored (scopedKey tenantId key) w₁) :
    (500 ≤ answer
        (outcome (proxy env settings internalAuthToken request tenantId (some key)) w).1 →
      ¬Stored (scopedKey tenantId key)
        (outcome (proxy env settings internalAuthToken request tenantId (some key)) w).2) ↔
      Recoverable env settings internalAuthToken request tenantId (scopedKey tenantId key)
        (w₁.keyed (scopedKey tenantId key)) := by
  rw [outcome_proxy happlies hrate hset hnew, recoverable_iff]
  obtain ⟨r, w₂⟩ := outcome (forward env settings internalAuthToken request tenantId)
    (w₁.keyed (scopedKey tenantId key))
  cases r with
  | error e => exact Iff.rfl
  | ok response =>
    by_cases herror : 500 ≤ response.statusCode
    · rw [stored_ended herror]
      simp [RecoverableAfter, answer_ended herror, herror]
    · simp [RecoverableAfter, ended, herror, answer]

/-! ## Two calls -/

/-- A downstream service that answers every request in the same way, after a second. -/
def downstream (reply : Except String Nat) : Environment String where
  rateLimiterCheck _ := pure ()
  setReply := .arrives
  deleteReply := .arrives
  body := pure []
  buildRequest := .ok
  send _ := do
    modify fun w => { w with now := w.now + 1 }
    match reply with
    | .ok statusCode => pure ⟨statusCode, [], []⟩
    | .error e => throw (.other e)
  buildResponse := .ok

def executeRequest : Request where
  method := .post
  path := "workflows/7/execute".toList
  headers := []
  queryParams := ""

/-- A call with the key, from the world it finds. -/
def execute (reply : Except String Nat) (w : World) : Except (Exn String) Response × World :=
  outcome (proxy (downstream reply) defaultSettings "" executeRequest Uuid.nil (some "op")) w

theorem released_of_unavailable :
    500 ≤ answer (execute (.ok 503) ⟨0, fun _ => none⟩).1 ∧
      ¬Stored (scopedKey Uuid.nil "op") (execute (.ok 503) ⟨0, fun _ => none⟩).2 := by
  have happlies : idempotencyApplies executeRequest.method executeRequest.path := by
    decide +kernel
  have hnew : ¬Stored (scopedKey Uuid.nil "op") ⟨0, fun _ => none⟩ := by decide +kernel
  have herror : 500 ≤ answer (execute (.ok 503) ⟨0, fun _ => none⟩).1 := by decide +kernel
  refine ⟨herror, ?_⟩
  refine (released_iff (downstream (.ok 503)) defaultSettings "" executeRequest Uuid.nil "op"
    ⟨0, fun _ => none⟩ ⟨0, fun _ => none⟩ happlies rfl rfl hnew).mpr ?_ herror
  exact fun _ => .inl rfl

/-- The downstream service does not answer in time, and the retry is a duplicate. -/
theorem timeout_keeps_key :
    let first := execute (.error "ReadTimeout") ⟨0, fun _ => none⟩
    idempotencyApplies executeRequest.method executeRequest.path ∧
      ¬Stored (scopedKey Uuid.nil "op") ⟨0, fun _ => none⟩ ∧
      answer first.1 = 500 ∧ Stored (scopedKey Uuid.nil "op") first.2 ∧
      answer (execute (.ok 202) { first.2 with now := first.2.now + 86000 }).1 = 409 := by
  decide +kernel

end Sutram.Gateway.Proxy
