/-
Webhook deliveries.

A subscription's URL is validated when it is registered.  The task `webhook.deliver`
reads delivery and subscription, POSTs to the URL it has read and records the outcome; it
does not validate the URL again.  So a POST goes to a URL that the validator would
refuse at that time exactly when the resolver's answer has become a bad one.

Attempts may overlap, repeat, and stop between their read, their POST and their commit.
-/
import Sutram.Library.Runs
import Sutram.Workflow.Routes

namespace Sutram.Workflow

open Sutram.Core Runs

/-! ## The task -/

/-- `RETRY_DELAYS`: seconds between attempts. -/
def retryDelays : List Nat := [1, 5, 30, 300, 1800]

/-- How `WebhookDispatcher.deliver` ends. -/
inductive PostOutcome where
  | response (statusCode : Nat) (body : String)
  /-- `httpx.RequestError`, which the task records as status 0. -/
  | requestError (message : String)
  | raised
deriving DecidableEq, Repr

/-- What the first half of `_deliver` comes to. -/
inductive Begun where
  | nothing
  /-- The subscription is gone or inactive. -/
  | failed (delivery : WebhookDeliveryORM)
  /-- The secret cannot be decrypted. -/
  | raised
  | post (delivery : WebhookDeliveryORM) (subscription : WebhookSubscriptionORM) (secret : String)

/-- `_deliver` up to the call of the dispatcher. -/
def beginDelivery (svc : Service) (security : RowSecurity) (db : Database)
    (deliveryId tenantId : Uuid) : Begun :=
  match db.webhookDeliveries.find? fun d =>
      d.id = deliveryId && security.sees (some tenantId) d.tenantId with
  | none => .nothing
  | some delivery =>
    if delivery.status = .delivered ∨ delivery.status = .deadLettered then .nothing
    else
      match db.webhookSubscriptions.find? fun sub =>
          sub.id = delivery.subscriptionId && security.sees (some tenantId) sub.tenantId with
      | none => .failed delivery
      | some sub =>
        if sub.active = false then .failed delivery
        else
          match svc.decryptSecret sub.secretEncrypted with
          | none => .raised
          | some secret => .post delivery sub secret

/-- The status an attempt leaves and the countdown of its retry. -/
def settle (attempt statusCode : Nat) : DeliveryStatus × Option Nat :=
  if 200 ≤ statusCode ∧ statusCode < 300 then (.delivered, none)
  else if retryDelays.length - 1 ≤ attempt then (.deadLettered, none)
  else (.pending, retryDelays[attempt]?)

/-- What an attempt makes of the delivery it has loaded. -/
def recordAttempt (delivery : WebhookDeliveryORM) (now attempt statusCode : Nat)
    (responseBody : String) : WebhookDeliveryORM :=
  let settled := settle attempt statusCode
  { delivery with
    attemptCount := delivery.attemptCount + 1
    lastAttemptAt := some now
    responseCode := some statusCode
    responseBody := some (String.ofList (responseBody.toList.take 1000))
    status := settled.1
    nextRetryAt := (settled.2.map (now + ·)).or delivery.nextRetryAt }

def markFailed (delivery : WebhookDeliveryORM) : WebhookDeliveryORM :=
  { delivery with status := .failed }

namespace WebhookDeliveryORM

/-- The UPDATE of a flush, on the version of the row it finds. -/
def patch (loaded current row : WebhookDeliveryORM) : WebhookDeliveryORM :=
  { row with
    status := patchColumn loaded.status current.status row.status
    attemptCount := patchColumn loaded.attemptCount current.attemptCount row.attemptCount
    lastAttemptAt := patchColumn loaded.lastAttemptAt current.lastAttemptAt row.lastAttemptAt
    nextRetryAt := patchColumn loaded.nextRetryAt current.nextRetryAt row.nextRetryAt
    responseCode := patchColumn loaded.responseCode current.responseCode row.responseCode
    responseBody := patchColumn loaded.responseBody current.responseBody row.responseBody }

theorem patch_id (loaded current row : WebhookDeliveryORM) :
    (loaded.patch current row).id = row.id := rfl

/-- On the version it was loaded from, the UPDATE gives the object's values. -/
@[simp] theorem patch_recordAttempt (loaded : WebhookDeliveryORM) (now attempt statusCode : Nat)
    (responseBody : String) :
    loaded.patch (recordAttempt loaded now attempt statusCode responseBody) loaded =
      recordAttempt loaded now attempt statusCode responseBody := by
  simp [patch, recordAttempt]

@[simp] theorem patch_markFailed (loaded : WebhookDeliveryORM) :
    loaded.patch (markFailed loaded) loaded = markFailed loaded := by
  simp [patch, markFailed]

end WebhookDeliveryORM

/-- The UPDATE of the session that has loaded the delivery. -/
def updateDelivery (loaded current : WebhookDeliveryORM) (db : Database) : Database :=
  { db with webhookDeliveries :=
      db.webhookDeliveries.modify loaded.id (loaded.patch current) (loaded.patch_id current) }

/-! ## The service over time -/

/-- A POST that has been issued. -/
structure Post where
  time : Nat
  url : String
  secret : String
  eventType : String
  payload : List (String × Json)
deriving DecidableEq

/-- An attempt between its read and its commit, with what it has read. -/
structure Flight where
  delivery : WebhookDeliveryORM
  subscription : WebhookSubscriptionORM
  secret : String
  attempt : Nat
  posted : Bool := false

structure WebhookWorld where
  db : Database := {}
  now : Nat := 0
  flights : Nat → Option Flight := fun _ => none
  posts : List Post := []

inductive WebhookAction where
  /-- Any request to the routes. -/
  | request (tenantId : Uuid) (draws : Draws) (r : RouteRequest)
  /-- A delivery row is added. -/
  | enqueue (delivery : WebhookDeliveryORM)
  /-- Attempt `i` reads what it is going to POST. -/
  | attempt (i : Nat) (deliveryId tenantId : Uuid) (attempt : Nat)
  | post (i : Nat)
  | finish (i : Nat) (outcome : PostOutcome)
  /-- The worker dies, or an exception ends the attempt before its POST. -/
  | crash (i : Nat)
  | tick

section Service

variable (svc : Service) (security : RowSecurity)

def startAttempt (w : WebhookWorld) (i : Nat) (deliveryId tenantId : Uuid) (attempt : Nat) :
    Option WebhookWorld :=
  if (w.flights i).isSome then none
  else
    match beginDelivery svc security w.db deliveryId tenantId with
    | .nothing | .raised => some w
    | .failed delivery =>
      some { w with db := updateDelivery delivery (markFailed delivery) w.db }
    | .post delivery sub secret =>
      let flight : Flight := { delivery, subscription := sub, secret, attempt }
      some { w with flights := Function.update w.flights i (some flight) }

/-- What the attempt posts. -/
def Flight.toPost (flight : Flight) (now : Nat) : Post :=
  ⟨now, flight.subscription.url, flight.secret, flight.delivery.eventType, flight.delivery.payload⟩

def postAttempt (w : WebhookWorld) (i : Nat) : Option WebhookWorld :=
  match w.flights i with
  | none => none
  | some flight =>
    if flight.posted then none
    else
      some { w with
        flights := Function.update w.flights i (some { flight with posted := true })
        posts := w.posts ++ [flight.toPost w.now] }

/-- The attempt's commit. -/
def recordOutcome (w : WebhookWorld) (i : Nat) (flight : Flight) (statusCode : Nat)
    (responseBody : String) : WebhookWorld :=
  let recorded := recordAttempt flight.delivery w.now flight.attempt statusCode responseBody
  { w with
    flights := Function.update w.flights i none
    db := updateDelivery flight.delivery recorded w.db }

def finishAttempt (w : WebhookWorld) (i : Nat) (outcome : PostOutcome) : Option WebhookWorld :=
  match w.flights i with
  | none => none
  | some flight =>
    if flight.posted then
      match outcome with
      | .response statusCode responseBody => some (recordOutcome w i flight statusCode responseBody)
      | .requestError message => some (recordOutcome w i flight 0 message)
      | .raised => some { w with flights := Function.update w.flights i none }
    else none

def webhookStep (w : WebhookWorld) : WebhookAction → Option WebhookWorld
  | .request tenantId draws r =>
    some { w with db := (respond svc w.now tenantId draws w.db r).1 }
  | .enqueue delivery =>
    if (w.db.webhookSubscriptions.find? fun sub => sub.id = delivery.subscriptionId).isSome then
      (w.db.webhookDeliveries.insert delivery).map fun webhookDeliveries =>
        { w with db := { w.db with webhookDeliveries } }
    else none
  | .attempt i deliveryId tenantId attempt =>
    startAttempt svc security w i deliveryId tenantId attempt
  | .post i => postAttempt w i
  | .finish i outcome => finishAttempt w i outcome
  | .crash i =>
    if (w.flights i).isSome then some { w with flights := Function.update w.flights i none }
    else none
  | .tick => some { w with now := w.now + 1 }

end Service

/-- The POST that an action issues, with the id of its delivery. -/
def posting (w : WebhookWorld) : WebhookAction → Option (Uuid × Post)
  | .post i => (w.flights i).bind fun flight =>
    if flight.posted then none else some (flight.delivery.id, flight.toPost w.now)
  | _ => none

/-! ## What a step can do -/

/-- The steps of the service, by what they make of the world. -/
inductive Hooked (svc : Service) (security : RowSecurity) (w : WebhookWorld) :
    WebhookAction → WebhookWorld → Prop
  | request (tenantId : Uuid) (draws : Draws) (r : RouteRequest) :
      Hooked svc security w (.request tenantId draws r)
        { w with db := (respond svc w.now tenantId draws w.db r).1 }
  | enqueue {delivery : WebhookDeliveryORM}
      {webhookDeliveries : Table WebhookDeliveryORM.id}
      (hinsert : w.db.webhookDeliveries.insert delivery = some webhookDeliveries) :
      Hooked svc security w (.enqueue delivery) { w with db := { w.db with webhookDeliveries } }
  | nothing (i : Nat) (deliveryId tenantId : Uuid) (attempt : Nat) :
      Hooked svc security w (.attempt i deliveryId tenantId attempt) w
  | failed (i : Nat) (deliveryId tenantId : Uuid) (attempt : Nat) (delivery : WebhookDeliveryORM) :
      Hooked svc security w (.attempt i deliveryId tenantId attempt)
        { w with db := updateDelivery delivery (markFailed delivery) w.db }
  | read {i : Nat} {deliveryId tenantId : Uuid} {attempt : Nat} {flight : Flight}
      (hbegun : beginDelivery svc security w.db deliveryId tenantId =
        .post flight.delivery flight.subscription flight.secret) :
      Hooked svc security w (.attempt i deliveryId tenantId attempt)
        { w with flights := Function.update w.flights i (some flight) }
  | post {i : Nat} {flight : Flight} (hflight : w.flights i = some flight)
      (hposted : flight.posted = false) :
      Hooked svc security w (.post i) { w with
        flights := Function.update w.flights i (some { flight with posted := true })
        posts := w.posts ++ [flight.toPost w.now] }
  | recorded (i : Nat) (outcome : PostOutcome) (flight : Flight) (statusCode : Nat)
      (responseBody : String) :
      Hooked svc security w (.finish i outcome) (recordOutcome w i flight statusCode responseBody)
  | raised (i : Nat) (outcome : PostOutcome) :
      Hooked svc security w (.finish i outcome)
        { w with flights := Function.update w.flights i none }
  | crash (i : Nat) :
      Hooked svc security w (.crash i) { w with flights := Function.update w.flights i none }
  | tick : Hooked svc security w .tick { w with now := w.now + 1 }

theorem webhookStep_hooked {svc : Service} {security : RowSecurity} {w w' : WebhookWorld}
    {a : WebhookAction} (h : webhookStep svc security w a = some w') :
    Hooked svc security w a w' := by
  cases a with
  | request tenantId draws r =>
    cases h
    exact .request tenantId draws r
  | enqueue delivery =>
    simp only [webhookStep] at h
    split at h
    · obtain ⟨deliveries, hinsert, rfl⟩ := Option.map_eq_some_iff.mp h
      exact .enqueue hinsert
    · cases h
  | attempt i deliveryId tenantId attempt =>
    simp only [webhookStep, startAttempt] at h
    split at h
    · cases h
    · split at h <;> cases h
      · exact .nothing i deliveryId tenantId attempt
      · exact .nothing i deliveryId tenantId attempt
      · exact .failed i deliveryId tenantId attempt _
      · exact .read ‹_›
  | post i =>
    simp only [webhookStep, postAttempt] at h
    split at h
    · cases h
    · rename_i flight hflight
      split at h <;> cases h
      rename_i hposted
      exact .post hflight (Bool.eq_false_iff.mpr hposted)
  | finish i outcome =>
    simp only [webhookStep, finishAttempt] at h
    split at h
    · cases h
    · split at h
      · split at h <;> cases h
        · exact .recorded i _ _ _ _
        · exact .recorded i _ _ _ _
        · exact .raised i _
      · cases h
  | crash i =>
    simp only [webhookStep] at h
    split at h <;> cases h
    exact .crash i
  | tick =>
    cases h
    exact .tick

/-! ## Stored URLs -/

/-- Every stored URL has been accepted at some time, so it has a host. -/
def Registered (svc : Service) (db : Database) : Prop :=
  ∀ sub ∈ db.webhookSubscriptions.rows, ∃ hostname, HasHost svc.toUrlLibrary sub.url hostname

/-- So has every URL that an attempt has read. -/
structure Accepted (svc : Service) (w : WebhookWorld) : Prop where
  stored : Registered svc w.db
  read : ∀ i, ∀ flight ∈ w.flights i,
    ∃ hostname, HasHost svc.toUrlLibrary flight.subscription.url hostname

/-- An attempt has nothing that it had not read before, or is over. -/
theorem Accepted.update {svc : Service} {w : WebhookWorld} {i : Nat} {flight : Option Flight}
    (h : Accepted svc w) (hflight : ∀ f ∈ flight, ∃ old ∈ w.flights i,
      f.subscription = old.subscription) :
    ∀ j, ∀ f ∈ Function.update w.flights i flight j,
      ∃ hostname, HasHost svc.toUrlLibrary f.subscription.url hostname := by
  intro j f hf
  by_cases hj : j = i
  · subst hj
    rw [Function.update_self] at hf
    obtain ⟨old, hold, hsame⟩ := hflight f hf
    rw [hsame]
    exact h.read j old hold
  · rw [Function.update_of_ne hj] at hf
    exact h.read j f hf

theorem registered_createWebhook {svc : Service} {now : Nat} {body : WebhookSubscriptionCreate}
    {draws : Draws} {tenantId : Uuid} {db : Database} (hdb : Registered svc db) :
    Registered svc (createWebhook svc now body draws tenantId db).1 := by
  unfold createWebhook
  cases hvalid : validateWebhookUrl svc.toUrlLibrary now body.url with
  | error e => exact hdb
  | ok u =>
    dsimp only
    split
    · exact hdb
    · split
      · exact hdb
      · rename_i subs hinsert
        obtain ⟨hostname, hhost, -⟩ := (validateWebhookUrl_ok_iff _ _ _).mp hvalid
        intro sub hsub
        rcases (Table.mem_of_insert hinsert).mp hsub with hsub | rfl
        · exact hdb sub hsub
        · exact ⟨hostname, hhost⟩

theorem registered_deleteWebhook {svc : Service} {webhookId tenantId : Uuid} {db : Database}
    (hdb : Registered svc db) : Registered svc (deleteWebhook webhookId tenantId db).1 := by
  unfold deleteWebhook
  split
  · exact hdb
  · intro sub hsub
    obtain ⟨row, hrow, rfl⟩ := List.mem_map.mp hsub
    split
    · exact hdb row hrow
    · exact hdb row hrow

/-- No route but `create_webhook` stores a URL. -/
theorem registered_respond {svc : Service} {now : Nat} {tenantId : Uuid} {draws : Draws}
    {db : Database} (r : RouteRequest) (hdb : Registered svc db) :
    Registered svc (respond svc now tenantId draws db r).1 := by
  cases r with
  | createWebhook body => exact registered_createWebhook hdb
  | deleteWebhook webhookId => exact registered_deleteWebhook hdb
  | createWorkflow body =>
    simp only [respond, createWorkflow]
    split
    · exact hdb
    · split <;> exact hdb
  | getWorkflow workflowId =>
    simp only [respond, getWorkflow]
    split <;> exact hdb
  | execute workflowId inputs =>
    simp only [respond, execute]
    split
    · exact hdb
    · split
      · exact hdb
      · split <;> exact hdb
  | getExecution executionId =>
    simp only [respond, getExecution]
    split <;> exact hdb
  | control kind executionId =>
    simp only [respond, controlExecution]
    split
    · exact hdb
    · split <;> exact hdb
  | stream executionId =>
    simp only [respond, streamExecution]
    split <;> exact hdb
  | listWebhooks => exact hdb

/-- What an attempt that goes on to its POST has read. -/
structure HasRead (svc : Service) (security : RowSecurity) (db : Database)
    (delivery : WebhookDeliveryORM) (sub : WebhookSubscriptionORM) (secret : String) : Prop where
  delivery_mem : delivery ∈ db.webhookDeliveries.rows
  sub_mem : sub ∈ db.webhookSubscriptions.rows
  subscriptionId : sub.id = delivery.subscriptionId
  active : sub.active = true
  tenantId : security = .forced → sub.tenantId = delivery.tenantId
  secret : svc.decryptSecret sub.secretEncrypted = some secret

theorem hasRead_of_post {svc : Service} {security : RowSecurity} {db : Database}
    {deliveryId tenantId : Uuid} {delivery : WebhookDeliveryORM} {sub : WebhookSubscriptionORM}
    {secret : String}
    (h : beginDelivery svc security db deliveryId tenantId = .post delivery sub secret) :
    HasRead svc security db delivery sub secret := by
  unfold beginDelivery at h
  split at h
  · cases h
  · rename_i delivery' hdelivery
    split at h
    · cases h
    · split at h
      · cases h
      · rename_i sub' hsub
        split at h
        · cases h
        · rename_i hactive
          split at h <;> cases h
          rename_i hsecret
          have hdeliverySees := Table.of_find? hdelivery
          have hsubSees := Table.of_find? hsub
          simp only [Bool.and_eq_true, decide_eq_true_eq] at hdeliverySees hsubSees
          refine ⟨Table.mem_of_find? hdelivery, Table.mem_of_find? hsub, hsubSees.1,
            by simpa using hactive, ?_, hsecret⟩
          rintro rfl
          have h₁ : some tenantId = some delivery.tenantId := by
            simpa [RowSecurity.sees] using hdeliverySees.2
          have h₂ : some tenantId = some sub.tenantId := by
            simpa [RowSecurity.sees] using hsubSees.2
          exact Option.some.inj (h₂.symm.trans h₁)

/-! ## What is posted -/

/-- The validator accepts the URL at the time of the POST. -/
def Post.Valid (svc : Service) (p : Post) : Prop :=
  validateWebhookUrl svc.toUrlLibrary p.time p.url = .ok ()

/-- An attempt at its POST finds the hostname of the URL resolving, and to no blocked
address. -/
def ResolvesAtPost (svc : Service) (w : WebhookWorld) : WebhookAction → Prop
  | .post i => ∀ flight ∈ w.flights i, ∀ hostname,
    HasHost svc.toUrlLibrary flight.subscription.url hostname →
      ResolvesOutside svc.toUrlLibrary w.now hostname
  | _ => True

theorem hasHost_unique {lib : UrlLibrary} {url a b : String} (ha : HasHost lib url a)
    (hb : HasHost lib url b) : a = b := by
  obtain ⟨s, -, hs⟩ := ha.parsed
  obtain ⟨t, -, ht⟩ := hb.parsed
  rw [hs] at ht
  cases ht
  rfl

theorem valid_iff_resolves {svc : Service} {p : Post} {hostname : String}
    (hhost : HasHost svc.toUrlLibrary p.url hostname) :
    p.Valid svc ↔ ResolvesOutside svc.toUrlLibrary p.time hostname := by
  rw [Post.Valid, validateWebhookUrl_ok_iff]
  constructor
  · intro h
    obtain ⟨hostname', hhost', hout⟩ := h
    rwa [hasHost_unique hhost hhost']
  · intro hout
    exact ⟨hostname, hhost, hout⟩

/-- An action posts what `posting` says. -/
theorem posts_webhookStep {svc : Service} {security : RowSecurity} {w w' : WebhookWorld}
    {a : WebhookAction}
    (h : webhookStep svc security w a = some w') :
    w'.posts = w.posts ++ ((posting w a).map Prod.snd).toList := by
  cases webhookStep_hooked h with
  | post hflight hposted => simp [posting, hflight, hposted]
  | _ => exact (List.append_nil _).symm

/-- Only requests write subscriptions, and an attempt reads a stored one. -/
theorem accepted_webhookStep {svc : Service} {security : RowSecurity} {w w' : WebhookWorld}
    {a : WebhookAction} (hw : Accepted svc w) (h : webhookStep svc security w a = some w') :
    Accepted svc w' := by
  cases webhookStep_hooked h with
  | request tenantId draws r => exact ⟨registered_respond r hw.stored, hw.read⟩
  | enqueue | nothing | failed | tick => exact ⟨hw.stored, hw.read⟩
  | @read i _ _ _ flight hbegun =>
    refine ⟨hw.stored, fun j f hf => ?_⟩
    by_cases hj : j = i
    · subst hj
      simp only [Function.update_self, Option.mem_some_iff] at hf
      rw [← hf]
      exact hw.stored _ (hasRead_of_post hbegun).sub_mem
    · exact hw.read j f (by simpa [Function.update_of_ne hj] using hf)
  | @post i flight hflight =>
    refine ⟨hw.stored, hw.update ?_⟩
    rintro _ ⟨⟩
    exact ⟨flight, hflight, rfl⟩
  | recorded | raised | crash => exact ⟨hw.stored, hw.update (by simp)⟩

/-- The condition says that what an enabled action posts is valid. -/
theorem resolvesAtPost_iff {svc : Service} {security : RowSecurity} {w w' : WebhookWorld}
    {a : WebhookAction} (hw : Accepted svc w) (h : webhookStep svc security w a = some w') :
    ResolvesAtPost svc w a ↔ ∀ p ∈ posting w a, p.2.Valid svc := by
  cases webhookStep_hooked h with
  | @post i flight hflight hposted =>
    obtain ⟨hostname, hhost⟩ := hw.read i flight hflight
    simp only [ResolvesAtPost, posting, hflight, Option.bind_some, hposted, Bool.false_eq_true,
      if_false, Option.mem_some_iff, forall_eq']
    rw [valid_iff_resolves hhost]
    constructor
    · intro hresolves
      exact hresolves hostname hhost
    · intro hout hostname' hhost'
      rwa [hasHost_unique hhost' hhost]
  | _ => simp [ResolvesAtPost, posting]

/-- One step posts nothing invalid exactly when it meets the condition. -/
theorem webhookStep_posts {svc : Service} {security : RowSecurity} {w w' : WebhookWorld}
    {a : WebhookAction} (hw : Accepted svc w) (h : webhookStep svc security w a = some w') :
    (∀ p ∈ w'.posts, p.Valid svc) ↔ (∀ p ∈ w.posts, p.Valid svc) ∧ ResolvesAtPost svc w a := by
  rw [posts_webhookStep h, resolvesAtPost_iff hw h, List.forall_mem_append]
  cases posting w a <;> simp

/-- From URLs, stored or read, that were accepted at registration, and with any resolver: no
POST of a run goes to a URL that the validator would refuse at that time exactly when every
attempt at its POST finds the hostname resolving outside the blocked networks then. -/
theorem posts_valid_iff (svc : Service) (security : RowSecurity) (w w' : WebhookWorld)
    (as : List WebhookAction) (hw : Accepted svc w) (hposts : w.posts = [])
    (hrun : run (webhookStep svc security) w as = some w') :
    (∀ p ∈ w'.posts, p.Valid svc) ↔
      Along (webhookStep svc security) (fun w a _ => ResolvesAtPost svc w a) w as := by
  have hall : (∀ p ∈ w'.posts, p.Valid svc) ↔ (∀ p ∈ w.posts, p.Valid svc) ∧
      Along (webhookStep svc security) (fun w a _ => ResolvesAtPost svc w a) w as := by
    clear hposts
    induction as generalizing w with
    | nil =>
      obtain rfl : w = w' := by simpa using hrun
      simp
    | cons a as ih =>
      obtain ⟨u, hu, hrest⟩ := run_cons_eq_some hrun
      rw [ih u (accepted_webhookStep hw hu) hrest, webhookStep_posts hw hu,
        along_cons_some hu, and_assoc]
  rw [hall, hposts]
  simp

/-! ## A resolver that changes its answer -/

/-- The library on the one URL of the runs below. -/
def hookService (answer : Nat → String) : Service where
  urlparse _ := some ⟨"https", some "hooks.example"⟩
  ipAddress text :=
    if text = "203.0.113.7" then some ⟨.v4, 3405803783, by decide⟩
    else if text = "169.254.169.254" then some ⟨.v4, 2852039166, by decide⟩
    else none
  getaddrinfo _ now := some [answer now]
  repr s := "'" ++ s ++ "'"
  encryptSecret _ secret := some secret
  decryptSecret encrypted := some encrypted

def hookDelivery : WebhookDeliveryORM where
  id := .repdigit 2
  subscriptionId := .repdigit 1
  tenantId := .repdigit 7
  eventType := "execution.completed"
  payload := []

/-- A registration at time 0, and a first attempt at time 1. -/
def hookRun : List WebhookAction :=
  [.request (.repdigit 7) ⟨.repdigit 1, "secret", "nonce", true⟩
      (.createWebhook { url := "https://hooks.example/in" }),
    .enqueue hookDelivery, .tick, .attempt 0 (.repdigit 2) (.repdigit 7) 0, .post 0]

def publicAnswer (_ : Nat) : String := "203.0.113.7"

/-- The hostname moves to the metadata address after the registration. -/
def reboundAnswer (now : Nat) : String :=
  if now = 0 then "203.0.113.7" else "169.254.169.254"

theorem posted_to_metadata_address :
    ∃ w p, run (webhookStep (hookService reboundAnswer) .bypassed) {} hookRun = some w ∧
      p ∈ w.posts ∧ p.url = "https://hooks.example/in" ∧
      validateWebhookUrl (hookService reboundAnswer).toUrlLibrary p.time p.url =
        .error (.blocked "169.254.169.254") := by
  have hend : (run (webhookStep (hookService reboundAnswer) .bypassed) {} hookRun).any fun w =>
        w.posts = [⟨1, "https://hooks.example/in", "secret", "execution.completed", []⟩] := by
    decide +kernel
  obtain ⟨w, hrun, hw⟩ := exists_of_any hend
  exact ⟨w, _, hrun, by rw [hw]; exact List.mem_cons_self, rfl, by decide +kernel⟩

theorem posts_valid_iff_public :
    ∃ w, run (webhookStep (hookService publicAnswer) .bypassed) {} hookRun = some w ∧
      w.posts.length = 1 ∧
      Along (webhookStep (hookService publicAnswer) .bypassed)
        (fun w a _ => ResolvesAtPost (hookService publicAnswer) w a) {} hookRun := by
  have hend : (run (webhookStep (hookService publicAnswer) .bypassed) {} hookRun).any
      fun w => w.posts =
        [⟨1, "https://hooks.example/in", "secret", "execution.completed", []⟩] := by
    decide +kernel
  obtain ⟨w, hrun, hposts⟩ := exists_of_any hend
  have hiff := posts_valid_iff (hookService publicAnswer) .bypassed {} w hookRun
    ⟨fun sub hsub => absurd hsub List.not_mem_nil, by simp⟩ rfl hrun
  refine ⟨w, hrun, by rw [hposts]; rfl, hiff.mp fun p hp => ?_⟩
  rw [hposts, List.mem_singleton] at hp
  subst hp
  show validateWebhookUrl _ _ _ = _
  decide +kernel

end Sutram.Workflow
