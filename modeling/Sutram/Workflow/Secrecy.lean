/-
Where the secret of a webhook goes.

A service that is given neither secrets nor keys makes the same steps: it stores, answers
and sends the same but for the encrypted column, the secret in the answer to a
registration and the signature of a POST.  So nothing else depends on the secrets, the
nonces and the key.
-/
import Sutram.Library.Projection
import Sutram.Workflow.Subscriptions

namespace Sutram.Workflow.Subscriptions

open Sutram.Core Runs DeliveryBodies

/-! ## Without the secrets -/

def concealSub (sub : WebhookSubscriptionORM) : WebhookSubscriptionORM :=
  { sub with secretEncrypted := "" }

theorem concealSub_id (sub : WebhookSubscriptionORM) : (concealSub sub).id = sub.id := rfl

def concealDb (db : Database) : Database :=
  { db with webhookSubscriptions := db.webhookSubscriptions.image concealSub concealSub_id }

def concealPost (p : Post) : Post := { p with secret := "" }

def concealFlight (flight : Flight) : Flight :=
  { flight with subscription := concealSub flight.subscription, secret := "" }

def concealWorld (w : WebhookWorld) : WebhookWorld :=
  { w with
    db := concealDb w.db
    flights := Option.map concealFlight ∘ w.flights
    posts := w.posts.map concealPost }

@[simp] theorem concealWorld_flights (w : WebhookWorld) (i : Nat) :
    (concealWorld w).flights i = (w.flights i).map concealFlight := rfl

@[simp] theorem concealWorld_db (w : WebhookWorld) : (concealWorld w).db = concealDb w.db := rfl

def concealSent (m : Sent) : Sent := { m with post := concealPost m.post }

def concealBody : Body → Body
  | .registration r => .registration { r with secret := "" }
  | body => body

def concealResponse (r : Response) : Response := { r with body := concealBody r.body }

def conceal (s : Served) : Served where
  sending := ⟨concealWorld s.sending.world, s.sending.sent.map concealSent⟩
  answers := s.answers.map fun a => (a.1, concealResponse a.2)

/-- Of what is drawn for an encryption only its success is left. -/
def concealDraws (svc : Service) (draws : Draws) : Draws :=
  { draws with
    secret := ""
    nonce := if (svc.encryptSecret draws.nonce draws.secret).isSome then "" else "fails" }

def concealAction (svc : Service) : WebhookAction → WebhookAction
  | .request tenantId draws r => .request tenantId (concealDraws svc draws) r
  | a => a

/-- The service without secrets and keys. -/
def hushed (lib : UrlLibrary) : Service where
  toUrlLibrary := lib
  encryptSecret nonce _ := if nonce = "fails" then none else some ""
  decryptSecret _ := some ""

variable {svc : Service} {security : RowSecurity}

/-! ## Requests -/

theorem respond_conceal (now : Nat) (tenantId : Uuid) (draws : Draws) (db : Database)
    (r : RouteRequest) :
    respond (hushed svc.toUrlLibrary) now tenantId (concealDraws svc draws) (concealDb db) r =
      (concealDb (respond svc now tenantId draws db r).1,
        concealResponse (respond svc now tenantId draws db r).2) := by
  cases r with
  | createWorkflow body =>
    simp only [respond, createWorkflow, concealDb, concealDraws]
    by_cases htenant : tenantId ∈ db.tenants
    · simp only [htenant, not_true_eq_false, if_false]
      cases db.workflows.insert
        ⟨draws.uuid, tenantId, body.name, body.description, body.definition, 1⟩ <;> rfl
    · simp only [htenant, not_false_eq_true, if_true]
      rfl
  | getWorkflow workflowId =>
    simp only [respond, getWorkflow, concealDb]
    cases db.workflows.find? fun wf => wf.id = workflowId && wf.tenantId = tenantId <;> rfl
  | execute workflowId inputs =>
    simp only [respond, execute, concealDb, concealDraws]
    cases db.workflows.find? fun wf => wf.id = workflowId with
    | none => rfl
    | some workflow =>
      by_cases htenant : tenantId ∈ db.tenants
      · simp only [htenant, not_true_eq_false, if_false]
        cases db.executions.insert ⟨draws.uuid, tenantId, workflowId,
          { context := { contextVariables := inputs } }, some workflow.definition⟩ with
        | none => rfl
        | some executions =>
          by_cases hbroker : draws.brokerAccepts
          · simp only [hbroker, if_true]
            rfl
          · simp only [hbroker, if_false, Bool.false_eq_true]
            rfl
      · simp only [htenant, not_false_eq_true, if_true]
        rfl
  | getExecution executionId =>
    simp only [respond, getExecution, findExecution, concealDb]
    cases db.executions.find? fun ex => ex.id = executionId && ex.tenantId = tenantId <;> rfl
  | control kind executionId =>
    simp only [respond, controlExecution, findExecution, concealDb, concealDraws]
    cases db.executions.find? fun ex => ex.id = executionId && ex.tenantId = tenantId with
    | none => rfl
    | some ex =>
      dsimp only
      cases (ExecutionFSM.mk ex.row.status).transition kind.route.trigger with
      | error e => rfl
      | ok fsm =>
        by_cases hbroker : kind.route.enqueues ∧ ¬ draws.brokerAccepts
        · simp only [hbroker]
          rfl
        · simp only [hbroker, if_false]
          rfl
  | stream executionId =>
    simp only [respond, streamExecution, findExecution, concealDb]
    cases db.executions.find? fun ex => ex.id = executionId && ex.tenantId = tenantId <;> rfl
  | createWebhook body =>
    simp only [respond, createWebhook]
    cases hvalid : validateWebhookUrl svc.toUrlLibrary now body.url with
    | error e => simp only [hushed, hvalid, concealResponse, concealBody]
    | ok u =>
      cases hencrypted : svc.encryptSecret draws.nonce draws.secret with
      | none => simp [hushed, hvalid, concealDraws, hencrypted, concealResponse, concealBody,
          Response.serverError]
      | some encrypted =>
        cases hinsert : db.webhookSubscriptions.insert
            ⟨draws.uuid, tenantId, body.url, encrypted, body.events, true⟩ with
        | none =>
          have hnone := Table.insert_image_none concealSub_id hinsert
          simp only [concealSub] at hnone
          simp [hushed, hvalid, concealDraws, hencrypted, hinsert, hnone, concealDb,
            concealResponse, concealBody, Response.serverError]
        | some subs =>
          have hsome := Table.insert_image concealSub_id hinsert
          simp only [concealSub] at hsome
          simp [hushed, hvalid, concealDraws, hencrypted, hinsert, hsome, concealDb,
            concealResponse, concealBody]
  | listWebhooks =>
    simp only [respond, listWebhooks, concealDb]
    rw [Table.select_image _ concealSub_id fun _ => rfl, List.map_map]
    rfl
  | deleteWebhook webhookId =>
    simp only [respond, deleteWebhook, concealDb]
    rw [Table.find?_image _ concealSub_id fun _ => rfl]
    cases db.webhookSubscriptions.find? fun sub =>
        sub.id = webhookId && sub.tenantId = tenantId with
    | none => rfl
    | some sub =>
      simp only [Option.map_some]
      rw [Table.modify_image _ concealSub_id deactivate_id fun _ => rfl]
      rfl

/-! ## Attempts -/

def concealBegun : Begun → Begun
  | .post delivery sub _ => .post delivery (concealSub sub) ""
  | begun => begun

/-- Every stored secret can be decrypted. -/
def Readable (svc : Service) (db : Database) : Prop :=
  ∀ sub ∈ db.webhookSubscriptions.rows, (svc.decryptSecret sub.secretEncrypted).isSome

theorem beginDelivery_conceal {db : Database} (hdb : Readable svc db) (deliveryId tenantId : Uuid) :
    beginDelivery (hushed svc.toUrlLibrary) security (concealDb db) deliveryId tenantId =
      concealBegun (beginDelivery svc security db deliveryId tenantId) := by
  simp only [beginDelivery, concealDb]
  cases db.webhookDeliveries.find? fun d =>
      d.id = deliveryId && security.sees (some tenantId) d.tenantId with
  | none => rfl
  | some delivery =>
    dsimp only
    by_cases hended : delivery.status = .delivered ∨ delivery.status = .deadLettered
    · simp only [hended, if_true]
      rfl
    · simp only [hended, if_false]
      rw [Table.find?_image _ concealSub_id fun _ => rfl]
      cases hfind : db.webhookSubscriptions.find? fun sub =>
          sub.id = delivery.subscriptionId && security.sees (some tenantId) sub.tenantId with
      | none => rfl
      | some sub =>
        obtain ⟨secret, hsecret⟩ := Option.isSome_iff_exists.mp (hdb sub (Table.mem_of_find? hfind))
        cases hactive : sub.active with
        | false => simp [concealSub, hactive, concealBegun]
        | true => simp [concealSub, hactive, hushed, hsecret, concealBegun]

theorem posting_conceal {w : WebhookWorld} (a : WebhookAction) :
    posting (concealWorld w) (concealAction svc a) =
      (posting w a).map fun p => (p.1, concealPost p.2) := by
  cases a with
  | post i =>
    simp only [posting, concealAction, concealWorld_flights]
    cases w.flights i with
    | none => rfl
    | some flight =>
      simp only [Option.map_some, Option.bind_some]
      cases hposted : flight.posted <;> simp only [concealFlight, hposted] <;> rfl
  | request | enqueue | attempt | finish | crash | tick => rfl

/-- What becomes of one attempt is concealed with it. -/
theorem concealWorld_update (w : WebhookWorld) (i : Nat) (flight : Option Flight) :
    concealWorld { w with flights := Function.update w.flights i flight } =
      { concealWorld w with
        flights := Function.update (concealWorld w).flights i (flight.map concealFlight) } := by
  simp only [concealWorld, Function.comp_update]

theorem concealWorld_recordOutcome (w : WebhookWorld) (i : Nat) (flight : Flight)
    (statusCode : Nat) (responseBody : String) :
    concealWorld (recordOutcome w i flight statusCode responseBody) =
      recordOutcome (concealWorld w) i (concealFlight flight) statusCode responseBody := by
  simp only [recordOutcome, concealWorld, Function.comp_update]
  rfl

theorem startAttempt_conceal {w : WebhookWorld} (hdb : Readable svc w.db) (i : Nat)
    (deliveryId tenantId : Uuid) (attempt : Nat) :
    startAttempt (hushed svc.toUrlLibrary) security (concealWorld w) i deliveryId tenantId attempt =
      (startAttempt svc security w i deliveryId tenantId attempt).map concealWorld := by
  simp only [startAttempt, concealWorld_flights, concealWorld_db, Option.isSome_map,
    beginDelivery_conceal hdb]
  split
  · rfl
  · cases beginDelivery svc security w.db deliveryId tenantId with
    | nothing | raised | failed => rfl
    | post delivery sub secret =>
      simp only [concealBegun, Option.map_some, concealWorld_update]
      rfl

theorem postAttempt_conceal (w : WebhookWorld) (i : Nat) :
    postAttempt (concealWorld w) i = (postAttempt w i).map concealWorld := by
  simp only [postAttempt, concealWorld_flights]
  cases w.flights i with
  | none => rfl
  | some flight =>
    have hposted : (concealFlight flight).posted = flight.posted := rfl
    simp only [Option.map_some, hposted]
    split
    · rfl
    · simp only [Option.map_some, concealWorld, Function.comp_update, List.map_append]
      rfl

theorem finishAttempt_conceal (w : WebhookWorld) (i : Nat) (outcome : PostOutcome) :
    finishAttempt (concealWorld w) i outcome = (finishAttempt w i outcome).map concealWorld := by
  simp only [finishAttempt, concealWorld_flights]
  cases w.flights i with
  | none => rfl
  | some flight =>
    have hposted : (concealFlight flight).posted = flight.posted := rfl
    simp only [Option.map_some, hposted]
    split
    · cases outcome with
      | response | requestError => simp only [Option.map_some, concealWorld_recordOutcome]
      | raised =>
        simp only [Option.map_some, concealWorld_update]
        rfl
    · rfl

theorem webhookStep_conceal {w w' : WebhookWorld} {a : WebhookAction} (hdb : Readable svc w.db)
    (h : webhookStep svc security w a = some w') :
    webhookStep (hushed svc.toUrlLibrary) security (concealWorld w) (concealAction svc a) =
      some (concealWorld w') := by
  cases a with
  | request tenantId draws r =>
    cases h
    simp only [webhookStep, concealAction, concealWorld, respond_conceal]
  | enqueue delivery =>
    simp only [webhookStep] at h
    split at h
    · rename_i hknown
      obtain ⟨deliveries, hinsert, rfl⟩ := Option.map_eq_some_iff.mp h
      have hfound : ((concealDb w.db).webhookSubscriptions.find? fun sub =>
          sub.id = delivery.subscriptionId).isSome := by
        rw [concealDb, Table.find?_image _ concealSub_id fun _ => rfl, Option.isSome_map]
        exact hknown
      have hinsert' : (concealDb w.db).webhookDeliveries.insert delivery = some deliveries :=
        hinsert
      simp only [webhookStep, concealAction, concealWorld, hfound, if_true, hinsert']
      rfl
    · cases h
  | attempt i deliveryId tenantId attempt =>
    simp only [webhookStep, concealAction] at h ⊢
    rw [startAttempt_conceal hdb, h, Option.map_some]
  | post i =>
    simp only [webhookStep, concealAction] at h ⊢
    rw [postAttempt_conceal, h, Option.map_some]
  | finish i outcome =>
    simp only [webhookStep, concealAction] at h ⊢
    rw [finishAttempt_conceal, h, Option.map_some]
  | crash i =>
    simp only [webhookStep, concealAction, concealWorld_flights, Option.isSome_map] at h ⊢
    split at h
    · rename_i hflying
      cases h
      rw [if_pos hflying, concealWorld_update]
      rfl
    · cases h
  | tick =>
    cases h
    rfl

/-! ## Runs -/

theorem serveStep_conceal {s s' : Served} {a : WebhookAction × Uuid} (hdb : Readable svc s.db)
    (h : serveStep svc security s a = some s') :
    serveStep (hushed svc.toUrlLibrary) security (conceal s) (concealAction svc a.1, a.2) =
      some (conceal s') := by
  obtain ⟨hsend, hanswers⟩ := serveStep_eq_some h
  obtain ⟨hfresh, hstep, hsent⟩ := sendStep_eq_some hsend
  have hnew : a.2 ∉ ((conceal s).sending.sent).map Sent.uuid4 := by
    simp only [conceal, List.map_map]
    intro hmem
    obtain ⟨m, hm, hid⟩ := List.mem_map.mp hmem
    exact hfresh m hm hid
  have hanswer : answering (hushed svc.toUrlLibrary) (concealWorld s.sending.world)
      (concealAction svc a.1) =
        (answering svc s.sending.world a.1).map fun r => (r.1, concealResponse r.2) := by
    cases a.1 with
    | request tenantId draws r =>
      simp only [answering, concealAction, concealWorld, respond_conceal, Option.map_some]
    | enqueue | attempt | post | finish | crash | tick => rfl
  have hsend' : sendStep (hushed svc.toUrlLibrary) security (conceal s).sending
      (concealAction svc a.1, a.2) = some (conceal s').sending := by
    have hworld : (conceal s).sending.world = concealWorld s.sending.world := rfl
    rw [sendStep, if_neg hnew, hworld, webhookStep_conceal hdb hstep, posting_conceal]
    simp only [conceal, Option.map_some, hsent, List.map_append]
    congr 3
    cases posting s.sending.world a.1 <;> rfl
  have hworld : (conceal s).sending.world = concealWorld s.sending.world := rfl
  rw [serveStep, hsend', Option.map_some, hworld, hanswer]
  simp only [conceal, hanswers, List.map_append]
  congr 2
  cases answering svc s.sending.world a.1 <;> rfl

theorem readable_of_known (hsvc : Decrypts svc) {s : Served} (h : Known svc security s) :
    Readable svc s.db := by
  intro sub hsub
  obtain ⟨reg, -, hreg⟩ := h.stored sub hsub
  obtain ⟨nonce, hencrypted⟩ := hreg.secret
  rw [hsvc _ _ _ hencrypted]
  rfl

theorem projects_conceal (hsvc : Decrypts svc) :
    Projects (serveStep svc security) (serveStep (hushed svc.toUrlLibrary) security) conceal
      (fun a => some (concealAction svc a.1, a.2)) (Known svc security) where
  keep hI h := known_step hsvc hI h
  seen hI h hact := by
    cases hact
    exact serveStep_conceal (readable_of_known hsvc hI) h
  unseen _ _ hact := nomatch hact

/-- The request but for its signature. -/
def unsigned (r : DeliveryBodies.Request) : String × String × List (String × String) :=
  (r.url, r.content, r.headers.filter fun h => h.1 ≠ "X-Sutram-Signature")

theorem unsigned_conceal (d : Dispatcher) (m : Sent) :
    unsigned ((concealSent m).request d) = unsigned (m.request d) := by
  simp [unsigned, Sent.request, Dispatcher.deliver, concealSent, concealPost]

/-- Two services with keys of their own, in whose runs the same happens but for the secrets
and nonces that are drawn: they store the same but for the encrypted column, answer the
same but for the secret of a registration, and send the same but for the signature. -/
theorem secrets_concealed (lib : UrlLibrary) (aes : Aesgcm) (security : RowSecurity)
    {urandom urandom' : String → Nonce} {hexKey hexKey' : String} {tenants : List Uuid}
    {as as' : List (WebhookAction × Uuid)} {s s' : Served}
    (hsame : (as.map fun a => (concealAction (cryptoService lib aes urandom hexKey) a.1, a.2)) =
      as'.map fun a => (concealAction (cryptoService lib aes urandom' hexKey') a.1, a.2))
    (hrun : run (serveStep (cryptoService lib aes urandom hexKey) security) (start tenants) as =
      some s)
    (hrun' : run (serveStep (cryptoService lib aes urandom' hexKey') security) (start tenants) as' =
      some s') :
    concealDb s.db = concealDb s'.db ∧
      (s.answers.map fun a => (a.1, concealResponse a.2)) =
        s'.answers.map (fun a => (a.1, concealResponse a.2)) ∧
      ∀ d : Dispatcher, (s.sending.sent.map fun m => unsigned (m.request d)) =
        s'.sending.sent.map fun m => unsigned (m.request d) := by
  rw [← List.filterMap_eq_map', ← List.filterMap_eq_map'] at hsame
  have hprojects (urandom : String → Nonce) (hexKey : String) :
      Projects (serveStep (cryptoService lib aes urandom hexKey) security)
        (serveStep (hushed lib) security) conceal
        (fun a => some (concealAction (cryptoService lib aes urandom hexKey) a.1, a.2))
        (Known (cryptoService lib aes urandom hexKey) security) :=
    projects_conceal (decrypts_cryptoService lib aes urandom hexKey)
  have hconceal : conceal s = conceal s' :=
    (hprojects urandom hexKey).view_eq (hprojects urandom' hexKey') (known_start tenants)
      (known_start tenants) rfl hsame hrun hrun'
  have hsent : s.sending.sent.map concealSent = s'.sending.sent.map concealSent :=
    congrArg (fun u => u.sending.sent) hconceal
  refine ⟨congrArg (fun u => u.sending.world.db) hconceal, congrArg Served.answers hconceal,
    fun d => ?_⟩
  have hunsigned (sent : List Sent) : (sent.map fun m => unsigned (m.request d)) =
      (sent.map concealSent).map fun m => unsigned (m.request d) := by
    rw [List.map_map]
    exact List.map_congr_left fun m _ => (unsigned_conceal d m).symm
  rw [hunsigned s.sending.sent, hsent, ← hunsigned]

theorem conceal_sampleRun {e : Encryption}
    (h : ((sampleService e).encryptSecret "nonce" e.secret).isSome) :
    ((sampleRun e.secret).map fun a => (concealAction (sampleService e) a.1, a.2)) =
      (.request (.repdigit 7) ⟨.repdigit 1, "", "", true⟩
        (.createWebhook { url := "https://hooks.example/in" }), .repdigit 9) ::
          (sampleRun "").tail := by
  simp [sampleRun, concealAction, concealDraws, h]

/-- Two secrets under two keys. -/
theorem secrets_concealed_two :
    ∃ s s', run (serveStep (sampleService firstEncryption) .forced) (start [])
        (sampleRun firstEncryption.secret) = some s ∧
      run (serveStep (sampleService secondEncryption) .forced) (start [])
        (sampleRun secondEncryption.secret) = some s' ∧
      s.registrations ≠ s'.registrations ∧ s.sending.sent.length = 1 ∧
      concealDb s.db = concealDb s'.db ∧
      (s.answers.map fun a => (a.1, concealResponse a.2)) =
        s'.answers.map (fun a => (a.1, concealResponse a.2)) ∧
      ∀ d : Dispatcher, (s.sending.sent.map fun m => unsigned (m.request d)) =
        s'.sending.sent.map fun m => unsigned (m.request d) := by
  have hend : (run (serveStep (sampleService firstEncryption) .forced) (start [])
      (sampleRun firstEncryption.secret)).any (fun s =>
        (run (serveStep (sampleService secondEncryption) .forced) (start [])
          (sampleRun secondEncryption.secret)).any fun s' =>
            decide (s.registrations ≠ s'.registrations ∧ s.sending.sent.length = 1)) = true := by
    decide +kernel
  obtain ⟨s, hrun, hs⟩ := (Option.any_eq_true _ _).mp hend
  obtain ⟨s', hrun', hs'⟩ := (Option.any_eq_true _ _).mp hs
  obtain ⟨hdiffer, hlength⟩ := of_decide_eq_true hs'
  have hfirst : ((sampleService firstEncryption).encryptSecret "nonce"
      firstEncryption.secret).isSome := by decide +kernel
  have hsecond : ((sampleService secondEncryption).encryptSecret "nonce"
      secondEncryption.secret).isSome := by decide +kernel
  refine ⟨s, s', hrun, hrun', hdiffer, hlength, secrets_concealed _ sampleAes .forced ?_ hrun hrun'⟩
  exact (conceal_sampleRun hfirst).trans (conceal_sampleRun hsecond).symm

end Sutram.Workflow.Subscriptions
