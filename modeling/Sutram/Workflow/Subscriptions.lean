/-
Webhook subscriptions from registration to delivery.

`create_webhook` shows the secret of a subscription once and stores it encrypted.  Every
attempt decrypts it again and signs its POST with it, so a receiver that has kept the
secret can check each POST it gets and read the payload of the delivery from it.
-/
import Sutram.Core.JsonText
import Sutram.Workflow.Attempts
import Sutram.Workflow.Crypto
import Sutram.Workflow.DeliveryBodies

namespace Sutram.Workflow.Subscriptions

open Sutram.Core Runs DeliveryBodies

/-! ## The service and its answers -/

/-- What is sent to the subscribers and what is answered to the tenants. -/
structure Served where
  sending : Sending := {}
  answers : List (Uuid × Response) := []

namespace Served

def db (s : Served) : Database := s.sending.world.db

/-- The registrations among the answers. -/
def registrations (s : Served) : List WebhookRegistrationResponse :=
  s.answers.filterMap fun a =>
    match a.2.body with
    | .registration r => some r
    | _ => none

end Served

section Service

variable (svc : Service) (security : RowSecurity)

def answering (w : WebhookWorld) : WebhookAction → Option (Uuid × Response)
  | .request tenantId draws r => some (tenantId, (respond svc w.now tenantId draws w.db r).2)
  | _ => none

def serveStep (s : Served) (a : WebhookAction × Uuid) : Option Served :=
  (sendStep svc security s.sending a).map fun sending =>
    ⟨sending, s.answers ++ (answering svc s.sending.world a.1).toList⟩

end Service

variable {svc : Service} {security : RowSecurity}

theorem serveStep_eq_some {s s' : Served} {a : WebhookAction × Uuid}
    (h : serveStep svc security s a = some s') :
    sendStep svc security s.sending a = some s'.sending ∧
      s'.answers = s.answers ++ (answering svc s.sending.world a.1).toList := by
  obtain ⟨sending, hsending, rfl⟩ := Option.map_eq_some_iff.mp h
  exact ⟨hsending, rfl⟩

theorem mem_registrations {s : Served} {reg : WebhookRegistrationResponse} :
    reg ∈ s.registrations ↔ ∃ a ∈ s.answers, a.2.body = .registration reg := by
  rw [Served.registrations, List.mem_filterMap]
  refine exists_congr fun a => and_congr_right fun _ => ?_
  cases a.2.body <;> simp

/-! ## What a step does to the tables -/

/-- A request that neither registers nor deletes. -/
theorem subscriptions_respond {now : Nat} {tenantId : Uuid} {draws : Draws} {db : Database}
    {r : RouteRequest} (hcreate : ∀ body, r ≠ .createWebhook body)
    (hdelete : ∀ id, r ≠ .deleteWebhook id) :
    (respond svc now tenantId draws db r).1.webhookSubscriptions = db.webhookSubscriptions := by
  cases r with
  | createWebhook body => exact absurd rfl (hcreate body)
  | deleteWebhook id => exact absurd rfl (hdelete id)
  | createWorkflow body =>
    simp only [respond, createWorkflow]
    split
    · rfl
    · split <;> rfl
  | getWorkflow workflowId =>
    simp only [respond, getWorkflow]
    split <;> rfl
  | execute workflowId inputs =>
    simp only [respond, execute]
    split
    · rfl
    · split
      · rfl
      · split <;> rfl
  | getExecution executionId =>
    simp only [respond, getExecution]
    split <;> rfl
  | control kind executionId =>
    simp only [respond, controlExecution]
    split
    · rfl
    · split <;> rfl
  | stream executionId =>
    simp only [respond, streamExecution]
    split <;> rfl
  | listWebhooks => rfl

/-- Only requests write subscriptions. -/
theorem subscriptions_webhookStep {w w' : WebhookWorld} {a : WebhookAction}
    (h : webhookStep svc security w a = some w') :
    (∃ tenantId draws r, a = .request tenantId draws r ∧
      w'.db = (respond svc w.now tenantId draws w.db r).1) ∨
    answering svc w a = none ∧ w'.db.webhookSubscriptions = w.db.webhookSubscriptions := by
  cases webhookStep_hooked h with
  | request tenantId draws r => exact .inl ⟨tenantId, draws, r, rfl, rfl⟩
  | _ => exact .inr ⟨rfl, rfl⟩

/-- The columns of a delivery that no attempt writes. -/
def addressed (row : WebhookDeliveryORM) : Uuid × Uuid × Uuid × String × List (String × Json) :=
  (row.id, row.subscriptionId, row.tenantId, row.eventType, row.payload)

theorem keeps_deliveries {w w' : WebhookWorld} {a : WebhookAction}
    (h : webhookStep svc security w a = some w') :
    Table.Keeps addressed w.db.webhookDeliveries w'.db.webhookDeliveries := by
  have hupdate (loaded current : WebhookDeliveryORM) : Table.Keeps addressed
      w.db.webhookDeliveries (updateDelivery loaded current w.db).webhookDeliveries :=
    Table.Keeps.modify (g := loaded.patch current) (loaded.patch_id current) fun _ => rfl
  cases webhookStep_hooked h with
  | request =>
    rw [Attempts.respond_deliveries]
    exact Table.Keeps.refl _
  | enqueue hinsert => exact Table.Keeps.insert hinsert
  | failed | recorded => exact hupdate _ _
  | nothing | read | post | raised | crash | tick => exact Table.Keeps.refl _

/-- A delivery after a step was there before, or is added by it. -/
theorem delivery_of_webhookStep {w w' : WebhookWorld} {a : WebhookAction}
    (h : webhookStep svc security w a = some w') {row : WebhookDeliveryORM}
    (hrow : row ∈ w'.db.webhookDeliveries.rows) :
    (∃ old ∈ w.db.webhookDeliveries.rows, addressed row = addressed old) ∨ a = .enqueue row := by
  have hupdate {loaded current : WebhookDeliveryORM}
      (hrow : row ∈ (updateDelivery loaded current w.db).webhookDeliveries.rows) :
      ∃ old ∈ w.db.webhookDeliveries.rows, addressed row = addressed old := by
    obtain ⟨old, hold, rfl⟩ := List.mem_map.mp hrow
    refine ⟨old, hold, ?_⟩
    split <;> rfl
  cases webhookStep_hooked h with
  | request =>
    rw [Attempts.respond_deliveries] at hrow
    exact .inl ⟨row, hrow, rfl⟩
  | enqueue hinsert =>
    rcases (Table.mem_of_insert hinsert).mp hrow with hrow | rfl
    · exact .inl ⟨row, hrow, rfl⟩
    · exact .inr rfl
  | failed | recorded => exact .inl (hupdate hrow)
  | nothing | read | post | raised | crash | tick => exact .inl ⟨row, hrow, rfl⟩

/-! ## Registrations -/

/-- The registration is that of the row, and the secret it has shown is encrypted there. -/
structure Registers (svc : Service) (reg : WebhookRegistrationResponse)
    (sub : WebhookSubscriptionORM) : Prop where
  id : reg.id = sub.id
  tenantId : reg.tenantId = sub.tenantId
  url : reg.url = sub.url
  secret : ∃ nonce, svc.encryptSecret nonce reg.secret = some sub.secretEncrypted

/-- What the service has encrypted it can decrypt. -/
def Decrypts (svc : Service) : Prop :=
  ∀ nonce secret encrypted, svc.encryptSecret nonce secret = some encrypted →
    svc.decryptSecret encrypted = some secret

theorem decrypts_cryptoService (lib : UrlLibrary) (aes : Aesgcm) (urandom : String → Nonce)
    (hexKey : String) : Decrypts (cryptoService lib aes urandom hexKey) :=
  fun _ _ _ h => decryptSecret_encryptSecret h

/-- A row after a request was there before, perhaps still active, or is new and registered
by the answer. -/
theorem subscription_of_respond {now : Nat} {tenantId : Uuid} {draws : Draws} {db : Database}
    {r : RouteRequest} {sub : WebhookSubscriptionORM}
    (h : sub ∈ (respond svc now tenantId draws db r).1.webhookSubscriptions.rows) :
    (∃ old ∈ db.webhookSubscriptions.rows, sub = old ∨ sub = deactivate old) ∨
      sub.id ∉ db.webhookSubscriptions.rows.map (·.id) ∧
      ∃ reg, (respond svc now tenantId draws db r).2.body = .registration reg ∧
        Registers svc reg sub := by
  by_cases hcreate : ∃ body, r = .createWebhook body
  · obtain ⟨body, rfl⟩ := hcreate
    simp only [respond, createWebhook] at h ⊢
    cases hvalid : validateWebhookUrl svc.toUrlLibrary now body.url with
    | error e =>
      rw [hvalid] at h
      exact .inl ⟨sub, h, .inl rfl⟩
    | ok u =>
      cases hencrypted : svc.encryptSecret draws.nonce draws.secret with
      | none =>
        rw [hvalid, hencrypted] at h
        exact .inl ⟨sub, h, .inl rfl⟩
      | some encrypted =>
        simp only [hvalid, hencrypted] at h ⊢
        split at h
        · exact .inl ⟨sub, h, .inl rfl⟩
        · rename_i subs hinsert
          rcases (Table.mem_of_insert hinsert).mp h with h | rfl
          · exact .inl ⟨sub, h, .inl rfl⟩
          · exact .inr ⟨Table.notMem_of_insert hinsert, _, rfl, rfl, rfl, rfl, _, hencrypted⟩
  · by_cases hdelete : ∃ id, r = .deleteWebhook id
    · obtain ⟨id, rfl⟩ := hdelete
      simp only [respond, deleteWebhook] at h
      split at h
      · exact .inl ⟨sub, h, .inl rfl⟩
      · obtain ⟨old, hold, rfl⟩ := List.mem_map.mp h
        refine .inl ⟨old, hold, ?_⟩
        split
        · exact .inr rfl
        · exact .inl rfl
    · rw [subscriptions_respond (fun body h => hcreate ⟨body, h⟩) fun id h => hdelete ⟨id, h⟩] at h
      exact .inl ⟨sub, h, .inl rfl⟩

/-! ## Signed POSTs -/

/-- The POST is of the delivery, to the URL of the registration and with its secret. -/
structure Signed (security : RowSecurity) (reg : WebhookRegistrationResponse)
    (row : WebhookDeliveryORM) (deliveryId : Uuid) (post : Post) : Prop where
  deliveryId : row.id = deliveryId
  subscriptionId : row.subscriptionId = reg.id
  tenantId : security = .forced → reg.tenantId = row.tenantId
  url : post.url = reg.url
  secret : post.secret = reg.secret
  eventType : post.eventType = row.eventType
  payload : post.payload = row.payload

theorem Signed.of_addressed {reg : WebhookRegistrationResponse} {row row' : WebhookDeliveryORM}
    {deliveryId : Uuid} {post : Post} (h : Signed security reg row deliveryId post)
    (hrow : addressed row' = addressed row) : Signed security reg row' deliveryId post := by
  simp only [addressed, Prod.mk.injEq] at hrow
  obtain ⟨hid, hsub, htenant, htype, hpayload⟩ := hrow
  exact ⟨hid.trans h.deliveryId, hsub.trans h.subscriptionId,
    fun hforced => (h.tenantId hforced).trans htenant.symm, h.url, h.secret,
    h.eventType.trans htype.symm, h.payload.trans hpayload.symm⟩

/-- Of a stored delivery, for a subscription that has been registered. -/
def Vouched (security : RowSecurity) (s : Served) (deliveryId : Uuid) (post : Post) : Prop :=
  ∃ reg ∈ s.registrations, ∃ row ∈ s.db.webhookDeliveries.rows,
    Signed security reg row deliveryId post

/-- Every stored subscription has been registered, and every POST, issued or not, is signed
for one. -/
structure Known (svc : Service) (security : RowSecurity) (s : Served) : Prop where
  stored : ∀ sub ∈ s.db.webhookSubscriptions.rows, ∃ reg ∈ s.registrations, Registers svc reg sub
  read : ∀ i, ∀ flight ∈ s.sending.world.flights i, ∀ now,
    Vouched security s flight.delivery.id (flight.toPost now)
  sent : ∀ m ∈ s.sending.sent, Vouched security s m.deliveryId m.post

/-- A POST that can be issued is one that an attempt has read. -/
theorem flight_of_posting {w : WebhookWorld} {a : WebhookAction} {p : Uuid × Post}
    (h : posting w a = some p) : ∃ i, ∃ flight ∈ w.flights i, a = .post i ∧
      p = (flight.delivery.id, flight.toPost w.now) := by
  cases a with
  | post i =>
    obtain ⟨flight, hflight, h⟩ := Option.bind_eq_some_iff.mp h
    split at h <;> cases h
    exact ⟨i, flight, hflight, rfl, rfl⟩
  | request | enqueue | attempt | finish | crash | tick => cases h

/-- An attempt after a step was under way before, or has read stored rows. -/
theorem flight_of_webhookStep {w w' : WebhookWorld} {a : WebhookAction}
    (h : webhookStep svc security w a = some w') {i : Nat} {flight : Flight}
    (hflight : flight ∈ w'.flights i) :
    (∃ old ∈ w.flights i, flight.delivery = old.delivery ∧
      ∀ now, flight.toPost now = old.toPost now) ∨
    (∃ deliveryId tenantId attempt, a = .attempt i deliveryId tenantId attempt) ∧
      HasRead svc security w.db flight.delivery flight.subscription flight.secret := by
  have hupdate {j : Nat} {f : Option Flight}
      (hflight : flight ∈ Function.update w.flights j f i) :
      flight ∈ w.flights i ∨ i = j ∧ flight ∈ f := by
    by_cases hij : i = j
    · subst hij
      rw [Function.update_self] at hflight
      exact .inr ⟨rfl, hflight⟩
    · rw [Function.update_of_ne hij] at hflight
      exact .inl hflight
  cases webhookStep_hooked h with
  | @read j deliveryId tenantId attempt read hbegun =>
    rcases hupdate hflight with hold | ⟨rfl, hnew⟩
    · exact .inl ⟨flight, hold, rfl, fun _ => rfl⟩
    · cases hnew
      exact .inr ⟨⟨deliveryId, tenantId, attempt, rfl⟩, hasRead_of_post hbegun⟩
  | @post j posted hposted =>
    rcases hupdate hflight with hold | ⟨rfl, hnew⟩
    · exact .inl ⟨flight, hold, rfl, fun _ => rfl⟩
    · cases hnew
      exact .inl ⟨posted, hposted, rfl, fun _ => rfl⟩
  | recorded | raised | crash =>
    rcases hupdate hflight with hold | ⟨-, hnew⟩
    · exact .inl ⟨flight, hold, rfl, fun _ => rfl⟩
    · cases hnew
  | request | enqueue | nothing | failed | tick => exact .inl ⟨flight, hflight, rfl, fun _ => rfl⟩

theorem registrations_subset {s s' : Served} {a : WebhookAction × Uuid}
    (h : serveStep svc security s a = some s') : s.registrations ⊆ s'.registrations := by
  intro reg hreg
  obtain ⟨answer, hanswer, hbody⟩ := mem_registrations.mp hreg
  rw [mem_registrations, (serveStep_eq_some h).2]
  exact ⟨answer, List.mem_append_left _ hanswer, hbody⟩

theorem Vouched.step {s s' : Served} {a : WebhookAction × Uuid} {deliveryId : Uuid} {post : Post}
    (hpost : Vouched security s deliveryId post) (h : serveStep svc security s a = some s') :
    Vouched security s' deliveryId post := by
  obtain ⟨-, hstep, -⟩ := sendStep_eq_some (serveStep_eq_some h).1
  obtain ⟨reg, hreg, row, hrow, hsigned⟩ := hpost
  obtain ⟨row', hrow', hsame⟩ := keeps_deliveries hstep row hrow
  exact ⟨reg, registrations_subset h hreg, row', hrow', hsigned.of_addressed hsame⟩

/-- A new subscription has its registration in the answer to the request. -/
theorem stored_step {s s' : Served} {a : WebhookAction × Uuid} (hI : Known svc security s)
    (h : serveStep svc security s a = some s') {sub : WebhookSubscriptionORM}
    (hsub : sub ∈ s'.db.webhookSubscriptions.rows) :
    ∃ reg ∈ s'.registrations, Registers svc reg sub := by
  obtain ⟨hsend, hanswers⟩ := serveStep_eq_some h
  obtain ⟨-, hstep, -⟩ := sendStep_eq_some hsend
  rcases subscriptions_webhookStep hstep with ⟨tenantId, draws, r, ha, hdb⟩ | ⟨-, hsame⟩
  · rw [Served.db, hdb] at hsub
    rcases subscription_of_respond hsub with ⟨old, hold, hsub⟩ | ⟨-, reg, hbody, hreg⟩
    · obtain ⟨reg, hreg, hold⟩ := hI.stored old hold
      refine ⟨reg, registrations_subset h hreg, ?_⟩
      rcases hsub with rfl | rfl
      · exact hold
      · exact ⟨hold.id, hold.tenantId, hold.url, hold.secret⟩
    · refine ⟨reg, ?_, hreg⟩
      rw [mem_registrations, hanswers, ha]
      exact ⟨_, List.mem_append_right _ List.mem_cons_self, hbody⟩
  · rw [Served.db, hsame] at hsub
    obtain ⟨reg, hreg, hsub⟩ := hI.stored sub hsub
    exact ⟨reg, registrations_subset h hreg, hsub⟩

/-- What an attempt reads is signed with the secret that the registration has shown. -/
theorem vouched_of_hasRead (hsvc : Decrypts svc) {s : Served} (hI : Known svc security s)
    {flight : Flight} (hread : HasRead svc security s.db flight.delivery flight.subscription
      flight.secret) (now : Nat) :
    Vouched security s flight.delivery.id (flight.toPost now) := by
  obtain ⟨reg, hreg, hsub⟩ := hI.stored flight.subscription hread.sub_mem
  obtain ⟨nonce, hencrypted⟩ := hsub.secret
  have hsecret : flight.secret = reg.secret :=
    Option.some.inj (hread.secret.symm.trans (hsvc _ _ _ hencrypted))
  refine ⟨reg, hreg, flight.delivery, hread.delivery_mem, rfl, ?_, ?_, ?_, hsecret, rfl, rfl⟩
  · exact (hsub.id.trans hread.subscriptionId).symm
  · exact fun hforced => hsub.tenantId.trans (hread.tenantId hforced)
  · exact hsub.url.symm

theorem known_step (hsvc : Decrypts svc) {s s' : Served} {a : WebhookAction × Uuid}
    (hI : Known svc security s) (h : serveStep svc security s a = some s') :
    Known svc security s' := by
  obtain ⟨-, hstep, hsent⟩ := sendStep_eq_some (serveStep_eq_some h).1
  constructor
  · exact fun sub hsub => stored_step hI h hsub
  · intro i flight hflight now
    rcases flight_of_webhookStep hstep hflight with ⟨old, hold, hdelivery, hpost⟩ | ⟨-, hread⟩
    · rw [hdelivery, hpost]
      exact (hI.read i old hold now).step h
    · exact (vouched_of_hasRead hsvc hI hread now).step h
  · intro m hm
    rw [hsent, List.mem_append] at hm
    rcases hm with hm | hm
    · exact (hI.sent m hm).step h
    · rw [Option.mem_toList, Option.map_eq_some_iff] at hm
      obtain ⟨p, hp, rfl⟩ := hm
      obtain ⟨i, flight, hflight, -, rfl⟩ := flight_of_posting hp
      exact (hI.read i flight hflight _).step h

/-! ## What the receiver reads -/

/-- The service before its first request. -/
def start (tenants : List Uuid) : Served := { sending := { world := { db := { tenants } } } }

theorem known_start (tenants : List Uuid) : Known svc security (start tenants) :=
  ⟨List.forall_mem_nil _, fun _ _ h => (by cases h), List.forall_mem_nil _⟩

/-- The payloads can be read back from JSON. -/
def PlainPayloads (float : String → String) (s : Served) : Prop :=
  ∀ row ∈ s.db.webhookDeliveries.rows, ∀ e ∈ row.payload, e.2.Plain float

theorem plainPayloads_step {float : String → String} {s s' : Served} {a : WebhookAction × Uuid}
    (hadded : ∀ row, a.1 = .enqueue row → ∀ e ∈ row.payload, e.2.Plain float)
    (hI : PlainPayloads float s) (h : serveStep svc security s a = some s') :
    PlainPayloads float s' := by
  obtain ⟨-, hstep, -⟩ := sendStep_eq_some (serveStep_eq_some h).1
  intro row hrow
  rcases delivery_of_webhookStep hstep hrow with ⟨old, hold, hsame⟩ | ha
  · simp only [addressed, Prod.mk.injEq] at hsame
    rw [hsame.2.2.2.2]
    exact hI old hold
  · exact hadded row ha

theorem plain_payloadWithMeta {float : String → String} {timestamp : String} {uuid4 : Uuid}
    {payload : List (String × Json)} (h : ∀ e ∈ payload, e.2.Plain float) :
    Json.Plain float (.dict (payloadWithMeta timestamp uuid4 payload).entries) := by
  rw [Json.Plain, Json.plainEntries_iff]
  refine ⟨Dict.nodup _, fun e he => ?_⟩
  rcases Dict.mem_of_set he with he | rfl
  · rcases Dict.mem_of_set he with he | rfl
    · exact h e (Dict.mem_of_ofPairs he)
    · trivial
  · trivial

/-- What the receiver of a POST finds: the request is signed with the secret it was shown,
and its content is the payload of the delivery with the time and the UUID of the attempt. -/
structure Received (d : Dispatcher) (float : String → String) (security : RowSecurity)
    (reg : WebhookRegistrationResponse) (row : WebhookDeliveryORM) (m : Sent) : Prop where
  deliveryId : row.id = m.deliveryId
  subscriptionId : row.subscriptionId = reg.id
  tenantId : security = .forced → reg.tenantId = row.tenantId
  url : (m.request d).url = reg.url
  signature : ("X-Sutram-Signature", d.signPayload (m.request d).content reg.secret) ∈
    (m.request d).headers
  event : ("X-Sutram-Event", row.eventType) ∈ (m.request d).headers
  content : Json.loads float (m.request d).content =
    some (.dict (payloadWithMeta (d.isoformat m.post.time) m.uuid4 row.payload).entries)

/-- Whatever requests and attempts there are, and whatever fails: each POST is of a stored
delivery, and the one whom its subscription was registered for receives it as sent. -/
theorem posts_signed (lib : UrlLibrary) (aes : Aesgcm) (urandom : String → Nonce) (hexKey : String)
    (security : RowSecurity) (d : Dispatcher) {float : String → String} {tenants : List Uuid}
    {as : List (WebhookAction × Uuid)} {s : Served}
    (hplain : ∀ row uuid4, (.enqueue row, uuid4) ∈ as → ∀ e ∈ row.payload, e.2.Plain float)
    (hrun : run (serveStep (cryptoService lib aes urandom hexKey) security) (start tenants) as =
      some s) :
    ∀ m ∈ s.sending.sent, ∃ reg ∈ s.registrations, ∃ row ∈ s.db.webhookDeliveries.rows,
      Received d float security reg row m := by
  have hI : Known (cryptoService lib aes urandom hexKey) security s ∧ PlainPayloads float s := by
    refine invariant_run (I := fun s => Known _ security s ∧ PlainPayloads float s)
      (G := fun _ a => ∀ row, a.1 = .enqueue row → ∀ e ∈ row.payload, e.2.Plain float)
      (fun u a v hI hG h => ⟨known_step (decrypts_cryptoService lib aes urandom hexKey) hI.1 h,
        plainPayloads_step hG hI.2 h⟩)
      ⟨known_start tenants, List.forall_mem_nil _⟩ (along_of_mem ?_ _) hrun
    rintro ⟨a, uuid4⟩ ha row rfl
    exact hplain row uuid4 ha
  intro m hm
  obtain ⟨reg, hreg, row, hrow, hsigned⟩ := hI.1.sent m hm
  refine ⟨reg, hreg, row, hrow, hsigned.deliveryId, hsigned.subscriptionId, hsigned.tenantId,
    hsigned.url, ?_, ?_, ?_⟩
  · rw [← hsigned.secret]
    exact List.mem_cons_of_mem _ List.mem_cons_self
  · rw [← hsigned.eventType]
    exact List.mem_cons_of_mem _ (List.mem_cons_of_mem _ List.mem_cons_self)
  · rw [← hsigned.payload]
    refine Json.loads_dumpsWith Json.separators_compact (plain_payloadWithMeta ?_)
    rw [hsigned.payload]
    exact hI.2 row hrow

/-! ## One delivery -/

/-- A key, a draw, a secret and its encryption. -/
structure Encryption where
  key : String
  nonce : Nonce
  secret : String
  ciphertext : String

def firstEncryption : Encryption where
  key := "2c70e12b7a0646f92279f427c7b38e7334d8e5389cff167a1dc30e73f826b683"
  nonce := ⟨[0x78, 0x37, 0x7b, 0x52, 0x57, 0x57, 0xb4, 0x94, 0x42, 0x7f, 0x89, 0x01], rfl⟩
  secret := "2bb80d537b1da3e38bd30361aa855686bde0eacd7162fef6a25fe97bf527a25b"
  ciphertext :=
    "6efa84af398a9859022c471785f982633250af18bd2751c6cf1f42d661c59cd2a9520ccf0b8661f5" ++
      "a93d0361832182f65446bd2604ef4520532b7074a2817ad7a95cde7f5f65a308004d85fdb3cd9b69"

def secondEncryption : Encryption where
  key := "c3d132b07a5658d4ba01878b73ba7db9879a0120ca9b5330d9600bf9dc84d761"
  nonce := ⟨[0x51, 0x9e, 0xef, 0x2d, 0x74, 0x42, 0xcc, 0x17, 0xbc, 0xc5, 0x5b, 0x63], rfl⟩
  secret := "bd4106123e659e259c401119d0c7ef0a221df306a5a414b6fb6a579499962d26"
  ciphertext :=
    "5b75d201999d74fc075c4053dc33d849bcc11e63a55b95bf1a5010fd75f65369f7876d0e9f668623" ++
      "f471b1ea3968b2a50b4997e380103a184f2cb450af4eb8b0eb1a13b0d6d883f7e62d44fd1ef80e8b"

def encryptionOf (key : List UInt8) : Option Encryption :=
  [firstEncryption, secondEncryption].find? fun e => Hex.ofBytes key = e.key.toList

def sampleAes : Aesgcm where
  encrypt key nonce plaintext :=
    (encryptionOf key).bind fun e =>
      if nonce = e.nonce.val ∧ plaintext = encodeText e.secret then Hex.toBytes e.ciphertext.toList
      else none
  decrypt key nonce ciphertext :=
    (encryptionOf key).bind fun e =>
      if nonce = e.nonce.val ∧ some ciphertext = Hex.toBytes e.ciphertext.toList then
        some (encodeText e.secret)
      else none
  decrypt_encrypt h := by
    obtain ⟨e, he, h⟩ := Option.bind_eq_some_iff.mp h
    split at h
    · rename_i hsample
      rw [he, Option.bind_some, if_pos ⟨hsample.1, h.symm⟩, hsample.2]
    · cases h

/-- The service under the key of an encryption, with its draw. -/
def sampleService (e : Encryption) : Service :=
  cryptoService (hookService publicAnswer).toUrlLibrary sampleAes (fun _ => e.nonce) e.key

def sampleDelivery : WebhookDeliveryORM :=
  { hookDelivery with
    payload := [("execution_id", .str (Uuid.repdigit 3).str), ("status", .str "COMPLETED"),
      ("total_steps", .int 4)] }

def sampleContent : String :=
  "\x7b\"execution_id\":\"33333333-3333-3333-3333-333333333333\",\"status\":\"COMPLETED\"," ++
    "\"total_steps\":4,\"timestamp\":\"2026-01-01T00:00:11+00:00\"," ++
    "\"delivery_id\":\"88888888-8888-8888-8888-888888888888\"\x7d"

def signingDispatcher : Dispatcher where
  isoformat := minuteDispatcher.isoformat
  hmacSha256 key message :=
    if key = firstEncryption.secret ∧ message = sampleContent then
      "13d1a5455f908e24a564f3eab5db3b59e8b18a51d148caeb434bef41fb31a2e9"
    else ""

/-- A registration, and a delivery that is received. -/
def sampleRun (secret : String) : List (WebhookAction × Uuid) :=
  [(.request (.repdigit 7) ⟨.repdigit 1, secret, "nonce", true⟩
      (.createWebhook { url := "https://hooks.example/in" }), .repdigit 9),
    (.enqueue sampleDelivery, .repdigit 9), (.tick, .repdigit 9),
    (.attempt 0 (.repdigit 2) (.repdigit 7) 0, .repdigit 9), (.post 0, .repdigit 8),
    (.finish 0 (.response 200 "ok"), .repdigit 9)]

theorem posts_signed_delivered :
    ∃ s, run (serveStep (sampleService firstEncryption) .forced) (start [])
      (sampleRun firstEncryption.secret) = some s ∧
      s.sending.sent.map (fun m => (m.request signingDispatcher).headers) =
        [[("Content-Type", "application/json"),
          ("X-Sutram-Signature",
            "sha256=13d1a5455f908e24a564f3eab5db3b59e8b18a51d148caeb434bef41fb31a2e9"),
          ("X-Sutram-Event", "execution.completed")]] ∧
      ∀ m ∈ s.sending.sent, ∃ reg ∈ s.registrations, ∃ row ∈ s.db.webhookDeliveries.rows,
        Received signingDispatcher id .forced reg row m := by
  have hend : (run (serveStep (sampleService firstEncryption) .forced) (start [])
      (sampleRun firstEncryption.secret)).any fun s =>
      s.sending.sent.map (fun m => (m.request signingDispatcher).headers) =
        [[("Content-Type", "application/json"),
          ("X-Sutram-Signature",
            "sha256=13d1a5455f908e24a564f3eab5db3b59e8b18a51d148caeb434bef41fb31a2e9"),
          ("X-Sutram-Event", "execution.completed")]] := by
    decide +kernel
  obtain ⟨s, hrun, hheaders⟩ := exists_of_any hend
  refine ⟨s, hrun, hheaders, posts_signed _ sampleAes (fun _ => firstEncryption.nonce)
    firstEncryption.key .forced signingDispatcher (fun row uuid4 hrow => ?_) hrun⟩
  simp only [sampleRun, List.mem_cons, Prod.mk.injEq, reduceCtorEq, false_and, or_false,
    List.not_mem_nil, WebhookAction.enqueue.injEq, false_or] at hrow
  rw [hrow.1]
  intro e he
  simp only [sampleDelivery, List.mem_cons, List.not_mem_nil, or_false] at he
  rcases he with rfl | rfl | rfl <;> trivial

end Sutram.Workflow.Subscriptions
