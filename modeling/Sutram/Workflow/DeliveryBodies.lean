/-
The bodies of webhook POSTs.

`WebhookDispatcher.deliver` adds two fields to the stored payload, and draws the
`delivery_id` among them anew in every call: it is not the id of the delivery.  So a
second POST of one delivery carries another `delivery_id`, and a payload field of the
name of either is overwritten.
-/
import Sutram.Core.Json
import Sutram.Library.Dict
import Sutram.Workflow.Delivery

namespace Sutram.Workflow.DeliveryBodies

open Sutram.Core Runs

/-! ## The dispatcher -/

/-- What `deliver` calls. -/
structure Dispatcher where
  /-- `datetime.isoformat()` -/
  isoformat : Nat → String
  /-- `hmac.new(key, message, hashlib.sha256).hexdigest()` -/
  hmacSha256 : String → String → String

structure Request where
  url : String
  body : Dict String Json
  content : String
  headers : List (String × String)

def payloadWithMeta (timestamp : String) (uuid4 : Uuid) (payload : List (String × Json)) :
    Dict String Json :=
  ((Dict.ofPairs payload).set "timestamp" (.str timestamp)).set "delivery_id" (.str uuid4.str)

namespace Dispatcher

variable (d : Dispatcher)

def signPayload (payloadBytes secret : String) : String :=
  "sha256=" ++ d.hmacSha256 secret payloadBytes

/-- The request that `deliver` issues. -/
def deliver (now : Nat) (uuid4 : Uuid) (url secret eventType : String)
    (payload : List (String × Json)) : Request :=
  let body := payloadWithMeta (d.isoformat now) uuid4 payload
  let content := Json.dumpsWith "," ":" (.dict body.entries)
  { url
    body
    content
    headers :=
      [("Content-Type", "application/json"), ("X-Sutram-Signature", d.signPayload content secret),
        ("X-Sutram-Event", eventType)] }

end Dispatcher

/-! ## POSTs of a run -/

/-- A POST, the delivery it is of, and the UUID drawn for it. -/
structure Sent where
  deliveryId : Uuid
  post : Post
  uuid4 : Uuid

def Sent.request (d : Dispatcher) (m : Sent) : Request :=
  d.deliver m.post.time m.uuid4 m.post.url m.post.secret m.post.eventType m.post.payload

/-- The `delivery_id` in the body. -/
def Sent.bodyId (d : Dispatcher) (m : Sent) : Option Json := (m.request d).body.get? "delivery_id"

structure Sending where
  world : WebhookWorld := {}
  sent : List Sent := []

section Service

variable (svc : Service) (security : RowSecurity)

/-- An action with the UUID it draws if it posts.  `uuid.uuid4` never repeats itself. -/
def sendStep (s : Sending) : WebhookAction × Uuid → Option Sending
  | (a, uuid4) =>
    if uuid4 ∈ s.sent.map Sent.uuid4 then none
    else
      (webhookStep svc security s.world a).map fun world =>
        { world
          sent := s.sent ++
            ((posting s.world a).map fun p => ⟨p.1, p.2, uuid4⟩).toList }

end Service

variable {svc : Service} {security : RowSecurity} {d : Dispatcher}

theorem sendStep_eq_some {s s' : Sending} {a : WebhookAction} {uuid4 : Uuid}
    (h : sendStep svc security s (a, uuid4) = some s') :
    (∀ m ∈ s.sent, m.uuid4 ≠ uuid4) ∧ webhookStep svc security s.world a = some s'.world ∧
      s'.sent = s.sent ++
        ((posting s.world a).map fun p => ⟨p.1, p.2, uuid4⟩).toList := by
  rw [sendStep] at h
  split at h
  · cases h
  · rename_i hfresh
    obtain ⟨world, hworld, rfl⟩ := Option.map_eq_some_iff.mp h
    exact ⟨fun m hm heq => hfresh (List.mem_map.mpr ⟨m, hm, heq⟩), hworld, rfl⟩

/-- What is sent is what the world has posted. -/
theorem posts_eq_sent {s s' : Sending} {as : List (WebhookAction × Uuid)}
    (hposts : s.world.posts = s.sent.map Sent.post)
    (h : run (sendStep svc security) s as = some s') :
    s'.world.posts = s'.sent.map Sent.post := by
  refine invariant_run (I := fun s : Sending => s.world.posts = s.sent.map Sent.post)
    (G := fun _ _ => True) (fun s a t hI _ hstep => ?_) hposts (along_of_mem (by simp) s) h
  obtain ⟨-, hworld, hsent⟩ := sendStep_eq_some hstep
  rw [posts_webhookStep hworld, hsent, hI, List.map_append]
  cases posting s.world a.1 <;> rfl

/-! ## What a receiver relies on -/

/-- A receiver can tell repetitions by `delivery_id`, and loses no field of a payload. -/
structure Deduplicable (d : Dispatcher) (sent : List Sent) : Prop where
  same : ∀ m ∈ sent, ∀ m' ∈ sent, m.deliveryId = m'.deliveryId → m.bodyId d = m'.bodyId d
  different : ∀ m ∈ sent, ∀ m' ∈ sent, m.deliveryId ≠ m'.deliveryId → m.bodyId d ≠ m'.bodyId d
  complete : ∀ m ∈ sent, ∀ e ∈ (Dict.ofPairs m.post.payload).entries,
    (m.request d).body.get? e.1 = some e.2

instance (d : Dispatcher) (sent : List Sent) : Decidable (Deduplicable d sent) :=
  decidable_of_iff ((∀ m ∈ sent, ∀ m' ∈ sent, m.deliveryId = m'.deliveryId →
      m.bodyId d = m'.bodyId d) ∧
    (∀ m ∈ sent, ∀ m' ∈ sent, m.deliveryId ≠ m'.deliveryId → m.bodyId d ≠ m'.bodyId d) ∧
    ∀ m ∈ sent, ∀ e ∈ (Dict.ofPairs m.post.payload).entries,
      (m.request d).body.get? e.1 = some e.2)
    ⟨fun h => ⟨h.1, h.2.1, h.2.2⟩, fun h => ⟨h.1, h.2, h.3⟩⟩

/-- The payload has no field of a name that `deliver` sets, but with the value set. -/
def LeavesMeta (timestamp : String) (uuid4 : Uuid) (payload : List (String × Json)) : Prop :=
  (∀ v ∈ (Dict.ofPairs payload).get? "timestamp", v = .str timestamp) ∧
    ∀ v ∈ (Dict.ofPairs payload).get? "delivery_id", v = .str uuid4.str

/-- An attempt that gets to its POST is the first of its delivery, and the payload leaves
the added fields alone. -/
def SendsFirst (d : Dispatcher) (s : Sending) : WebhookAction × Uuid → Prop
  | (a, uuid4) => ∀ p ∈ posting s.world a,
    (∀ m ∈ s.sent, m.deliveryId ≠ p.1) ∧ LeavesMeta (d.isoformat p.2.time) uuid4 p.2.payload

theorem deduplicable_nil : Deduplicable d [] :=
  ⟨List.forall_mem_nil _, List.forall_mem_nil _, List.forall_mem_nil _⟩

theorem bodyId_eq (m : Sent) : m.bodyId d = some (.str m.uuid4.str) := Dict.get?_set_self _ _ _

theorem bodyId_eq_iff {m m' : Sent} : m.bodyId d = m'.bodyId d ↔ m.uuid4 = m'.uuid4 := by
  rw [bodyId_eq, bodyId_eq, Option.some_inj, Json.str.injEq]
  exact ⟨Uuid.str_injective, congrArg Uuid.str⟩

theorem payloadWithMeta_complete_iff {timestamp : String} {uuid4 : Uuid}
    {payload : List (String × Json)} :
    (∀ e ∈ (Dict.ofPairs payload).entries,
        (payloadWithMeta timestamp uuid4 payload).get? e.1 = some e.2) ↔
      LeavesMeta timestamp uuid4 payload := by
  have htimestamp : (payloadWithMeta timestamp uuid4 payload).get? "timestamp" =
      some (.str timestamp) := by
    rw [payloadWithMeta, Dict.get?_set_of_ne _ _ (by decide), Dict.get?_set_self]
  have hdelivery : (payloadWithMeta timestamp uuid4 payload).get? "delivery_id" =
      some (.str uuid4.str) := Dict.get?_set_self _ _ _
  constructor
  · intro h
    constructor
    · intro v hv
      have := h ("timestamp", v) ((Dict.mem_iff_get? _ _ _).mpr hv)
      rw [htimestamp, Option.some_inj] at this
      exact this.symm
    · intro v hv
      have := h ("delivery_id", v) ((Dict.mem_iff_get? _ _ _).mpr hv)
      rw [hdelivery, Option.some_inj] at this
      exact this.symm
  · rintro ⟨h₁, h₂⟩ ⟨k, v⟩ he
    have hget := (Dict.mem_iff_get? _ _ _).mp he
    by_cases hk₁ : k = "timestamp"
    · subst hk₁
      rw [htimestamp, h₁ v hget]
    · by_cases hk₂ : k = "delivery_id"
      · subst hk₂
        rw [hdelivery, h₂ v hget]
      · rw [payloadWithMeta, Dict.get?_set_of_ne _ _ hk₂, Dict.get?_set_of_ne _ _ hk₁, hget]

/-- One more POST, with a UUID of its own. -/
theorem deduplicable_concat_iff {sent : List Sent} {m : Sent}
    (hfresh : ∀ m' ∈ sent, m'.uuid4 ≠ m.uuid4) (hsent : Deduplicable d sent) :
    Deduplicable d (sent ++ [m]) ↔ (∀ m' ∈ sent, m'.deliveryId ≠ m.deliveryId) ∧
      LeavesMeta (d.isoformat m.post.time) m.uuid4 m.post.payload := by
  have hbody : (∀ e ∈ (Dict.ofPairs m.post.payload).entries,
      (m.request d).body.get? e.1 = some e.2) ↔
        LeavesMeta (d.isoformat m.post.time) m.uuid4 m.post.payload := payloadWithMeta_complete_iff
  have hother : ∀ m' ∈ sent, m'.bodyId d ≠ m.bodyId d := fun m' hm' heq =>
    hfresh m' hm' (bodyId_eq_iff.mp heq)
  have hmem : m ∈ sent ++ [m] := List.mem_append_right sent List.mem_cons_self
  constructor
  · intro h
    refine ⟨fun m' hm' hid => hother m' hm' ?_, hbody.mp (h.complete m hmem)⟩
    exact h.same m' (List.mem_append_left _ hm') m hmem hid
  · rintro ⟨hfirst, hleaves⟩
    have hcases {P : Sent → Prop} (hP : ∀ m' ∈ sent, P m') (hm : P m) :
        ∀ m' ∈ sent ++ [m], P m' := by
      rw [List.forall_mem_append, List.forall_mem_singleton]
      exact ⟨hP, hm⟩
    constructor
    · refine hcases (fun a ha => hcases (hsent.same a ha) fun hid => ?_)
        (hcases (fun b hb hid => ?_) fun _ => rfl)
      · exact absurd hid (hfirst a ha)
      · exact absurd hid.symm (hfirst b hb)
    · refine hcases (fun a ha => hcases (hsent.different a ha) fun _ => hother a ha)
        (hcases (fun b hb _ => (hother b hb).symm) fun hid => absurd rfl hid)
    · exact hcases hsent.complete (hbody.mpr hleaves)

theorem sendStep_deduplicable_iff {s s' : Sending} {a : WebhookAction × Uuid}
    (hsent : Deduplicable d s.sent) (h : sendStep svc security s a = some s') :
    Deduplicable d s'.sent ↔ SendsFirst d s a := by
  obtain ⟨hfresh, -, hsent'⟩ := sendStep_eq_some h
  rw [hsent', SendsFirst]
  cases hposting : posting s.world a.1 with
  | none => simpa using hsent
  | some p =>
    simpa using deduplicable_concat_iff (m := ⟨p.1, p.2, a.2⟩) hfresh hsent

/-- From any state of the service, and over any attempts of any deliveries: at every moment
of a run the bodies sent are deduplicable exactly when each attempt that has got to its
POST was the first of its delivery to do so, with a payload that leaves the added fields
alone. -/
theorem deduplicable_iff (svc : Service) (security : RowSecurity) (d : Dispatcher)
    (w : WebhookWorld) (as : List (WebhookAction × Uuid)) :
    Along (sendStep svc security) (fun _ _ s => Deduplicable d s.sent) { world := w } as ↔
      Along (sendStep svc security) (fun s a _ => SendsFirst d s a) { world := w } as :=
  along_iff (I := fun s => Deduplicable d s.sent) (fun _ _ _ _ _ h => h)
    (fun _ _ _ hsent h => sendStep_deduplicable_iff hsent h) deduplicable_nil

/-! ## A second POST, and a payload with a timestamp -/

/-- Instants are seconds of one minute. -/
def minuteDispatcher : Dispatcher where
  isoformat now := "2026-01-01T00:00:" ++ toString (now + 10) ++ "+00:00"
  hmacSha256 key message := key ++ message

/-- The worker dies after the POST of its first attempt, and another one posts again. -/
def repeated : List (WebhookAction × Uuid) :=
  hookRun.map (·, .repdigit 8) ++
    [(.crash 0, .repdigit 9), (.attempt 1 (.repdigit 2) (.repdigit 7) 0, .repdigit 9),
      (.post 1, .repdigit 9)]

/-- One attempt, of a payload that says when something happened. -/
def stamped : List (WebhookAction × Uuid) :=
  [(.request (.repdigit 7) ⟨.repdigit 1, "secret", "nonce", true⟩
      (.createWebhook { url := "https://hooks.example/in" }), .repdigit 8),
    (.enqueue { hookDelivery with payload := [("timestamp", .str "2025-12-31T23:00:00+00:00")] },
      .repdigit 8),
    (.attempt 0 (.repdigit 2) (.repdigit 7) 0, .repdigit 8), (.post 0, .repdigit 8)]

/-- Two POSTs of one delivery with two values of `delivery_id`, and a POST that has lost
the timestamp of its payload. -/
theorem bodies_not_deduplicable :
    (∃ s, run (sendStep (hookService publicAnswer) .bypassed) {} repeated = some s ∧
      s.sent.map Sent.deliveryId = [.repdigit 2, .repdigit 2] ∧
      s.sent.map (Sent.bodyId minuteDispatcher) =
        [some (.str (Uuid.repdigit 8).str), some (.str (Uuid.repdigit 9).str)]) ∧
    (∃ s, run (sendStep (hookService publicAnswer) .bypassed) {} stamped = some s ∧
      s.sent.map (fun m => (m.request minuteDispatcher).body.get? "timestamp") =
        [some (.str "2026-01-01T00:00:10+00:00")]) ∧
    ∀ as ∈ [repeated, stamped], ¬ Along (sendStep (hookService publicAnswer) .bypassed)
      (fun _ _ s => Deduplicable minuteDispatcher s.sent) {} as := by
  refine ⟨?_, ?_, ?_⟩
  · have hend : (run (sendStep (hookService publicAnswer) .bypassed) {} repeated).any fun s =>
        s.sent.map Sent.deliveryId = [.repdigit 2, .repdigit 2] ∧
        s.sent.map (Sent.bodyId minuteDispatcher) =
          [some (.str (Uuid.repdigit 8).str), some (.str (Uuid.repdigit 9).str)] := by
      decide +kernel
    exact exists_of_any hend
  · have hend : (run (sendStep (hookService publicAnswer) .bypassed) {} stamped).any fun s =>
        s.sent.map (fun m => (m.request minuteDispatcher).body.get? "timestamp") =
          [some (.str "2026-01-01T00:00:10+00:00")] := by
      decide +kernel
    exact exists_of_any hend
  · decide +kernel

end Sutram.Workflow.DeliveryBodies
