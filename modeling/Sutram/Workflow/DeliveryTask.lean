/-
One run of the task `webhook.deliver`.

The run reads in a session, POSTs, and commits what it has recorded; an exception before
the commit rolls the session back.  The retry is published after the commit.  A run that
raises is acknowledged like one that returns, and nothing scans the pending rows, so a
row is taken up again by the message of its retry or not at all.
-/
import Sutram.Library.Exceptional
import Sutram.Workflow.Delivery

namespace Sutram.Workflow.DeliveryTask

open Exceptional Sutram.Core

/-! ## The task's surroundings -/

/-- A message of the queue, to be received from `eta` on. -/
structure Message where
  deliveryId : Uuid
  tenantId : Uuid
  retries : Nat
  eta : Nat
deriving DecidableEq

structure TaskWorld where
  now : Nat
  db : Database
  queue : List Message := []
  posts : List Post := []

inductive Exn where
  /-- An exception of the session, the decryption, the HTTP client or the commit. -/
  | raised
  /-- Celery's `Retry`, once the message is published. -/
  | retry
  | maxRetriesExceeded
  /-- Celery's `Reject`: the message could not be published. -/
  | reject
deriving DecidableEq, Repr

abbrev Task (α : Type) := Exceptional TaskWorld Exn α

/-- What a run meets.  `tried` says of an exception other than `httpx.RequestError` whether
the POST was under way. -/
structure Attempt where
  reads : Bool := true
  outcome : PostOutcome
  tried : Bool := false
  elapsed : Nat := 0
  commit : Reply Exn := .arrives
  publishes : Bool := true

variable (svc : Service) (security : RowSecurity) (a : Attempt)

/-- `max_retries` -/
def maxRetries : Nat := retryDelays.length

/-- `self.retry(countdown=…)` -/
def retry (message : Message) (countdown : Nat) : Task Unit := do
  if maxRetries < message.retries + 1 then throw .maxRetriesExceeded
  unless a.publishes do throw .reject
  modify fun w => { w with queue := w.queue ++
    [{ message with retries := message.retries + 1, eta := w.now + countdown }] }
  throw .retry

/-- `get_db_session_context`: the writes of the body are committed at its end. -/
def session {α : Type} (body : Task (α × (Database → Database))) : Task α := do
  let (value, flush) ← body
  remote a.commit fun w => (value, { w with db := flush w.db })

/-- A POST has been made. -/
def posted (delivery : WebhookDeliveryORM) (sub : WebhookSubscriptionORM) (secret : String)
    (w : TaskWorld) : TaskWorld :=
  { w with
    now := w.now + a.elapsed
    posts := w.posts ++ [⟨w.now, sub.url, secret, delivery.eventType, delivery.payload⟩] }

/-- The call of the dispatcher; a connection error is recorded as status 0. -/
def dispatch (delivery : WebhookDeliveryORM) (sub : WebhookSubscriptionORM) (secret : String) :
    Task (Nat × String) :=
  match a.outcome with
  | .response statusCode body => do
    modify (posted a delivery sub secret)
    return (statusCode, body)
  | .requestError message => do
    modify (posted a delivery sub secret)
    return (0, message)
  | .raised => do
    if a.tried then modify (posted a delivery sub secret)
    throw .raised

/-- The body of the session of `_deliver`: the countdown of a retry, and what it writes. -/
def deliverIn (message : Message) : Task (Option Nat × (Database → Database)) := do
  unless a.reads do throw .raised
  match beginDelivery svc security (← get).db message.deliveryId message.tenantId with
  | .nothing => return (none, id)
  | .failed delivery => return (none, updateDelivery delivery (markFailed delivery))
  | .raised => throw .raised
  | .post delivery sub secret =>
    let (statusCode, responseBody) ← dispatch a delivery sub secret
    return ((settle message.retries statusCode).2, updateDelivery delivery
      (recordAttempt delivery (← get).now message.retries statusCode responseBody))

/-- `_deliver` -/
def deliver (message : Message) : Task (Option Nat) := session a (deliverIn svc security a message)

def deliverWebhook (message : Message) : Task Unit := do
  match ← deliver svc security a message with
  | some countdown => retry a message countdown
  | none => pure ()

/-! ## What a run leaves -/

/-- The row is settled or waits for the retry that the run has scheduled, and a POST is
counted. -/
structure Concluded (message : Message) (before after : TaskWorld) : Prop where
  settled : ∀ row ∈ after.db.webhookDeliveries.rows, row.id = message.deliveryId →
    row.status = .pending → row.nextRetryAt.isSome ∧ ∃ eta, after.queue = before.queue ++
      [{ message with retries := message.retries + 1, eta }]
  counted : before.posts.length < after.posts.length →
    ∀ old ∈ before.db.webhookDeliveries.rows, ∀ row ∈ after.db.webhookDeliveries.rows,
      old.id = message.deliveryId → row.id = message.deliveryId →
        row.attemptCount = old.attemptCount + 1

/-- The subscription a delivery is for, if it is there and active. -/
def activeSubscription (db : Database) (tenantId : Uuid) (delivery : WebhookDeliveryORM) :
    Option WebhookSubscriptionORM :=
  (db.webhookSubscriptions.find? fun sub =>
    sub.id = delivery.subscriptionId && security.sees (some tenantId) sub.tenantId).filter
      fun sub => sub.active

/-- The status code and the text that an attempt records. -/
def recorded : PostOutcome → Option (Nat × String)
  | .response statusCode body => some (statusCode, body)
  | .requestError message => some (0, message)
  | .raised => none

/-- An attempt on an open delivery goes through: it sees the row, and either marks it failed
for want of a subscription, or has the outcome of its POST committed and, where that asks
for one, the retry published.  A row that has been marked failed before is settled
whatever happens, unless a POST goes uncounted. -/
def Through (db : Database) (message : Message) (delivery : WebhookDeliveryORM) : Prop :=
  if a.reads ∧ security.sees (some message.tenantId) delivery.tenantId then
    match activeSubscription security db message.tenantId delivery with
    | none => a.commit.performed ∨ delivery.status = .failed
    | some sub =>
      match svc.decryptSecret sub.secretEncrypted, recorded a.outcome with
      | none, _ => delivery.status = .failed
      | some _, none => delivery.status = .failed ∧ a.tried = false
      | some _, some (statusCode, _) => a.commit.performed ∧
          (¬(200 ≤ statusCode ∧ statusCode < 300) →
            message.retries + 1 < retryDelays.length → a.commit = .arrives ∧ a.publishes)
  else delivery.status = .failed

/-! ## The run -/

variable {svc security a} {message : Message} {w : TaskWorld} {delivery : WebhookDeliveryORM}

/-- What the first half comes to on an open delivery. -/
theorem beginDelivery_eq {db : Database} (hrow : delivery ∈ db.webhookDeliveries.rows)
    (hid : delivery.id = message.deliveryId)
    (hopen : delivery.status = .pending ∨ delivery.status = .failed) :
    beginDelivery svc security db message.deliveryId message.tenantId =
      if security.sees (some message.tenantId) delivery.tenantId then
        match activeSubscription security db message.tenantId delivery with
        | none => .failed delivery
        | some sub =>
          match svc.decryptSecret sub.secretEncrypted with
          | none => .raised
          | some secret => .post delivery sub secret
      else .nothing := by
  unfold beginDelivery
  by_cases hsees : security.sees (some message.tenantId) delivery.tenantId
  · have hfind : (db.webhookDeliveries.find? fun d =>
        d.id = message.deliveryId && security.sees (some message.tenantId) d.tenantId) =
          some delivery := by
      refine Table.find?_eq_some hrow (by simp [hid, hsees]) fun d hd => ?_
      simp only [Bool.and_eq_true, decide_eq_true_eq] at hd
      rw [hd.1, hid]
    have hstatus : ¬(delivery.status = .delivered ∨ delivery.status = .deadLettered) := by
      rcases hopen with h | h <;> simp [h]
    rw [hfind, if_pos hsees]
    dsimp only
    rw [if_neg hstatus, activeSubscription]
    cases db.webhookSubscriptions.find? fun sub =>
        sub.id = delivery.subscriptionId && security.sees (some message.tenantId) sub.tenantId with
    | none => rfl
    | some sub =>
      cases hactive : sub.active with
      | false => simp [Option.filter, hactive]
      | true =>
        have hfilter : (some sub).filter (fun sub => sub.active) = some sub := by
          simp [Option.filter, hactive]
        rw [hfilter]
        cases hsecret : svc.decryptSecret sub.secretEncrypted <;> simp [hactive, hsecret]
  · have hfind : (db.webhookDeliveries.find? fun d =>
        d.id = message.deliveryId && security.sees (some message.tenantId) d.tenantId) =
          none := by
      rw [Table.find?, List.find?_eq_none]
      intro d hd hfound
      simp only [Bool.and_eq_true, decide_eq_true_eq] at hfound
      obtain rfl := Table.eq_of_key_eq hd hrow (hfound.1.trans hid.symm)
      exact hsees hfound.2
    rw [hfind, if_neg hsees]

theorem session_ok {α : Type} {body : Task (α × (Database → Database))} {w' : TaskWorld}
    {value : α} {flush : Database → Database} (h : outcome body w = (.ok (value, flush), w')) :
    outcome (session a body) w =
      (match a.commit with
        | .arrives => .ok value
        | .raises _ e => .error e,
        if a.commit.performed then { w' with db := flush w'.db } else w') := by
  unfold session
  rw [outcome_bind_ok h]
  dsimp only
  rw [outcome_remote]
  cases a.commit <;> rfl

/-- The world after the commit. -/
def committed (a : Attempt) (flush : Database → Database) (w : TaskWorld) : TaskWorld :=
  if a.commit.performed then { w with db := flush w.db } else w

/-- The world a run leaves, by the end of its session's body. -/
def left (a : Attempt) (message : Message) :
    Except Exn (Option Nat × (Database → Database)) × TaskWorld → TaskWorld
  | (.error _, w) => w
  | (.ok (none, flush), w) => committed a flush w
  | (.ok (some countdown, flush), w) =>
    let w' := committed a flush w
    if a.commit = .arrives ∧ a.publishes ∧ message.retries < maxRetries then
      { w' with queue := w'.queue ++
        [{ message with retries := message.retries + 1, eta := w'.now + countdown }] }
    else w'

@[simp] theorem committed_queue (flush : Database → Database) :
    (committed a flush w).queue = w.queue := by
  unfold committed
  split <;> rfl

@[simp] theorem committed_posts (flush : Database → Database) :
    (committed a flush w).posts = w.posts := by
  unfold committed
  split <;> rfl

/-- The rows and the POSTs do not depend on the retry. -/
theorem left_db (a : Attempt) (message : Message) (w : TaskWorld) (value : Option Nat)
    (flush : Database → Database) :
    (left a message (.ok (value, flush), w)).db = (committed a flush w).db ∧
      (left a message (.ok (value, flush), w)).posts = w.posts := by
  cases value with
  | none => exact ⟨rfl, committed_posts flush⟩
  | some countdown =>
    unfold left
    dsimp only
    split <;> exact ⟨rfl, committed_posts flush⟩

theorem retry_world (a : Attempt) (message : Message) (w : TaskWorld) (countdown : Nat) :
    (outcome (retry a message countdown) w).2 =
      if a.publishes ∧ message.retries < maxRetries then
        { w with queue := w.queue ++
          [{ message with retries := message.retries + 1, eta := w.now + countdown }] }
      else w := by
  unfold retry
  by_cases hretries : maxRetries < message.retries + 1
  · have hfull : ¬(a.publishes ∧ message.retries < maxRetries) := fun h => by omega
    rw [if_pos hretries, if_neg hfull]
    rfl
  · rw [if_neg hretries]
    have hlt : message.retries < maxRetries := by omega
    cases hpublishes : a.publishes with
    | false => simp
    | true =>
      simp only [hlt, and_self, if_true]
      rfl

theorem left_eq : (outcome (deliverWebhook svc security a message) w).2 =
    left a message (outcome (deliverIn svc security a message) w) := by
  unfold deliverWebhook deliver
  obtain ⟨r, w', hbody⟩ : ∃ r w', outcome (deliverIn svc security a message) w = (r, w') :=
    ⟨_, _, rfl⟩
  rw [hbody]
  cases r with
  | error e =>
    have hsession : outcome (session a (deliverIn svc security a message)) w = (.error e, w') :=
      outcome_bind_error hbody
    rw [outcome_bind_error hsession]
    rfl
  | ok result =>
    obtain ⟨value, flush⟩ := result
    have hsession := session_ok (a := a) hbody
    cases hcommit : a.commit with
    | raises performed e =>
      rw [hcommit] at hsession
      rw [outcome_bind_error hsession]
      cases value <;> simp [left, committed, hcommit]
    | arrives =>
      rw [hcommit] at hsession
      rw [outcome_bind_ok hsession]
      cases value with
      | none => simp [left, committed, hcommit, Reply.performed]
      | some countdown =>
        have hretry := retry_world a message (committed a flush w') countdown
        simp only [left, hcommit, true_and]
        rw [← hretry]
        simp [committed, hcommit, Reply.performed]

theorem outcome_dispatch (a : Attempt) (delivery : WebhookDeliveryORM)
    (sub : WebhookSubscriptionORM) (secret : String) (w : TaskWorld) :
    outcome (dispatch a delivery sub secret) w =
      match recorded a.outcome with
      | some result => (.ok result, posted a delivery sub secret w)
      | none => (.error .raised, if a.tried then posted a delivery sub secret w else w) := by
  unfold dispatch
  cases a.outcome with
  | response statusCode body => rfl
  | requestError text => rfl
  | raised =>
    simp only [recorded]
    cases a.tried <;> rfl

theorem outcome_deliverIn_unread (hreads : a.reads = false) :
    outcome (deliverIn svc security a message) w = (.error .raised, w) := by
  unfold deliverIn
  rw [hreads]
  rfl

theorem outcome_deliverIn (hreads : a.reads) :
    outcome (deliverIn svc security a message) w =
      match beginDelivery svc security w.db message.deliveryId message.tenantId with
      | .nothing => (.ok (none, id), w)
      | .failed d => (.ok (none, updateDelivery d (markFailed d)), w)
      | .raised => (.error .raised, w)
      | .post d sub secret =>
        match recorded a.outcome with
        | none => (.error .raised, if a.tried then posted a d sub secret w else w)
        | some (statusCode, body) =>
          (.ok ((settle message.retries statusCode).2, updateDelivery d
            (recordAttempt d (posted a d sub secret w).now message.retries statusCode body)),
              posted a d sub secret w) := by
  have hget : outcome (get : Task TaskWorld) w = (.ok w, w) := rfl
  unfold deliverIn
  rw [hreads]
  simp only [if_true]
  rw [outcome_bind_ok hget]
  cases beginDelivery svc security w.db message.deliveryId message.tenantId with
  | post d sub secret =>
    have hdispatch := outcome_dispatch a d sub secret w
    cases hrecorded : recorded a.outcome with
    | none =>
      rw [hrecorded] at hdispatch
      exact outcome_bind_error hdispatch
    | some result =>
      rw [hrecorded] at hdispatch
      exact outcome_bind_ok hdispatch
  | _ => rfl

/-! ## What it leaves of the row -/

/-- A run is judged by the one row with the message's id. -/
theorem concluded_iff_row {before after : TaskWorld} {row : WebhookDeliveryORM}
    (hrow : delivery ∈ before.db.webhookDeliveries.rows) (hid : delivery.id = message.deliveryId)
    (hafter : ∀ r, r ∈ after.db.webhookDeliveries.rows ∧ r.id = message.deliveryId ↔
      r = row) :
    Concluded message before after ↔
      (row.status = .pending → row.nextRetryAt.isSome ∧ ∃ eta, after.queue = before.queue ++
        [{ message with retries := message.retries + 1, eta }]) ∧
      (before.posts.length < after.posts.length →
        row.attemptCount = delivery.attemptCount + 1) := by
  have hself := (hafter row).mpr rfl
  constructor
  · intro h
    exact ⟨h.settled row hself.1 hself.2,
      fun hposts => h.counted hposts delivery hrow row hself.1 hid hself.2⟩
  · rintro ⟨hsettled, hcounted⟩
    refine ⟨fun r hr hrid => ?_, fun hposts old hold r hr holdid hrid => ?_⟩
    · obtain rfl := (hafter r).mp ⟨hr, hrid⟩
      exact hsettled
    · obtain rfl := (hafter r).mp ⟨hr, hrid⟩
      obtain rfl := Table.eq_of_key_eq hold hrow (holdid.trans hid.symm)
      exact hcounted hposts

/-- A run that has written nothing and scheduled nothing. -/
theorem concluded_unwritten {w' : TaskWorld} (hrow : delivery ∈ w.db.webhookDeliveries.rows)
    (hid : delivery.id = message.deliveryId)
    (hopen : delivery.status = .pending ∨ delivery.status = .failed) (hdb : w'.db = w.db)
    (hqueue : w'.queue = w.queue) :
    Concluded message w w' ↔
      delivery.status = .failed ∧ w'.posts.length ≤ w.posts.length := by
  have hafter : ∀ r, r ∈ w'.db.webhookDeliveries.rows ∧ r.id = message.deliveryId ↔
      r = delivery := by
    intro r
    rw [hdb]
    constructor
    · rintro ⟨hr, hrid⟩
      exact Table.eq_of_key_eq hr hrow (hrid.trans hid.symm)
    · rintro rfl
      exact ⟨hrow, hid⟩
  rw [concluded_iff_row hrow hid hafter, hqueue]
  rcases hopen with h | h <;> simp [h]

theorem mem_updateDelivery {db : Database} (hrow : delivery ∈ db.webhookDeliveries.rows)
    (current r : WebhookDeliveryORM) :
    r ∈ (updateDelivery delivery current db).webhookDeliveries.rows ∧ r.id = delivery.id ↔
      r = delivery.patch current delivery := by
  simp only [updateDelivery, Table.modify, List.mem_map]
  constructor
  · rintro ⟨⟨old, hold, rfl⟩, hid⟩
    split at hid
    · rename_i holdid
      rw [if_pos holdid, Table.eq_of_key_eq hold hrow holdid]
    · rename_i holdid
      exact absurd hid holdid
  · rintro rfl
    exact ⟨⟨delivery, hrow, if_pos rfl⟩, delivery.patch_id current delivery⟩

theorem settle_retried {attempt statusCode : Nat}
    (hcode : ¬(200 ≤ statusCode ∧ statusCode < 300))
    (hattempt : attempt + 1 < retryDelays.length) :
    ∃ countdown, settle attempt statusCode = (.pending, some countdown) := by
  refine ⟨retryDelays[attempt], ?_⟩
  rw [settle, if_neg hcode, if_neg (by omega)]
  simp

theorem settle_final (attempt statusCode : Nat)
    (h : ¬(200 ≤ statusCode ∧ statusCode < 300) → ¬attempt + 1 < retryDelays.length) :
    (settle attempt statusCode).1 ≠ .pending ∧ (settle attempt statusCode).2 = none := by
  unfold settle
  split
  · simp
  · rename_i hcode
    have hattempt := h hcode
    rw [if_pos (by omega)]
    simp

section Recorded

variable {sub : WebhookSubscriptionORM} {secret : String}

/-- Nothing is written, and the POST is not counted. -/
theorem not_concluded_uncommitted (value : Option Nat) (flush : Database → Database)
    (hperformed : a.commit.performed = false)
    (hrow : delivery ∈ w.db.webhookDeliveries.rows) (hid : delivery.id = message.deliveryId)
    (hopen : delivery.status = .pending ∨ delivery.status = .failed) :
    ¬Concluded message w
      (left a message (.ok (value, flush), posted a delivery sub secret w)) := by
  obtain ⟨hdb, hposts⟩ := left_db a message (posted a delivery sub secret w) value flush
  have hcommit : a.commit ≠ .arrives := by
    intro h
    rw [h] at hperformed
    cases hperformed
  have hqueue : (left a message
      (.ok (value, flush), posted a delivery sub secret w)).queue = w.queue := by
    cases value <;> simp [left, hcommit, posted]
  rw [concluded_unwritten hrow hid hopen (by rw [hdb]; simp [committed, hperformed, posted])
    hqueue, hposts]
  simp [posted]

/-- A committed attempt that asks for a retry is concluded by its publication. -/
theorem concluded_retried {statusCode : Nat} {row : WebhookDeliveryORM}
    {flush : Database → Database} (hcode : ¬(200 ≤ statusCode ∧ statusCode < 300))
    (hattempt : message.retries + 1 < retryDelays.length) (hnext : row.nextRetryAt.isSome)
    (hpending : row.status = .pending) :
    (row.status = .pending → row.nextRetryAt.isSome ∧
        ∃ eta, (left a message (.ok ((settle message.retries statusCode).2, flush),
          posted a delivery sub secret w)).queue =
            w.queue ++ [{ message with retries := message.retries + 1, eta }]) ↔
      a.commit = .arrives ∧ a.publishes := by
  obtain ⟨countdown, hsettle⟩ := settle_retried hcode hattempt
  have hlt : message.retries < maxRetries := Nat.lt_of_succ_lt hattempt
  rw [hsettle]
  simp only [left]
  constructor
  · intro hsettled
    obtain ⟨-, eta, hqueue⟩ := hsettled hpending
    by_contra hlost
    rw [if_neg fun h => hlost ⟨h.1, h.2.1⟩, committed_queue] at hqueue
    simp [posted] at hqueue
  · rintro ⟨harrives, hpublishes⟩ -
    refine ⟨hnext, (committed a flush (posted a delivery sub secret w)).now + countdown, ?_⟩
    rw [if_pos ⟨harrives, hpublishes, hlt⟩]
    simp only [committed_queue]
    rfl

/-- The run whose POST has an outcome to record. -/
theorem concluded_recorded {body : String} {statusCode : Nat}
    (hrow : delivery ∈ w.db.webhookDeliveries.rows) (hid : delivery.id = message.deliveryId)
    (hopen : delivery.status = .pending ∨ delivery.status = .failed) :
    Concluded message w (left a message
        (.ok ((settle message.retries statusCode).2, updateDelivery delivery
          (recordAttempt delivery (posted a delivery sub secret w).now message.retries statusCode
            body)), posted a delivery sub secret w)) ↔
      a.commit.performed ∧ (¬(200 ≤ statusCode ∧ statusCode < 300) →
        message.retries + 1 < retryDelays.length → a.commit = .arrives ∧ a.publishes) := by
  generalize hflush : updateDelivery delivery (recordAttempt delivery
    (posted a delivery sub secret w).now message.retries statusCode body) = flush
  obtain ⟨hdb, hposts⟩ := left_db a message (posted a delivery sub secret w)
    (settle message.retries statusCode).2 flush
  cases hperformed : a.commit.performed with
  | false =>
    refine iff_of_false (not_concluded_uncommitted _ flush hperformed hrow hid hopen) ?_
    exact fun h => Bool.false_ne_true h.1
  | true =>
    have hafter := mem_updateDelivery hrow (recordAttempt delivery
      (posted a delivery sub secret w).now message.retries statusCode body)
    rw [hflush, hid, WebhookDeliveryORM.patch_recordAttempt] at hafter
    have hwritten : (committed a flush (posted a delivery sub secret w)).db = flush w.db := by
      simp [committed, hperformed, posted]
    rw [← hwritten, ← hdb] at hafter
    rw [concluded_iff_row hrow hid hafter, hposts]
    by_cases hretry : ¬(200 ≤ statusCode ∧ statusCode < 300) ∧
        message.retries + 1 < retryDelays.length
    · obtain ⟨countdown, hsettle⟩ := settle_retried hretry.1 hretry.2
      rw [concluded_retried hretry.1 hretry.2 (by simp [recordAttempt, hsettle])
        (by simp [recordAttempt, hsettle])]
      constructor
      · rintro ⟨hpublished, -⟩
        exact ⟨rfl, fun _ _ => hpublished⟩
      · rintro ⟨-, hpublished⟩
        exact ⟨hpublished hretry.1 hretry.2, fun _ => rfl⟩
    · have hfinal := settle_final message.retries statusCode
        fun hcode hlt => hretry ⟨hcode, hlt⟩
      refine iff_of_true ⟨fun hpending => absurd hpending hfinal.1, fun _ => rfl⟩ ⟨rfl, ?_⟩
      exact fun hcode hlt => absurd ⟨hcode, hlt⟩ hretry

end Recorded

/-- The run that marks the delivery failed. -/
theorem concluded_failed (hrow : delivery ∈ w.db.webhookDeliveries.rows)
    (hid : delivery.id = message.deliveryId)
    (hopen : delivery.status = .pending ∨ delivery.status = .failed) :
    Concluded message w
        (committed a (updateDelivery delivery (markFailed delivery)) w) ↔
      a.commit.performed ∨ delivery.status = .failed := by
  cases hperformed : a.commit.performed with
  | false =>
    have hsame : committed a (updateDelivery delivery (markFailed delivery)) w = w := by
      simp [committed, hperformed]
    rw [hsame, concluded_unwritten hrow hid hopen rfl rfl]
    simp
  | true =>
    have hafter := mem_updateDelivery hrow (markFailed delivery)
    rw [hid, WebhookDeliveryORM.patch_markFailed] at hafter
    have hwritten : committed a (updateDelivery delivery (markFailed delivery)) w =
        { w with db := updateDelivery delivery (markFailed delivery) w.db } := by
      simp [committed, hperformed]
    rw [hwritten, concluded_iff_row hrow hid hafter]
    simp [markFailed]

/-- A run on an open delivery leaves it settled or waiting for the retry it has scheduled,
with its POST counted, exactly when the attempt goes through. -/
theorem concluded_iff (svc : Service) (security : RowSecurity) (a : Attempt) (message : Message)
    (w : TaskWorld) (delivery : WebhookDeliveryORM)
    (hrow : delivery ∈ w.db.webhookDeliveries.rows) (hid : delivery.id = message.deliveryId)
    (hopen : delivery.status ≠ .delivered ∧ delivery.status ≠ .deadLettered) :
    Concluded message w (outcome (deliverWebhook svc security a message) w).2 ↔
      Through svc security a w.db message delivery := by
  have hstatus : delivery.status = .pending ∨ delivery.status = .failed := by
    cases h : delivery.status <;> simp [h] at hopen ⊢
  have hunwritten : ∀ w', w'.db = w.db → w'.queue = w.queue → (Concluded message w w' ↔
      delivery.status = .failed ∧ w'.posts.length ≤ w.posts.length) := fun w' hdb hqueue =>
    concluded_unwritten hrow hid hstatus hdb hqueue
  rw [left_eq, Through]
  cases hreads : a.reads with
  | false =>
    rw [outcome_deliverIn_unread hreads]
    simpa [left] using hunwritten w rfl rfl
  | true =>
    rw [outcome_deliverIn hreads, beginDelivery_eq hrow hid hstatus]
    cases hsees : security.sees (some message.tenantId) delivery.tenantId with
    | false =>
      have hsame : committed a id w = w := by
        unfold committed
        split <;> rfl
      simpa [left, hsame] using hunwritten w rfl rfl
    | true =>
      simp only [if_true, and_self]
      cases activeSubscription security w.db message.tenantId delivery with
      | none => exact concluded_failed hrow hid hstatus
      | some sub =>
        dsimp only
        cases svc.decryptSecret sub.secretEncrypted with
        | none => simpa [left] using hunwritten w rfl rfl
        | some secret =>
          cases hrecorded : recorded a.outcome with
          | some result => exact concluded_recorded hrow hid hstatus
          | none =>
            cases htried : a.tried with
            | false => simpa [left] using hunwritten w rfl rfl
            | true =>
              simp only [left, if_true]
              rw [hunwritten (posted a delivery sub secret w) rfl rfl]
              simp [posted]

/-! ## Two runs -/

def hookSubscription : WebhookSubscriptionORM where
  id := .repdigit 1
  tenantId := .repdigit 7
  url := "https://hooks.example/in"
  secretEncrypted := "secret"
  events := ["execution.completed"]
  active := true

def hookWorld : TaskWorld where
  now := 1
  db :=
    { webhookSubscriptions := ⟨[hookSubscription], by decide⟩
      webhookDeliveries := ⟨[hookDelivery], by decide⟩ }

def hookMessage : Message := ⟨.repdigit 2, .repdigit 7, 0, 1⟩

/-- The key of the secrets has been changed. -/
def rekeyedService : Service :=
  { hookService publicAnswer with decryptSecret := fun _ => none }

theorem concluded_of_timeout :
    Concluded hookMessage hookWorld (outcome (deliverWebhook (hookService publicAnswer)
      .bypassed { outcome := .requestError "timed out" } hookMessage) hookWorld).2 := by
  refine (concluded_iff (hookService publicAnswer) .bypassed
    { outcome := .requestError "timed out" } hookMessage hookWorld hookDelivery
    List.mem_cons_self rfl (by decide)).mpr ?_
  have hactive : activeSubscription .bypassed hookWorld.db hookMessage.tenantId hookDelivery =
      some hookSubscription := by decide +kernel
  rw [Through, if_pos ⟨rfl, rfl⟩, hactive]
  exact ⟨rfl, fun _ _ => ⟨rfl, rfl⟩⟩

theorem undecryptable_left_pending :
    let after := (outcome (deliverWebhook rekeyedService .bypassed
      { outcome := .response 200 "ok" } hookMessage) hookWorld).2
    hookDelivery ∈ after.db.webhookDeliveries.rows ∧ hookDelivery.status = .pending ∧
      after.queue = [] ∧ ¬Concluded hookMessage hookWorld after := by
  have hqueue : (outcome (deliverWebhook rekeyedService .bypassed
      { outcome := .response 200 "ok" } hookMessage) hookWorld).2.queue = [] := by
    decide +kernel
  have hrow : hookDelivery ∈ (outcome (deliverWebhook rekeyedService .bypassed
      { outcome := .response 200 "ok" } hookMessage) hookWorld).2.db.webhookDeliveries.rows := by
    decide +kernel
  refine ⟨hrow, rfl, hqueue, fun h => ?_⟩
  obtain ⟨hnext, -⟩ := h.settled hookDelivery hrow rfl rfl
  cases hnext

end Sutram.Workflow.DeliveryTask
