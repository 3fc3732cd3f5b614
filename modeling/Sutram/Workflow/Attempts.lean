/-
Attempts of deliveries over time.

Two counters follow a delivery: `attempt_count` in its row, and the retry number of its
message in the queue.  A run of the task advances the first by its commit and the second
by the message it publishes after it.  A worker may die anywhere in between, and then its
message is delivered again with the number it had.
-/
import Mathlib.Data.List.Count
import Mathlib.Logic.Function.Basic
import Sutram.Library.Ghost
import Sutram.Library.Token
import Sutram.Workflow.DeliveryTask

namespace Sutram.Workflow.Attempts

open DeliveryTask Exceptional Runs Sutram.Core

/-! ## Workers -/

/-- What a session is going to write. -/
inductive Write where
  | none
  | failed (delivery : WebhookDeliveryORM)
  | record (delivery : WebhookDeliveryORM) (now statusCode : Nat) (responseBody : String)

/-- The next operation of a run.  `due` says that the run may have committed an attempt that
asks for a retry. -/
inductive Stage where
  | read
  | post (delivery : WebhookDeliveryORM) (sub : WebhookSubscriptionORM) (secret : String)
  /-- The POST is out. -/
  | await (delivery : WebhookDeliveryORM)
  | commit (write : Write) (retryDelay : Option Nat)
  | publish (countdown : Nat)
  | ack (due : Bool)

inductive Worker where
  | idle
  | busy (message : Message) (stage : Stage)

structure State where
  world : TaskWorld
  workers : Nat → Worker

namespace State

/-- No delivery has been enqueued. -/
def initial (db : Database) (now : Nat) : State where
  world := { now, db := { db with webhookDeliveries := .empty } }
  workers _ := .idle

def set (s : State) (i : Nat) (k : Worker) : State :=
  { s with workers := Function.update s.workers i k }

def rows (s : State) : List WebhookDeliveryORM := s.world.db.webhookDeliveries.rows

end State

inductive Action where
  /-- Any request to the routes. -/
  | request (tenantId : Uuid) (draws : Draws) (r : RouteRequest)
  /-- A new delivery row is added and its task sent. -/
  | enqueue (delivery : WebhookDeliveryORM)
  | receive (i : Nat) (message : Message)
  | read (i : Nat) (succeeds : Bool)
  | post (i : Nat)
  /-- The dispatcher raises before its POST. -/
  | raise (i : Nat)
  | respond (i : Nat) (outcome : PostOutcome)
  | commit (i : Nat) (reply : Reply Exn)
  | publish (i : Nat) (performed : Bool)
  | ack (i : Nat)
  /-- The worker dies and its message is delivered again. -/
  | crash (i : Nat)
  | tick

/-! ## Steps -/

variable (svc : Service) (security : RowSecurity)

def enqueue (s : State) (delivery : WebhookDeliveryORM) : Option State :=
  if delivery.status = .pending ∧ delivery.attemptCount = 0 ∧
      (s.world.db.webhookSubscriptions.find? fun sub =>
        sub.id = delivery.subscriptionId).isSome then
    (s.world.db.webhookDeliveries.insert delivery).map fun webhookDeliveries =>
      { s with world := { s.world with
        db := { s.world.db with webhookDeliveries }
        queue := s.world.queue ++ [⟨delivery.id, delivery.tenantId, 0, s.world.now⟩] } }
  else none

def receive (s : State) (i : Nat) (message : Message) : Option State :=
  match s.workers i with
  | .idle =>
    if message ∈ s.world.queue ∧ message.eta ≤ s.world.now then
      some { s.set i (.busy message .read) with
        world := { s.world with queue := s.world.queue.erase message } }
    else none
  | _ => none

/-- The stage after the first half of `_deliver`. -/
def Stage.ofBegun : Begun → Stage
  | .nothing => commit .none none
  | .failed delivery => commit (.failed delivery) none
  | .raised => ack false
  | .post delivery sub secret => post delivery sub secret

def read (s : State) (i : Nat) (succeeds : Bool) : Option State :=
  match s.workers i with
  | .busy message .read =>
    some (s.set i (.busy message
      (if succeeds then .ofBegun
        (beginDelivery svc security s.world.db message.deliveryId message.tenantId)
      else .ack false)))
  | _ => none

def post (s : State) (i : Nat) : Option State :=
  match s.workers i with
  | .busy message (.post delivery sub secret) =>
    some { s.set i (.busy message (.await delivery)) with
      world := { s.world with posts := s.world.posts ++
        [⟨s.world.now, sub.url, secret, delivery.eventType, delivery.payload⟩] } }
  | _ => none

def raise (s : State) (i : Nat) : Option State :=
  match s.workers i with
  | .busy message (.post _ _ _) => some (s.set i (.busy message (.ack false)))
  | _ => none

def respond (s : State) (i : Nat) (outcome : PostOutcome) : Option State :=
  match s.workers i with
  | .busy message (.await delivery) =>
    match recorded outcome with
    | some (statusCode, responseBody) =>
      some (s.set i (.busy message
        (.commit (.record delivery s.world.now statusCode responseBody)
          (settle message.retries statusCode).2)))
    | none => some (s.set i (.busy message (.ack false)))
  | _ => none

/-- The UPDATE that a session's writes come to, under the retry number of its message. -/
def Write.flush (retries : Nat) : Write → Database → Database
  | none => id
  | failed delivery => updateDelivery delivery (markFailed delivery)
  | record delivery now statusCode responseBody =>
    updateDelivery delivery (recordAttempt delivery now retries statusCode responseBody)

/-- A commit whose reply is lost raises, and the run ends without its retry. -/
def Stage.afterCommit : Reply Exn → Option Nat → Stage
  | .arrives, some countdown => publish countdown
  | .arrives, none => ack false
  | .raises performed _, retryDelay => ack (performed && retryDelay.isSome)

def commit (s : State) (i : Nat) (reply : Reply Exn) : Option State :=
  match s.workers i with
  | .busy message (.commit write retryDelay) =>
    some { s.set i (.busy message (.afterCommit reply retryDelay)) with
      world := if reply.performed then
          { s.world with db := write.flush message.retries s.world.db }
        else s.world }
  | _ => none

def publish (s : State) (i : Nat) (performed : Bool) : Option State :=
  match s.workers i with
  | .busy message (.publish countdown) =>
    some { s.set i (.busy message (.ack true)) with
      world := if performed ∧ message.retries < maxRetries then
          { s.world with queue := s.world.queue ++
            [{ message with retries := message.retries + 1, eta := s.world.now + countdown }] }
        else s.world }
  | _ => none

def ack (s : State) (i : Nat) : Option State :=
  match s.workers i with
  | .busy _ (.ack _) => some (s.set i .idle)
  | _ => none

def crash (s : State) (i : Nat) : Option State :=
  match s.workers i with
  | .busy message _ =>
    some { s.set i .idle with
      world := { s.world with queue := s.world.queue ++ [message] } }
  | .idle => none

def step (s : State) : Action → Option State
  | .request tenantId draws r =>
    some { s with world := { s.world with
      db := (Workflow.respond svc s.world.now tenantId draws s.world.db r).1 } }
  | .enqueue delivery => enqueue s delivery
  | .receive i message => receive s i message
  | .read i succeeds => read svc security s i succeeds
  | .post i => post s i
  | .raise i => raise s i
  | .respond i outcome => respond s i outcome
  | .commit i reply => commit s i reply
  | .publish i performed => publish s i performed
  | .ack i => ack s i
  | .crash i => crash s i
  | .tick => some { s with world := { s.world with now := s.world.now + 1 } }

/-! ## A run of the task -/

/-- What a worker does from its session's commit on. -/
def finish (a : Attempt) (i : Nat) (retryDelay : Option Nat) : List Action :=
  .commit i a.commit ::
    if a.commit = .arrives ∧ retryDelay.isSome then [.publish i a.publishes, .ack i] else [.ack i]

/-- The operations of a worker that runs the task from a message on. -/
def operations (a : Attempt) (i : Nat) (message : Message) (db : Database) : List Action :=
  .receive i message :: .read i a.reads ::
    if a.reads then
      match beginDelivery svc security db message.deliveryId message.tenantId with
      | .raised => [.ack i]
      | .nothing | .failed _ => finish a i none
      | .post _ _ _ =>
        match recorded a.outcome with
        | none =>
          if a.tried then
            .post i :: (List.replicate a.elapsed .tick ++ [.respond i a.outcome, .ack i])
          else [.raise i, .ack i]
        | some (statusCode, _) =>
          .post i :: (List.replicate a.elapsed .tick ++ .respond i a.outcome ::
            finish a i (settle message.retries statusCode).2)
    else [.ack i]

variable {svc security}

theorem run_ticks (s : State) (n : Nat) (as : List Action) :
    run (step svc security) s (List.replicate n .tick ++ as) =
      run (step svc security) { s with world := { s.world with now := s.world.now + n } } as := by
  induction n generalizing s with
  | zero => rfl
  | succ n ih =>
    rw [List.replicate_succ, List.cons_append, run_cons_some rfl, ih]
    simp only [Nat.add_assoc, Nat.add_comm 1 n]

/-- The state in which one worker has come to a stage, and the world with it. -/
def State.reach (s : State) (i : Nat) (message : Message) (stage : Stage) (w : TaskWorld) :
    State :=
  { s.set i (.busy message stage) with world := w }

section Reach

variable {s : State} {i : Nat} {message : Message} {w : TaskWorld}

@[simp] theorem reach_worker (stage : Stage) :
    (s.reach i message stage w).workers i = .busy message stage := by
  simp [State.reach, State.set]

@[simp] theorem reach_set (stage stage' : Stage) :
    (s.reach i message stage w).set i (.busy message stage') = s.reach i message stage' w := by
  simp [State.reach, State.set]

theorem reach_back (hidle : s.workers i = .idle) (message : Message) (stage : Stage)
    (w : TaskWorld) :
    Function.update (s.reach i message stage w).workers i .idle = s.workers := by
  simp only [State.reach, State.set]
  rw [Function.update_idem, ← hidle, Function.update_eq_self]

theorem run_ack (hidle : s.workers i = .idle) (due : Bool) :
    run (step svc security) (s.reach i message (.ack due) w) [.ack i] =
      some { s with world := w } := by
  have hback := reach_back hidle message (.ack due) w
  simp only [run, step, ack, reach_worker, State.set, hback]
  rfl

theorem step_commit (a : Attempt) (write : Write) (retryDelay : Option Nat) :
    step svc security (s.reach i message (.commit write retryDelay) w) (.commit i a.commit) =
      some (s.reach i message (.afterCommit a.commit retryDelay)
        (committed a (write.flush message.retries) w)) := by
  simp only [step, commit, reach_worker, reach_set]
  rfl

theorem run_finish (hidle : s.workers i = .idle) (a : Attempt) (write : Write)
    (retryDelay : Option Nat) :
    run (step svc security) (s.reach i message (.commit write retryDelay) w)
        (finish a i retryDelay) =
      some { s with
        world := left a message (.ok (retryDelay, write.flush message.retries), w) } := by
  rw [finish, run_cons_some (step_commit a write retryDelay)]
  cases hcommit : a.commit with
  | raises performed e =>
    rw [if_neg (by simp)]
    refine (run_ack hidle _).trans ?_
    cases retryDelay <;> simp [left, hcommit]
  | arrives =>
    cases retryDelay with
    | none => exact run_ack hidle false
    | some countdown =>
      have hpublish : step svc security (s.reach i message (.publish countdown)
          (committed a (write.flush message.retries) w)) (.publish i a.publishes) =
            some (s.reach i message (.ack true)
              (left a message (.ok (some countdown, write.flush message.retries), w))) := by
        simp only [step, publish, reach_worker, reach_set, left, hcommit, true_and]
        rfl
      rw [if_pos ⟨rfl, rfl⟩]
      exact (run_cons_some hpublish _).trans (run_ack hidle true)

end Reach

/-- A worker that is left alone does what the task does. -/
theorem run_operations {s : State} {i : Nat} {message : Message} (a : Attempt)
    (hidle : s.workers i = .idle) (hmessage : message ∈ s.world.queue)
    (heta : message.eta ≤ s.world.now) :
    run (step svc security) s (operations svc security a i message s.world.db) =
      some { s with world := (outcome (deliverWebhook svc security a message)
        { s.world with queue := s.world.queue.erase message }).2 } := by
  have hreceive : step svc security s (.receive i message) =
      some (s.reach i message .read
        { s.world with queue := s.world.queue.erase message }) := by
    simp only [step, receive, hidle, hmessage, heta, and_self, if_true]
    rfl
  have hread : step svc security (s.reach i message .read
      { s.world with queue := s.world.queue.erase message }) (.read i a.reads) =
        some (s.reach i message (if a.reads then .ofBegun (beginDelivery svc security s.world.db
          message.deliveryId message.tenantId) else .ack false)
            { s.world with queue := s.world.queue.erase message }) := by
    simp only [step, read, reach_worker, reach_set]
    rfl
  rw [left_eq, operations, run_cons_some hreceive, run_cons_some hread]
  generalize hw : { s.world with queue := s.world.queue.erase message } = w
  have hdb : w.db = s.world.db := by rw [← hw]
  cases hreads : a.reads with
  | false =>
    rw [outcome_deliverIn_unread hreads]
    exact run_ack hidle false
  | true =>
    rw [outcome_deliverIn hreads, hdb]
    simp only [if_true]
    cases beginDelivery svc security s.world.db message.deliveryId message.tenantId with
    | nothing => exact run_finish hidle a .none none
    | failed delivery => exact run_finish hidle a (.failed delivery) none
    | raised => exact run_ack hidle false
    | post delivery sub secret =>
      have hpost : step svc security (s.reach i message (.post delivery sub secret) w)
          (.post i) = some (s.reach i message (.await delivery)
            { w with posts := (posted a delivery sub secret w).posts }) := by
        simp only [step, post, reach_worker, reach_set]
        rfl
      have hticks : ∀ as, run (step svc security) (s.reach i message (.await delivery)
          { w with posts := (posted a delivery sub secret w).posts })
            (List.replicate a.elapsed .tick ++ as) =
          run (step svc security)
            (s.reach i message (.await delivery) (posted a delivery sub secret w)) as := by
        intro as
        rw [run_ticks]
        rfl
      cases hrecorded : recorded a.outcome with
      | some result =>
        have hrespond : step svc security (s.reach i message (.await delivery)
            (posted a delivery sub secret w)) (.respond i a.outcome) =
              some (s.reach i message (.commit (.record delivery
                (posted a delivery sub secret w).now result.1 result.2)
                  (settle message.retries result.1).2) (posted a delivery sub secret w)) := by
          simp only [step, respond, reach_worker, reach_set, hrecorded]
          rfl
        dsimp only [Stage.ofBegun]
        rw [run_cons_some hpost, hticks, run_cons_some hrespond, run_finish hidle]
        rfl
      | none =>
        cases htried : a.tried with
        | true =>
          have hrespond : step svc security (s.reach i message (.await delivery)
              (posted a delivery sub secret w)) (.respond i a.outcome) =
                some (s.reach i message (.ack false) (posted a delivery sub secret w)) := by
            simp only [step, respond, reach_worker, reach_set, hrecorded]
          dsimp only [Stage.ofBegun]
          rw [if_pos rfl, run_cons_some hpost, hticks, run_cons_some hrespond, run_ack hidle]
          rfl
        | false =>
          have hraise : step svc security (s.reach i message (.post delivery sub secret) w)
              (.raise i) = some (s.reach i message (.ack false) w) := by
            simp only [step, raise, reach_worker, reach_set]
          dsimp only [Stage.ofBegun]
          rw [if_neg (by simp), run_cons_some hraise, run_ack hidle]
          rfl

variable (svc security)

/-! ## What is promised -/

/-- The failed attempts recorded so far, by delivery. -/
def noteFailure (s : State) (a : Action) (_ : State) (failures : Uuid → Nat) : Uuid → Nat :=
  match a with
  | .commit i reply =>
    match s.workers i with
    | .busy _ (.commit (.record delivery _ statusCode _) _) =>
      if reply.performed ∧ ¬(200 ≤ statusCode ∧ statusCode < 300) then
        Function.update failures delivery.id (failures delivery.id + 1)
      else failures
    | _ => failures
  | _ => failures

def notedStep : Ghosted State (Uuid → Nat) → Action → Option (Ghosted State (Uuid → Nat)) :=
  ghostStep (step svc security) noteFailure

/-- The delivery is neither delivered nor dead-lettered. -/
def Open (row : WebhookDeliveryORM) : Prop :=
  row.status ≠ .delivered ∧ row.status ≠ .deadLettered

instance (row : WebhookDeliveryORM) : Decidable (Open row) :=
  inferInstanceAs (Decidable (_ ∧ _))

/-- The count stays within the schedule, as many recorded failures as it has make a dead
letter, and a POST is for an open delivery. -/
structure Bounded (s : Ghosted State (Uuid → Nat)) (a : Action)
    (s' : Ghosted State (Uuid → Nat)) : Prop where
  count : ∀ row ∈ s'.state.rows, row.attemptCount ≤ retryDelays.length
  dead : ∀ row ∈ s'.state.rows, retryDelays.length ≤ s'.ghost row.id →
    row.status = .deadLettered
  quiet : ∀ i message stage, a = .post i → s.state.workers i = .busy message stage →
    ∀ row ∈ s.state.rows, row.id = message.deliveryId → Open row

def Stage.due : Stage → Bool
  | publish _ => true
  | ack due => due
  | _ => false

def Worker.due : Worker → Bool
  | idle => false
  | busy _ stage => stage.due

/-- A worker that dies has not committed an attempt that asks for a retry. -/
def Survives (s : State) : Action → Prop
  | .crash i => (s.workers i).due = false
  | _ => True

instance (s : State) (a : Action) : Decidable (Survives s a) := by
  unfold Survives
  split <;> infer_instance

/-! ## The invariant -/

variable {svc security}

def Worker.holds (k : Worker) (deliveryId : Uuid) : Prop :=
  ∃ message stage, k = .busy message stage ∧ stage ≠ .ack true ∧
    message.deliveryId = deliveryId

/-- How many messages of the delivery are queued. -/
def queued (s : State) (deliveryId : Uuid) : Nat :=
  s.world.queue.countP fun message => message.deliveryId = deliveryId

/-- What a row says of its failures. -/
def Tallied (row : WebhookDeliveryORM) (failures : Nat) : Prop :=
  match row.status with
  | .pending | .failed => failures = row.attemptCount ∧ row.attemptCount < retryDelays.length
  | .delivered => failures + 1 = row.attemptCount ∧ row.attemptCount ≤ retryDelays.length
  | .deadLettered =>
    failures = row.attemptCount ∧ row.attemptCount = retryDelays.length

/-- The message of an open delivery has the number of its attempts so far. -/
def Numbered (row : WebhookDeliveryORM) (retries : Nat) : Prop :=
  Open row → row.attemptCount = retries

/-- The delivery as a run has loaded it. -/
structure Loaded (row : WebhookDeliveryORM) (retries : Nat) (delivery : WebhookDeliveryORM) :
    Prop where
  id : delivery.id = row.id
  isOpen : Open row
  count : row.attemptCount = retries
  same : delivery.attemptCount = retries
  status : delivery.status = row.status

def Stage.Fits (row : WebhookDeliveryORM) (retries : Nat) : Stage → Prop
  | read | ack false => Numbered row retries
  | post delivery _ _ | await delivery => Loaded row retries delivery
  | commit .none retryDelay => Numbered row retries ∧ retryDelay = none
  | commit (.failed delivery) retryDelay => Loaded row retries delivery ∧ retryDelay = none
  | commit (.record delivery _ statusCode _) retryDelay =>
    Loaded row retries delivery ∧ retryDelay = (settle retries statusCode).2
  | publish _ => Numbered row (retries + 1)
  | ack true => True

structure Tracked (s : Ghosted State (Uuid → Nat)) : Prop where
  single : ∀ deliveryId, Token.Single (queued s.state deliveryId)
    fun i => (s.state.workers i).holds deliveryId
  tallied : ∀ row ∈ s.state.rows, Tallied row (s.ghost row.id)
  unknown : ∀ deliveryId, (∀ row ∈ s.state.rows, row.id ≠ deliveryId) →
    s.ghost deliveryId = 0
  queued : ∀ message ∈ s.state.world.queue, ∃ row ∈ s.state.rows,
    row.id = message.deliveryId ∧ Numbered row message.retries
  working : ∀ i message stage, s.state.workers i = .busy message stage →
    ∃ row ∈ s.state.rows, row.id = message.deliveryId ∧ stage.Fits row message.retries

theorem Tallied.count_le {row : WebhookDeliveryORM} {failures : Nat} (h : Tallied row failures) :
    row.attemptCount ≤ retryDelays.length := by
  unfold Tallied at h
  split at h <;> omega

theorem Tallied.dead {row : WebhookDeliveryORM} {failures : Nat} (h : Tallied row failures)
    (hfull : retryDelays.length ≤ failures) : row.status = .deadLettered := by
  unfold Tallied at h
  split at h
  · omega
  · omega
  · omega
  · assumption

theorem Tallied.open {row : WebhookDeliveryORM} {failures : Nat} (h : Tallied row failures)
    (hopen : Open row) :
    failures = row.attemptCount ∧ row.attemptCount < retryDelays.length := by
  unfold Tallied at h
  split at h
  · exact h
  · exact h
  · rename_i hstatus
    exact absurd hstatus hopen.1
  · rename_i hstatus
    exact absurd hstatus hopen.2

/-- A run that is not over has a message that may be delivered again. -/
theorem Stage.Fits.numbered {row : WebhookDeliveryORM} {retries : Nat} {stage : Stage}
    (h : stage.Fits row retries) (hdue : stage.due = false) : Numbered row retries := by
  cases stage with
  | read => exact h
  | post delivery sub secret => exact fun _ => h.count
  | await delivery => exact fun _ => h.count
  | commit write retryDelay =>
    cases write with
    | none => exact h.1
    | failed delivery => exact fun _ => h.1.count
    | record delivery now statusCode responseBody => exact fun _ => h.1.count
  | publish countdown => cases hdue
  | ack due =>
    cases due with
    | false => exact h
    | true => cases hdue

/-! ## Kinds of steps -/

theorem workers_of_set {s s' : State} {i : Nat} {k : Worker}
    (h : s'.workers = Function.update s.workers i k) (j : Nat) :
    s'.workers j = if j = i then k else s.workers j := by
  rw [h, Function.update_apply]

theorem eq_of_id_eq {s : State} {row row' : WebhookDeliveryORM} (hrow : row ∈ s.rows)
    (hrow' : row' ∈ s.rows) (h : row.id = row'.id) : row = row' :=
  Table.eq_of_key_eq hrow hrow' h

/-- The tokens when a worker that holds one goes on, or drops it. -/
theorem Tracked.single_advance {s : Ghosted State (Uuid → Nat)} (hI : Tracked s) {s' : State}
    {i : Nat} {message : Message} {stage : Stage} {k : Worker}
    (hworker : s.state.workers i = .busy message stage)
    (hset : s'.workers = Function.update s.state.workers i k)
    (hqueue : s'.world.queue = s.state.world.queue)
    (hk : ∀ deliveryId, k.holds deliveryId →
      stage ≠ .ack true ∧ message.deliveryId = deliveryId)
    (deliveryId : Uuid) :
    Token.Single (Attempts.queued s' deliveryId) fun j => (s'.workers j).holds deliveryId := by
  refine (hI.single deliveryId).drop (by rw [Attempts.queued, hqueue]; rfl) fun j hj => ?_
  rw [workers_of_set hset] at hj
  by_cases hji : j = i
  · rw [if_pos hji] at hj
    obtain ⟨hlive, hid⟩ := hk deliveryId hj
    exact ⟨message, stage, hji ▸ hworker, hlive, hid⟩
  · rwa [if_neg hji] at hj

/-- The rows and their failures are as they were. -/
theorem Tracked.of_rows {s s' : Ghosted State (Uuid → Nat)} (hI : Tracked s)
    (hrows : s'.state.rows = s.state.rows) (hghost : s'.ghost = s.ghost)
    (hsingle : ∀ deliveryId, Token.Single (Attempts.queued s'.state deliveryId)
      fun i => (s'.state.workers i).holds deliveryId)
    (hqueued : ∀ message ∈ s'.state.world.queue, ∃ row ∈ s.state.rows,
      row.id = message.deliveryId ∧ Numbered row message.retries)
    (hworking : ∀ i message stage, s'.state.workers i = .busy message stage →
      ∃ row ∈ s.state.rows, row.id = message.deliveryId ∧ stage.Fits row message.retries) :
    Tracked s' := by
  rw [← hrows] at hqueued hworking
  refine ⟨hsingle, ?_, ?_, hqueued, hworking⟩
  · rw [hrows, hghost]
    exact hI.tallied
  · rw [hrows, hghost]
    exact hI.unknown

/-- A run goes on and writes nothing. -/
theorem Tracked.advance {s s' : Ghosted State (Uuid → Nat)} (hI : Tracked s) {i : Nat}
    {message : Message} {stage stage' : Stage}
    (hworker : s.state.workers i = .busy message stage) (hlive : stage ≠ .ack true)
    (hset : s'.state.workers = Function.update s.state.workers i (.busy message stage'))
    (hrows : s'.state.rows = s.state.rows)
    (hqueue : s'.state.world.queue = s.state.world.queue) (hghost : s'.ghost = s.ghost)
    (hfits : ∀ row ∈ s.state.rows, row.id = message.deliveryId →
      stage.Fits row message.retries → stage'.Fits row message.retries) : Tracked s' := by
  refine hI.of_rows hrows hghost (hI.single_advance hworker hset hqueue ?_)
    (hqueue ▸ hI.queued) fun j message' stage'' hj => ?_
  · rintro deliveryId ⟨message', stage'', hbusy, -, hid⟩
    cases hbusy
    exact ⟨hlive, hid⟩
  · rw [workers_of_set hset] at hj
    split at hj
    · cases hj
      obtain ⟨row, hrow, hid, hfit⟩ := hI.working i message stage hworker
      exact ⟨row, hrow, hid, hfits row hrow hid hfit⟩
    · exact hI.working j message' stage'' hj

/-- A run updates the row of its delivery. -/
theorem Tracked.write {s s' : Ghosted State (Uuid → Nat)} (hI : Tracked s) {i : Nat}
    {message : Message} {stage stage' : Stage} {row : WebhookDeliveryORM}
    {f : WebhookDeliveryORM → WebhookDeliveryORM}
    (hworker : s.state.workers i = .busy message stage) (hlive : stage ≠ .ack true)
    (hrow : row ∈ s.state.rows) (hid : row.id = message.deliveryId) (hf : (f row).id = row.id)
    (hset : s'.state.workers = Function.update s.state.workers i (.busy message stage'))
    (hrows : s'.state.rows = s.state.rows.map fun r => if r.id = row.id then f r else r)
    (hqueue : s'.state.world.queue = s.state.world.queue)
    (hghost : ∀ deliveryId, deliveryId ≠ row.id → s'.ghost deliveryId = s.ghost deliveryId)
    (htallied : Tallied (f row) (s'.ghost row.id)) (hfits : stage'.Fits (f row) message.retries) :
    Tracked s' := by
  have hholds : (s.state.workers i).holds row.id := ⟨message, stage, hworker, hlive, hid.symm⟩
  have hself : f row ∈ s'.state.rows := by
    rw [hrows]
    exact List.mem_map.mpr ⟨row, hrow, if_pos rfl⟩
  have hother : ∀ r ∈ s.state.rows, r.id ≠ row.id → r ∈ s'.state.rows := by
    intro r hr hne
    rw [hrows]
    exact List.mem_map.mpr ⟨r, hr, if_neg hne⟩
  refine ⟨hI.single_advance hworker hset hqueue ?_, ?_, ?_, ?_, ?_⟩
  · rintro deliveryId ⟨message', stage'', hbusy, -, hmessage⟩
    cases hbusy
    exact ⟨hlive, hmessage⟩
  · intro r' hr'
    rw [hrows, List.mem_map] at hr'
    obtain ⟨r, hr, rfl⟩ := hr'
    by_cases hrid : r.id = row.id
    · rw [if_pos hrid, eq_of_id_eq hr hrow hrid, hf]
      exact htallied
    · rw [if_neg hrid, hghost r.id hrid]
      exact hI.tallied r hr
  · intro deliveryId hnone
    have hne : deliveryId ≠ row.id := by
      rintro rfl
      exact hnone _ hself hf
    rw [hghost deliveryId hne]
    refine hI.unknown deliveryId fun r hr => ?_
    by_cases hrid : r.id = row.id
    · rw [hrid]
      exact hne.symm
    · exact hnone r (hother r hr hrid)
  · -- The message of this delivery is with the worker, and not in the queue.
    intro message' hmessage'
    rw [hqueue] at hmessage'
    obtain ⟨r, hr, hrid, hnumbered⟩ := hI.queued message' hmessage'
    refine ⟨r, hother r hr fun hsame => ?_, hrid, hnumbered⟩
    have hfree := (hI.single row.id).free i hholds
    rw [Attempts.queued, List.countP_eq_zero] at hfree
    exact hfree message' hmessage' (by simp [← hrid, hsame])
  · intro j message' stage'' hj
    rw [workers_of_set hset] at hj
    split at hj
    · cases hj
      exact ⟨f row, hself, hf.trans hid, hfits⟩
    · rename_i hji
      obtain ⟨r, hr, hrid, hfit⟩ := hI.working j message' stage'' hj
      by_cases hsame : r.id = row.id
      · by_cases hover : stage'' = .ack true
        · rw [hover]
          exact ⟨f row, hself, hf.trans (hsame.symm.trans hrid), trivial⟩
        · have hholds' : (s.state.workers j).holds row.id :=
            ⟨message', stage'', hj, hover, hrid.symm.trans hsame⟩
          exact absurd ((hI.single row.id).unique j i hholds' hholds) hji
      · exact ⟨r, hother r hr hsame, hrid, hfit⟩

/-- A message leaves the queue for an idle worker. -/
theorem Tracked.receive {s s' : Ghosted State (Uuid → Nat)} (hI : Tracked s) {i : Nat}
    {message : Message} (hmessage : message ∈ s.state.world.queue)
    (hset : s'.state.workers = Function.update s.state.workers i (.busy message .read))
    (hrows : s'.state.rows = s.state.rows)
    (hqueue : s'.state.world.queue = s.state.world.queue.erase message)
    (hghost : s'.ghost = s.ghost) : Tracked s' := by
  refine hI.of_rows hrows hghost (fun deliveryId => ?_) (fun message' hmessage' => ?_)
    fun j message' stage hj => ?_
  · have hothers : ∀ j, j ≠ i → (s'.state.workers j).holds deliveryId →
        (s.state.workers j).holds deliveryId := by
      intro j hji hj
      rwa [workers_of_set hset, if_neg hji] at hj
    have hcount : Attempts.queued s'.state deliveryId = Attempts.queued s.state deliveryId -
        if message.deliveryId = deliveryId then 1 else 0 := by
      rw [Attempts.queued, hqueue, List.countP_erase]
      simp [hmessage, Attempts.queued]
    by_cases hid : message.deliveryId = deliveryId
    · have hpos : 0 < Attempts.queued s.state deliveryId :=
        List.countP_pos_iff.mpr ⟨message, hmessage, by simp [hid]⟩
      rw [if_pos hid] at hcount
      have hsucc : Attempts.queued s.state deliveryId =
          Attempts.queued s'.state deliveryId + 1 := by omega
      have hsingle := hI.single deliveryId
      rw [hsucc] at hsingle
      exact hsingle.take hothers
    · rw [if_neg hid] at hcount
      refine (hI.single deliveryId).drop hcount.le fun j hj => ?_
      by_cases hji : j = i
      · rw [workers_of_set hset, if_pos hji] at hj
        obtain ⟨message', stage, hbusy, -, hmessage'⟩ := hj
        cases hbusy
        exact absurd hmessage' hid
      · exact hothers j hji hj
  · rw [hqueue] at hmessage'
    exact hI.queued message' (List.mem_of_mem_erase hmessage')
  · rw [workers_of_set hset] at hj
    split at hj
    · cases hj
      exact hI.queued message hmessage
    · exact hI.working j message' stage hj

/-- A run gives its token back as a message. -/
theorem Tracked.requeue {s s' : Ghosted State (Uuid → Nat)} (hI : Tracked s) {i : Nat}
    {message message' : Message} {stage : Stage} {k : Worker}
    (hworker : s.state.workers i = .busy message stage) (hlive : stage ≠ .ack true)
    (hset : s'.state.workers = Function.update s.state.workers i k)
    (hrows : s'.state.rows = s.state.rows)
    (hqueue : s'.state.world.queue = s.state.world.queue ++ [message'])
    (hghost : s'.ghost = s.ghost) (hid : message'.deliveryId = message.deliveryId)
    (hnumbered : ∀ row, stage.Fits row message.retries → Numbered row message'.retries)
    (hk : k = .idle ∨ k = .busy message (.ack true)) : Tracked s' := by
  have hgone : ∀ deliveryId, ¬k.holds deliveryId := by
    rintro deliveryId ⟨m, stage', hbusy, hne, -⟩
    rcases hk with hk | hk
    · rw [hk] at hbusy
      cases hbusy
    · rw [hk] at hbusy
      cases hbusy
      exact hne rfl
  refine hI.of_rows hrows hghost (fun deliveryId => ?_) (fun m hm => ?_)
    fun j m stage' hj => ?_
  · have hothers : ∀ j, j ≠ i → (s'.state.workers j).holds deliveryId →
        (s.state.workers j).holds deliveryId := by
      intro j hji hj
      rwa [workers_of_set hset, if_neg hji] at hj
    have hself : ¬(s'.state.workers i).holds deliveryId := by
      rw [workers_of_set hset, if_pos rfl]
      exact hgone deliveryId
    have hcount : Attempts.queued s'.state deliveryId = Attempts.queued s.state deliveryId +
        if message.deliveryId = deliveryId then 1 else 0 := by
      rw [Attempts.queued, hqueue, List.countP_append, ← hid]
      simp [Attempts.queued]
    by_cases hsame : message.deliveryId = deliveryId
    · rw [hcount, if_pos hsame]
      exact (hI.single deliveryId).put ⟨message, stage, hworker, hlive, hsame⟩ hself hothers
    · rw [hcount, if_neg hsame]
      refine (hI.single deliveryId).drop le_rfl fun j hj => ?_
      by_cases hji : j = i
      · exact absurd (hji ▸ hj) hself
      · exact hothers j hji hj
  · rw [hqueue, List.mem_append, List.mem_singleton] at hm
    rcases hm with hm | rfl
    · exact hI.queued m hm
    · obtain ⟨row, hrow, hrid, hfit⟩ := hI.working i message stage hworker
      exact ⟨row, hrow, hrid.trans hid.symm, hnumbered row hfit⟩
  · rw [workers_of_set hset] at hj
    split at hj
    · rcases hk with hk | hk
      · rw [hk] at hj
        cases hj
      · rw [hk] at hj
        cases hj
        obtain ⟨row, hrow, hrid, -⟩ := hI.working i message stage hworker
        exact ⟨row, hrow, hrid, trivial⟩
    · exact hI.working j m stage' hj

/-- A run is over. -/
theorem Tracked.ack {s s' : Ghosted State (Uuid → Nat)} (hI : Tracked s) {i : Nat}
    {message : Message} {stage : Stage} (hworker : s.state.workers i = .busy message stage)
    (hset : s'.state.workers = Function.update s.state.workers i .idle)
    (hrows : s'.state.rows = s.state.rows)
    (hqueue : s'.state.world.queue = s.state.world.queue) (hghost : s'.ghost = s.ghost) :
    Tracked s' := by
  refine hI.of_rows hrows hghost (hI.single_advance hworker hset hqueue ?_)
    (hqueue ▸ hI.queued) fun j m stage' hj => ?_
  · rintro deliveryId ⟨m, stage', hbusy, -⟩
    cases hbusy
  · rw [workers_of_set hset] at hj
    split at hj
    · cases hj
    · exact hI.working j m stage' hj

/-- Nothing of the deliveries moves. -/
theorem Tracked.same {s s' : Ghosted State (Uuid → Nat)} (hI : Tracked s)
    (hworkers : s'.state.workers = s.state.workers) (hrows : s'.state.rows = s.state.rows)
    (hqueue : s'.state.world.queue = s.state.world.queue) (hghost : s'.ghost = s.ghost) :
    Tracked s' := by
  refine hI.of_rows hrows hghost (fun deliveryId => ?_) (hqueue ▸ hI.queued)
    (hworkers ▸ hI.working)
  rw [Attempts.queued, hqueue, hworkers]
  exact hI.single deliveryId

/-- A new delivery has no token before its own. -/
theorem Tracked.enqueue {s s' : Ghosted State (Uuid → Nat)} (hI : Tracked s)
    {delivery : WebhookDeliveryORM} {message : Message}
    (hnew : ∀ row ∈ s.state.rows, row.id ≠ delivery.id)
    (hpending : delivery.status = .pending)
    (hcount : delivery.attemptCount = 0) (hid : message.deliveryId = delivery.id)
    (hretries : message.retries = 0) (hworkers : s'.state.workers = s.state.workers)
    (hrows : s'.state.rows = s.state.rows ++ [delivery])
    (hqueue : s'.state.world.queue = s.state.world.queue ++ [message])
    (hghost : s'.ghost = s.ghost) : Tracked s' := by
  have hnotqueued : ∀ m ∈ s.state.world.queue, m.deliveryId ≠ delivery.id := by
    intro m hm hmid
    obtain ⟨row, hrow, hrid, -⟩ := hI.queued m hm
    exact hnew row hrow (hrid.trans hmid)
  have hnotheld : ∀ i, ¬(s.state.workers i).holds delivery.id := by
    rintro i ⟨m, stage, hbusy, -, hmid⟩
    obtain ⟨row, hrow, hrid, -⟩ := hI.working i m stage hbusy
    exact hnew row hrow (hrid.trans hmid)
  have hold : ∀ row ∈ s.state.rows, row ∈ s'.state.rows := by
    intro row hrow
    rw [hrows]
    exact List.mem_append_left _ hrow
  have hadded : delivery ∈ s'.state.rows := by
    rw [hrows]
    exact List.mem_append_right _ List.mem_cons_self
  refine ⟨fun deliveryId => ?_, fun row hrow => ?_, fun deliveryId hnone => ?_, fun m hm => ?_,
    fun i m stage hi => ?_⟩
  · have hcountP : Attempts.queued s'.state deliveryId = Attempts.queued s.state deliveryId +
        if delivery.id = deliveryId then 1 else 0 := by
      rw [Attempts.queued, hqueue, List.countP_append, ← hid]
      simp [Attempts.queued]
    rw [hworkers, hcountP]
    by_cases hsame : delivery.id = deliveryId
    · subst hsame
      have hzero : Attempts.queued s.state delivery.id = 0 := by
        rw [Attempts.queued, List.countP_eq_zero]
        intro m hm
        simp [hnotqueued m hm]
      rw [if_pos rfl, hzero]
      exact Token.Single.of_none le_rfl hnotheld
    · rw [if_neg hsame]
      exact hI.single deliveryId
  · rw [hrows, List.mem_append, List.mem_singleton] at hrow
    rw [hghost]
    rcases hrow with hrow | rfl
    · exact hI.tallied row hrow
    · rw [hI.unknown row.id hnew, Tallied, hpending]
      exact ⟨hcount.symm, by rw [hcount]; decide⟩
  · rw [hghost]
    exact hI.unknown deliveryId fun row hrow => hnone row (hold row hrow)
  · rw [hqueue, List.mem_append, List.mem_singleton] at hm
    rcases hm with hm | rfl
    · obtain ⟨row, hrow, hrid, hnumbered⟩ := hI.queued m hm
      exact ⟨row, hold row hrow, hrid, hnumbered⟩
    · exact ⟨delivery, hadded, hid.symm, fun _ => hcount.trans hretries.symm⟩
  · rw [hworkers] at hi
    obtain ⟨row, hrow, hrid, hfit⟩ := hI.working i m stage hi
    exact ⟨row, hold row hrow, hrid, hfit⟩

/-! ## One step -/

/-- No route touches a delivery. -/
theorem respond_deliveries (svc : Service) (now : Nat) (tenantId : Uuid) (draws : Draws)
    (db : Database) (r : RouteRequest) :
    (Workflow.respond svc now tenantId draws db r).1.webhookDeliveries = db.webhookDeliveries := by
  cases r with
  | createWorkflow body =>
    simp only [Workflow.respond, createWorkflow]
    split
    · rfl
    · split <;> rfl
  | getWorkflow workflowId =>
    simp only [Workflow.respond, getWorkflow]
    split <;> rfl
  | execute workflowId inputs =>
    simp only [Workflow.respond, execute]
    split
    · rfl
    · split
      · rfl
      · split <;> rfl
  | getExecution executionId =>
    simp only [Workflow.respond, getExecution]
    split <;> rfl
  | control kind executionId =>
    simp only [Workflow.respond, controlExecution]
    split
    · rfl
    · split <;> rfl
  | stream executionId =>
    simp only [Workflow.respond, streamExecution]
    split <;> rfl
  | createWebhook body =>
    simp only [Workflow.respond, createWebhook]
    split
    · rfl
    · split
      · rfl
      · split <;> rfl
  | listWebhooks => rfl
  | deleteWebhook webhookId =>
    simp only [Workflow.respond, deleteWebhook]
    split <;> rfl

/-- The first half of a run loads an open delivery, if any. -/
theorem fits_ofBegun {s : State} {row : WebhookDeliveryORM} {message : Message}
    (hrow : row ∈ s.rows) (hid : row.id = message.deliveryId)
    (hnumbered : Numbered row message.retries) :
    (Stage.ofBegun (beginDelivery svc security s.world.db message.deliveryId
      message.tenantId)).Fits row message.retries := by
  have hloaded : ∀ d, d ∈ s.rows → d.id = message.deliveryId →
      ¬(d.status = .delivered ∨ d.status = .deadLettered) → Loaded row message.retries d := by
    intro d hd hdid hstatus
    obtain rfl := eq_of_id_eq hd hrow (hdid.trans hid.symm)
    have hopen : Open d := not_or.mp hstatus
    exact ⟨rfl, hopen, hnumbered hopen, hnumbered hopen, rfl⟩
  unfold beginDelivery
  split
  · exact ⟨hnumbered, rfl⟩
  · rename_i d hfind
    have hd : d ∈ s.rows := Table.mem_of_find? hfind
    have hdid := Table.of_find? hfind
    simp only [Bool.and_eq_true, decide_eq_true_eq] at hdid
    split
    · exact ⟨hnumbered, rfl⟩
    · rename_i hstatus
      have hfit := hloaded d hd hdid.1 hstatus
      split
      · exact ⟨hfit, rfl⟩
      · split
        · exact ⟨hfit, rfl⟩
        · split
          · exact hnumbered
          · exact hfit

/-- The UPDATE of a recorded attempt, on the row that it has loaded. -/
theorem Loaded.recorded {row delivery : WebhookDeliveryORM} {retries : Nat}
    (h : Loaded row retries delivery) (now statusCode : Nat) (responseBody : String) :
    (delivery.patch (recordAttempt delivery now retries statusCode responseBody) row).status =
        (settle retries statusCode).1 ∧
      (delivery.patch (recordAttempt delivery now retries statusCode responseBody)
        row).attemptCount = retries + 1 := by
  simp [WebhookDeliveryORM.patch, recordAttempt, ← h.status, h.count, h.same]

theorem Loaded.markedFailed {row delivery : WebhookDeliveryORM} {retries : Nat}
    (h : Loaded row retries delivery) :
    (delivery.patch (markFailed delivery) row).status = .failed ∧
      (delivery.patch (markFailed delivery) row).attemptCount = row.attemptCount := by
  simp [WebhookDeliveryORM.patch, markFailed, ← h.status]

/-- A recorded attempt counts once in the row, and once more as a failure if it is one. -/
theorem tallied_record {row delivery : WebhookDeliveryORM} {retries failures : Nat}
    (htallied : Tallied row failures) (hloaded : Loaded row retries delivery)
    (now statusCode : Nat) (responseBody : String) :
    Tallied (delivery.patch (recordAttempt delivery now retries statusCode responseBody) row)
      (if 200 ≤ statusCode ∧ statusCode < 300 then failures else failures + 1) := by
  obtain ⟨hfailures, hlt⟩ := htallied.open hloaded.isOpen
  obtain ⟨hstatus, hattempts⟩ := hloaded.recorded now statusCode responseBody
  have hcount := hloaded.count
  rw [Tallied, hstatus, hattempts]
  by_cases hcode : 200 ≤ statusCode ∧ statusCode < 300
  · simp only [settle, if_pos hcode]
    omega
  · by_cases hlast : retryDelays.length - 1 ≤ retries
    · simp only [settle, if_neg hcode, if_pos hlast]
      omega
    · simp only [settle, if_neg hcode, if_neg hlast]
      omega

/-- After a recorded attempt the run goes on to the message with the next number, or the
delivery is closed. -/
theorem fits_record {row delivery : WebhookDeliveryORM} {retries : Nat}
    (hloaded : Loaded row retries delivery) (now statusCode : Nat) (responseBody : String)
    {reply : Reply Exn} (hperformed : reply.performed) :
    (Stage.afterCommit reply (settle retries statusCode).2).Fits
      (delivery.patch (recordAttempt delivery now retries statusCode responseBody) row)
      retries := by
  obtain ⟨hstatus, hcount⟩ := hloaded.recorded now statusCode responseBody
  cases hretry : (settle retries statusCode).2 with
  | some countdown =>
    cases reply with
    | arrives => exact fun _ => hcount
    | raises performed e =>
      obtain rfl : performed = true := hperformed
      trivial
  | none =>
    have hclosed : ¬Open (delivery.patch
        (recordAttempt delivery now retries statusCode responseBody) row) := by
      unfold settle at hretry
      simp only [Open, hstatus, settle]
      split at hretry
      · rename_i hcode
        simp [if_pos hcode]
      · rename_i hcode
        split at hretry
        · rename_i hlast
          rw [if_neg hcode, if_pos hlast]
          simp
        · rename_i hlast
          have hlt : retries < retryDelays.length := by omega
          rw [List.getElem?_eq_getElem hlt] at hretry
          cases hretry
    cases reply with
    | arrives => exact fun hopen => absurd hopen hclosed
    | raises performed e =>
      obtain rfl : performed = true := hperformed
      exact fun hopen => absurd hopen hclosed

theorem afterCommit_none (reply : Reply Exn) : Stage.afterCommit reply none = .ack false := by
  cases reply <;> simp [Stage.afterCommit]

theorem afterCommit_unperformed {reply : Reply Exn} (h : reply.performed = false)
    (retryDelay : Option Nat) : Stage.afterCommit reply retryDelay = .ack false := by
  cases reply with
  | arrives => cases h
  | raises performed e =>
    obtain rfl : performed = false := h
    rfl

/-- A commit that is not performed leaves the row and the message as they were. -/
theorem Tracked.uncommitted {s s' : Ghosted State (Uuid → Nat)} (hI : Tracked s) {i : Nat}
    {message : Message} {write : Write} {retryDelay : Option Nat}
    (hworker : s.state.workers i = .busy message (.commit write retryDelay))
    (hs' : s'.state = s.state.set i (.busy message (.ack false))) (hghost : s'.ghost = s.ghost) :
    Tracked s' := by
  exact hI.advance hworker (by simp) (congrArg State.workers hs') (by rw [hs']; rfl)
    (by rw [hs']; rfl) hghost fun row _ _ hfit => hfit.numbered rfl

theorem Tracked.commit {s s' : Ghosted State (Uuid → Nat)} (hI : Tracked s) {i : Nat}
    {reply : Reply Exn} (h : Attempts.commit s.state i reply = some s'.state)
    (hghost : s'.ghost = noteFailure s.state (.commit i reply) s'.state s.ghost) :
    Tracked s' := by
  unfold Attempts.commit at h
  split at h
  · rename_i message write retryDelay hworker
    have hs' := (Option.some.inj h).symm
    simp only [noteFailure, hworker] at hghost
    obtain ⟨row, hrow, hid, hfit⟩ := hI.working i message _ hworker
    cases hperformed : reply.performed with
    | false =>
      simp only [hperformed, afterCommit_unperformed hperformed, Bool.false_eq_true,
        if_false] at hs'
      refine hI.uncommitted hworker hs' ?_
      rw [hghost]
      cases write <;> simp [hperformed]
    | true =>
      simp only [hperformed, if_true] at hs'
      have hset := congrArg State.workers hs'
      cases write with
      | none =>
        obtain ⟨hnumbered, rfl⟩ := hfit
        rw [afterCommit_none] at hs'
        exact hI.uncommitted hworker hs' hghost
      | failed delivery =>
        obtain ⟨hloaded, rfl⟩ := hfit
        obtain ⟨hfailures, hlt⟩ := (hI.tallied row hrow).open hloaded.isOpen
        refine hI.write (f := delivery.patch (markFailed delivery)) hworker (by simp) hrow hid rfl
          hset ?_ (by rw [hs']) (fun _ _ => by rw [hghost]) ?_ ?_
        · rw [hs', ← hloaded.id]
          rfl
        · rw [hghost, Tallied, hloaded.markedFailed.1, hloaded.markedFailed.2]
          exact ⟨hfailures, hlt⟩
        · rw [afterCommit_none]
          exact fun _ => hloaded.markedFailed.2.trans hloaded.count
      | record delivery now statusCode responseBody =>
        obtain ⟨hloaded, rfl⟩ := hfit
        refine hI.write (f := delivery.patch
            (recordAttempt delivery now message.retries statusCode responseBody))
          hworker (by simp) hrow hid rfl hset ?_ (by rw [hs']) (fun other hne => ?_) ?_
          (fits_record hloaded now statusCode responseBody hperformed)
        · rw [hs', ← hloaded.id]
          rfl
        · rw [hghost]
          simp only
          split
          · exact Function.update_of_ne (by rwa [hloaded.id]) ..
          · rfl
        · have htallied := tallied_record (hI.tallied row hrow) hloaded now statusCode responseBody
          rw [hghost]
          by_cases hcode : 200 ≤ statusCode ∧ statusCode < 300
          · rw [if_pos hcode] at htallied
            simpa [hcode] using htallied
          · rw [if_neg hcode] at htallied
            simpa only [hperformed, hcode, not_false_eq_true, and_self, if_true, hloaded.id,
              Function.update_self] using htallied
  · cases h

theorem tracked_step {s s' : Ghosted State (Uuid → Nat)} {a : Action} (hI : Tracked s)
    (hsurvives : Survives s.state a) (h : notedStep svc security s a = some s') : Tracked s' := by
  obtain ⟨hstep, hghost⟩ := ghostStep_eq_some h
  cases a with
  | request tenantId draws r =>
    have hs' := (Option.some.inj hstep).symm
    refine hI.same (by rw [hs']) ?_ (by rw [hs']) hghost
    rw [hs']
    exact congrArg Table.rows (respond_deliveries ..)
  | enqueue delivery =>
    simp only [step, enqueue] at hstep
    split at hstep
    · rename_i hdefaults
      obtain ⟨deliveries, hinsert, hs'⟩ := Option.map_eq_some_iff.mp hstep
      have hs' := hs'.symm
      have hnew : ∀ row ∈ s.state.rows, row.id ≠ delivery.id := by
        intro row hrow hid
        exact Table.notMem_of_insert hinsert (List.mem_map.mpr ⟨row, hrow, hid⟩)
      have hqueue : s'.state.world.queue = s.state.world.queue ++
          [⟨delivery.id, delivery.tenantId, 0, s.state.world.now⟩] := by
        rw [hs']
      have hrows : s'.state.rows = s.state.rows ++ [delivery] := by
        rw [hs']
        exact Table.insert_eq_some hinsert
      exact hI.enqueue hnew hdefaults.1 hdefaults.2.1 rfl rfl (by rw [hs']) hrows hqueue hghost
    · cases hstep
  | receive i message =>
    simp only [step, receive] at hstep
    split at hstep
    · split at hstep
      · rename_i hmessage
        have hs' := (Option.some.inj hstep).symm
        exact hI.receive hmessage.1 (congrArg State.workers hs') (by rw [hs']; rfl)
          (by rw [hs']) hghost
      · cases hstep
    · cases hstep
  | read i succeeds =>
    simp only [step, read] at hstep
    split at hstep
    · rename_i message hworker
      have hs' := (Option.some.inj hstep).symm
      refine hI.advance hworker (by simp) (congrArg State.workers hs')
        (by rw [hs']; rfl) (by rw [hs']; rfl) hghost fun row hrow hid hfit => ?_
      cases succeeds with
      | true => exact fits_ofBegun hrow hid hfit
      | false => exact hfit
    · cases hstep
  | post i =>
    simp only [step, post] at hstep
    split at hstep
    · rename_i message delivery sub secret hworker
      have hs' := (Option.some.inj hstep).symm
      exact hI.advance hworker (by simp) (congrArg State.workers hs')
        (by rw [hs']; rfl) (by rw [hs']) hghost fun row _ _ hfit => hfit
    · cases hstep
  | raise i =>
    simp only [step, raise] at hstep
    split at hstep
    · rename_i message delivery sub secret hworker
      have hs' := (Option.some.inj hstep).symm
      exact hI.advance hworker (by simp) (congrArg State.workers hs')
        (by rw [hs']; rfl) (by rw [hs']; rfl) hghost fun row _ _ hfit => hfit.numbered rfl
    · cases hstep
  | respond i outcome =>
    simp only [step, respond] at hstep
    split at hstep
    · rename_i message delivery hworker
      split at hstep
      · have hs' := (Option.some.inj hstep).symm
        exact hI.advance hworker (by simp) (congrArg State.workers hs')
          (by rw [hs']; rfl) (by rw [hs']; rfl) hghost fun row _ _ hfit => ⟨hfit, rfl⟩
      · have hs' := (Option.some.inj hstep).symm
        exact hI.advance hworker (by simp) (congrArg State.workers hs')
          (by rw [hs']; rfl) (by rw [hs']; rfl) hghost fun row _ _ hfit => hfit.numbered rfl
    · cases hstep
  | commit i reply => exact hI.commit hstep hghost
  | publish i performed =>
    simp only [step, publish] at hstep
    split at hstep
    · rename_i message countdown hworker
      have hs' := (Option.some.inj hstep).symm
      by_cases hpublished : performed ∧ message.retries < maxRetries
      · simp only [if_pos hpublished] at hs'
        have hqueue : s'.state.world.queue = s.state.world.queue ++
            [{ message with
              retries := message.retries + 1, eta := s.state.world.now + countdown }] := by
          rw [hs']
        exact hI.requeue hworker (by simp) (congrArg State.workers hs') (by rw [hs']; rfl) hqueue
          hghost rfl (fun row hfit => hfit) (.inr rfl)
      · simp only [if_neg hpublished] at hs'
        exact hI.advance hworker (by simp) (congrArg State.workers hs')
          (by rw [hs']; rfl) (by rw [hs']) hghost fun row _ _ _ => trivial
    · cases hstep
  | ack i =>
    simp only [step, ack] at hstep
    split at hstep
    · rename_i message due hworker
      have hs' := (Option.some.inj hstep).symm
      exact hI.ack hworker (congrArg State.workers hs') (by rw [hs']; rfl) (by rw [hs']; rfl) hghost
    · cases hstep
  | crash i =>
    simp only [step, crash] at hstep
    split at hstep
    · rename_i message stage hworker
      have hs' := (Option.some.inj hstep).symm
      have hdue : stage.due = false := by
        have hworkerdue : (s.state.workers i).due = false := hsurvives
        rwa [hworker] at hworkerdue
      refine hI.requeue hworker ?_ (congrArg State.workers hs')
        (by rw [hs']; rfl) (by rw [hs']) hghost rfl (fun row hfit => hfit.numbered hdue)
        (.inl rfl)
      rintro rfl
      cases hdue
    · cases hstep
  | tick =>
    have hs' := (Option.some.inj hstep).symm
    exact hI.same (by rw [hs']) (by rw [hs']; rfl) (by rw [hs']) hghost

theorem tracked_initial (db : Database) (now : Nat) :
    Tracked ⟨State.initial db now, fun _ => 0⟩ := by
  refine ⟨fun deliveryId => ?_, ?_, fun _ _ => rfl, ?_, ?_⟩
  · refine Token.Single.of_none (Nat.zero_le 1) ?_
    rintro i ⟨message, stage, hbusy, -⟩
    cases hbusy
  · intro row hrow
    exact absurd hrow List.not_mem_nil
  · intro message hmessage
    exact absurd hmessage List.not_mem_nil
  · intro i message stage hbusy
    cases hbusy

theorem Tracked.bounded {s s' : Ghosted State (Uuid → Nat)} {a : Action} (hI : Tracked s)
    (hI' : Tracked s') (h : notedStep svc security s a = some s') : Bounded s a s' := by
  obtain ⟨hstep, -⟩ := ghostStep_eq_some h
  refine ⟨fun row hrow => (hI'.tallied row hrow).count_le,
    fun row hrow hfull => (hI'.tallied row hrow).dead hfull, ?_⟩
  rintro i message stage rfl hworker row hrow hid
  simp only [step, post, hworker] at hstep
  split at hstep
  · rename_i message' delivery sub secret hbusy
    cases hbusy
    -- The run about to POST has loaded the row while it was open.
    obtain ⟨loaded, hloaded, hlid, hfit⟩ := hI.working i _ _ hworker
    obtain rfl := eq_of_id_eq hloaded hrow (hlid.trans hid.symm)
    exact hfit.isOpen
  · cases hstep

/-- In every run of the service in which no worker dies once it may have committed an attempt
that asks for a retry, no delivery's count exceeds the schedule, as many recorded failures
as the schedule has make it a dead letter, and no POST follows its end. -/
theorem attempts_bounded (svc : Service) (security : RowSecurity) (db : Database) (now : Nat)
    (as : List Action)
    (h : Along (step svc security) (fun s a _ => Survives s a) (.initial db now) as) :
    Along (notedStep svc security) Bounded ⟨.initial db now, fun _ => 0⟩ as := by
  have hnoted : Along (notedStep svc security) (fun s a _ => Survives s.state a)
      ⟨.initial db now, fun _ => 0⟩ as :=
    (along_ghost_iff (R := fun s a _ => Survives s a)).mpr h
  refine along_of_invariant (I := Tracked) ?_ ?_ (tracked_initial db now) hnoted
  · exact fun _ _ _ hI hsurvives hstep => tracked_step hI hsurvives hstep
  · exact fun _ _ _ hI hsurvives hstep => hI.bounded (tracked_step hI hsurvives hstep) hstep

/-! ## Crashes -/

/-- The database of `hookWorld` before its delivery is enqueued. -/
def hookStart : State := .initial hookWorld.db 1

/-- An attempt that is answered 503, up to its commit. -/
def failedAttempt (message : Message) : List Action :=
  [.receive 0 message, .read 0 true, .post 0, .respond 0 (.response 503 ""),
    .commit 0 .arrives]

/-- The worker dies after each commit, before it publishes the retry. -/
def diesAfterCommit : List Action :=
  .enqueue hookDelivery ::
    (List.replicate 6 (failedAttempt hookMessage ++ [.crash 0])).flatten

theorem crashes_exceed_schedule :
    (run (step (hookService publicAnswer) .bypassed) hookStart diesAfterCommit).any
        (fun s => s.rows.map (fun row => (row.attemptCount, row.status)) = [(6, .pending)]) ∧
      ¬Along (notedStep (hookService publicAnswer) .bypassed) Bounded
        ⟨hookStart, fun _ => 0⟩ diesAfterCommit := by
  refine ⟨by decide +kernel, fun h => ?_⟩
  have hcount : Along (notedStep (hookService publicAnswer) .bypassed)
      (fun _ _ s => ∀ row ∈ s.state.rows, row.attemptCount ≤ retryDelays.length)
      ⟨hookStart, fun _ => 0⟩ diesAfterCommit :=
    along_imp (I := fun _ => True) (fun _ _ _ _ _ _ => trivial)
      (fun _ _ _ _ _ hbounded => hbounded.count) trivial h
  revert hcount
  decide +kernel

/-- A worker dies with its POST out, the next attempt fails, and its retry is delivered. -/
def diesBeforeCommit : List Action :=
  [.enqueue hookDelivery, .receive 0 hookMessage, .read 0 true, .post 0, .crash 0] ++
    failedAttempt hookMessage ++ [.publish 0 true, .ack 0, .tick,
      .receive 1 ⟨.repdigit 2, .repdigit 7, 1, 2⟩, .read 1 true, .post 1,
      .respond 1 (.response 204 ""), .commit 1 .arrives, .ack 1]

theorem attempts_bounded_delivered :
    (run (step (hookService publicAnswer) .bypassed) hookStart diesBeforeCommit).any
        (fun s => s.rows.map (fun row => (row.attemptCount, row.status)) = [(2, .delivered)] ∧
          s.world.posts.length = 3) ∧
      Along (notedStep (hookService publicAnswer) .bypassed) Bounded
        ⟨hookStart, fun _ => 0⟩ diesBeforeCommit :=
  ⟨by decide +kernel, attempts_bounded (hookService publicAnswer) .bypassed hookWorld.db 1
    diesBeforeCommit (by decide +kernel)⟩

end Sutram.Workflow.Attempts
