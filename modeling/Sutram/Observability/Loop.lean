/-
The batches of the consumer loop.

A batch is read from a stream or claimed from the pending entries, and its messages go
through `_process_one` in order.  An exception that leaves `_process_one` ends the batch.
Whether the handler and the acknowledgement succeed is up to the environment.
-/
import Sutram.Observability.Dispatcher

namespace Sutram.Observability

open Sutram.Core

variable {F D : Type}

/-- A key or value as Redis returns it. -/
inductive Raw where
  | bytes (b : ByteArray)
  | text (s : String)

def Raw.decode : Raw → Option String
  | .bytes b => String.fromUTF8? b
  | .text s => some s

def decodePair (kv : Raw × Raw) : Option (String × String) :=
  match kv.1.decode, kv.2.decode with
  | some k, some v => some (k, v)
  | _, _ => none

/-- A message, and what the environment answers while it is processed. -/
structure Delivery (D : Type) where
  msgId : String
  fields : List (Raw × Raw)
  fresh : Fresh D
  handlerSucceeds : Bool
  ackSucceeds : Bool

/-- The decoded fields, unless a key or value is no UTF-8. -/
def Delivery.decode (d : Delivery D) : Option (Dict String String) :=
  (d.fields.mapM decodePair).map Dict.ofPairs

def decodeAll : List (Delivery D) → Option (List (Delivery D × Dict String String))
  | [] => some []
  | d :: rest =>
    match d.decode, decodeAll rest with
    | some data, some decoded => some ((d, data) :: decoded)
    | _, _ => none

/-- What one call of `_process_one` did. -/
structure Attempt (D : Type) where
  delivery : Delivery D
  handled : Bool
  acked : Bool
  raised : Bool
  /-- `CHECKPOINT_FAILURES` was incremented. -/
  failureCounted : Bool

section Batches

variable (c : Scalars F D)

def processOne (d : Delivery D) (data : Dict String String) : Attempt D :=
  match parseEvent c d.fresh data with
  | .error (.unknownEventType _) =>
    { delivery := d, handled := false, acked := d.ackSucceeds, raised := !d.ackSucceeds,
      failureCounted := false }
  -- Only UnknownEventType is caught around the parser.
  | .error (.validationError _) =>
    { delivery := d, handled := false, acked := false, raised := true, failureCounted := false }
  | .ok _ =>
    -- One try block around the session, the handler and the acknowledgement.
    { delivery := d, handled := d.handlerSucceeds, acked := d.handlerSucceeds && d.ackSucceeds,
      raised := false, failureCounted := !(d.handlerSucceeds && d.ackSucceeds) }

/-- The calls made for a batch, and whether an exception left it. -/
structure Batch (D : Type) where
  attempts : List (Attempt D)
  raised : Bool

/-- The inner loop of `run_consumer_loop` over what `read` returned. -/
def consume : List (Delivery D × Dict String String) → Batch D
  | [] => ⟨[], false⟩
  | (d, data) :: rest =>
    if (processOne c d data).raised then ⟨[processOne c d data], true⟩
    else ⟨processOne c d data :: (consume rest).attempts, (consume rest).raised⟩

/-- `read` decodes the whole batch before it returns any of it. -/
def readBatch (messages : List (Delivery D)) : Batch D :=
  match decodeAll messages with
  | some decoded => consume c decoded
  | none => ⟨[], true⟩

/-- `_reclaim_pending` decodes each entry when its turn comes. -/
def reclaimPending : List (Delivery D) → Batch D
  | [] => ⟨[], false⟩
  | d :: rest =>
    match d.decode with
    | none => ⟨[], true⟩
    | some data =>
      if (processOne c d data).raised then ⟨[processOne c d data], true⟩
      else ⟨processOne c d data :: (reclaimPending rest).attempts, (reclaimPending rest).raised⟩

end Batches

/-! ## One message -/

section Served

variable (c : Scalars F D)

/-- With no defaults does the parser accept the message. -/
def Unparseable (d : Delivery D) : Prop :=
  ∀ data, d.decode = some data → ∀ fresh, (parseEvent c fresh data).isOk = false

/-- Every message was attempted once, in order, and acknowledged if it was handled or
can never be parsed. -/
def Served (messages : List (Delivery D)) (b : Batch D) : Prop :=
  b.attempts.map Attempt.delivery = messages ∧
    ∀ a ∈ b.attempts, a.handled ∨ Unparseable c a.delivery → a.acked

/-- The message decodes, its validation does not fail, and its acknowledgement succeeds
when it is of an unknown type or its handler has succeeded. -/
def Harmless (d : Delivery D) : Prop :=
  match d.decode with
  | none => False
  | some data =>
    match parseEvent c d.fresh data with
    | .error (.unknownEventType _) => d.ackSucceeds
    | .error (.validationError _) => False
    | .ok _ => d.handlerSucceeds → d.ackSucceeds

theorem processOne_delivery (d : Delivery D) (data : Dict String String) :
    (processOne c d data).delivery = d := by
  unfold processOne
  split <;> rfl

variable {c} {d : Delivery D} {data : Dict String String}

theorem unparseable_iff (hdata : d.decode = some data) :
    Unparseable c d ↔ (parseEvent c d.fresh data).isOk = false := by
  constructor
  · exact fun h => h data hdata d.fresh
  · intro h data' hdata' fresh
    obtain rfl := Option.some.inj (hdata.symm.trans hdata')
    rw [← h]
    exact isOk_parseEvent c fresh d.fresh data

/-- A message is acknowledged as it should be exactly when it is harmless. -/
theorem processOne_acked_iff (hdata : d.decode = some data) :
    ((processOne c d data).handled ∨ Unparseable c d → (processOne c d data).acked) ↔
      Harmless c d := by
  rw [unparseable_iff hdata]
  simp only [Harmless, hdata, processOne]
  cases parseEvent c d.fresh data with
  | ok e => cases d.handlerSucceeds <;> simp [Except.isOk, Except.toBool]
  | error e => cases e <;> simp [Except.isOk, Except.toBool]

theorem processOne_not_raised (hdata : d.decode = some data) (h : Harmless c d) :
    (processOne c d data).raised = false := by
  simp only [Harmless, hdata] at h
  unfold processOne
  split
  · rename_i heq
    simp only [heq] at h
    simp [h]
  · rename_i heq
    simp [heq] at h
  · rfl

/-! ## The batches -/

theorem decodeAll_cons_eq_some {rest : List (Delivery D)}
    {decoded : List (Delivery D × Dict String String)} (h : decodeAll (d :: rest) = some decoded) :
    ∃ data decoded', d.decode = some data ∧ decodeAll rest = some decoded' ∧
      decoded = (d, data) :: decoded' := by
  rw [decodeAll] at h
  split at h
  · rename_i data decoded' hdata hrest
    exact ⟨data, decoded', hdata, hrest, (Option.some.inj h).symm⟩
  · cases h

theorem decodeAll_eq_none {messages : List (Delivery D)} (h : decodeAll messages = none) :
    ∃ d ∈ messages, d.decode = none := by
  induction messages with
  | nil => cases h
  | cons d rest ih =>
    cases hdata : d.decode with
    | none => exact ⟨d, List.mem_cons_self, hdata⟩
    | some data =>
      cases hrest : decodeAll rest with
      | none =>
        obtain ⟨d', hmem, hnone⟩ := ih hrest
        exact ⟨d', List.mem_cons_of_mem d hmem, hnone⟩
      | some decoded => simp [decodeAll, hdata, hrest] at h

theorem served_cons_iff (hdata : d.decode = some data) {rest : List (Delivery D)} {b : Batch D} :
    Served c (d :: rest) (if (processOne c d data).raised then ⟨[processOne c d data], true⟩
        else ⟨processOne c d data :: b.attempts, b.raised⟩) ↔
      Harmless c d ∧ Served c rest b := by
  have hhead := processOne_acked_iff (c := c) hdata
  by_cases hraised : (processOne c d data).raised
  · have hnot : ¬ Harmless c d := fun h => by
      rw [processOne_not_raised hdata h] at hraised
      cases hraised
    rw [if_pos hraised]
    refine ⟨fun h => absurd (hhead.mp ?_) hnot, fun h => absurd h.1 hnot⟩
    intro hdue
    exact h.2 _ List.mem_cons_self (by rwa [processOne_delivery])
  · rw [if_neg hraised]
    simp only [Served, List.map_cons, List.forall_mem_cons, processOne_delivery, List.cons.injEq,
      true_and, hhead]
    exact and_left_comm

theorem reclaimPending_served_iff (messages : List (Delivery D)) :
    Served c messages (reclaimPending c messages) ↔ ∀ d ∈ messages, Harmless c d := by
  induction messages with
  | nil => simp [Served, reclaimPending]
  | cons d rest ih =>
    rw [List.forall_mem_cons, ← ih, reclaimPending]
    cases hdata : d.decode with
    | none => simp [Served, Harmless, hdata]
    | some data => exact served_cons_iff hdata

/-- A batch that decodes is consumed with the calls the reclaim loop would make. -/
theorem consume_eq_reclaimPending {messages : List (Delivery D)}
    {decoded : List (Delivery D × Dict String String)} (h : decodeAll messages = some decoded) :
    consume c decoded = reclaimPending c messages := by
  induction messages generalizing decoded with
  | nil =>
    obtain rfl : decoded = [] := by simpa [decodeAll, eq_comm] using h
    rfl
  | cons d rest ih =>
    obtain ⟨data, decoded', hdata, hrest, rfl⟩ := decodeAll_cons_eq_some h
    rw [consume, reclaimPending, ih hrest]
    simp only [hdata]

theorem readBatch_served_iff (messages : List (Delivery D)) :
    Served c messages (readBatch c messages) ↔ ∀ d ∈ messages, Harmless c d := by
  unfold readBatch
  cases hall : decodeAll messages with
  | some decoded =>
    simp only [consume_eq_reclaimPending hall]
    exact reclaimPending_served_iff messages
  | none =>
    obtain ⟨d, hmem, hdecode⟩ := decodeAll_eq_none hall
    constructor
    · intro h
      obtain rfl : messages = [] := h.1.symm
      cases hmem
    · intro h
      have hharmless := h d hmem
      simp [Harmless, hdecode] at hharmless

end Served

/-- Every message of a batch, read or claimed, is attempted and acknowledged as it
should be exactly when every message of it is harmless. -/
theorem batches_served_iff (c : Scalars F D) (messages : List (Delivery D)) :
    (Served c messages (readBatch c messages) ↔ ∀ d ∈ messages, Harmless c d) ∧
      (Served c messages (reclaimPending c messages) ↔ ∀ d ∈ messages, Harmless c d) :=
  ⟨readBatch_served_iff messages, reclaimPending_served_iff messages⟩

/-- A delivery that the handler and the acknowledgement let through. -/
def untroubled (fields : List (String × String)) : Delivery Unit where
  msgId := "1-0"
  fields := fields.map fun kv => (.text kv.1, .text kv.2)
  fresh := ⟨Uuid.repdigit 5, ()⟩
  handlerSucceeds := true
  ackSucceeds := true

/-- A known type with no fields, and behind it a message of an unknown type. -/
def malformedFirst : List (Delivery Unit) :=
  [untroubled [("event_type", "execution.started")], untroubled [("event_type", "webhook.sent")]]

theorem malformed_ends_batch :
    ¬ Served plainScalars malformedFirst (readBatch plainScalars malformedFirst) ∧
      ¬ Served plainScalars malformedFirst (reclaimPending plainScalars malformedFirst) := by
  have hread : (readBatch plainScalars malformedFirst).attempts.length = 1 := by decide +kernel
  have hclaimed : (reclaimPending plainScalars malformedFirst).attempts.length = 1 := by
    decide +kernel
  have htwo : malformedFirst.length = 2 := rfl
  constructor
  · intro h
    have hlength := congrArg List.length h.1
    rw [List.length_map, hread, htwo] at hlength
    omega
  · intro h
    have hlength := congrArg List.length h.1
    rw [List.length_map, hclaimed, htwo] at hlength
    omega

end Sutram.Observability
