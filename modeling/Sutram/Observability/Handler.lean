/-
The tail sampler and the event handler, as replicas of the consumer run them.

A replica has one message in work at a time.  Its handler is cut at every Redis command
and at the commit; between two stages other replicas may act, the replica may fail or
crash, and a key of the trace buffer may expire.  A message is acknowledged after the
commit and is pending until then, so it may be delivered again.
-/
import Mathlib.Logic.Function.Basic
import Sutram.Library.Runs
import Sutram.Observability.Dispatcher

namespace Sutram.Observability

open Sutram.Core

variable {F D : Type}

/-- The fields of a message, as the handler receives them. -/
abbrev Data := Dict String String

/-! ## Rows and metrics -/

structure ExecutionTraceORM (F : Type) where
  traceId : Uuid
  executionId : Uuid
  tenantId : Uuid
  workflowId : Uuid
  eventType : String
  stepName : Option String := none
  stepIndex : Option Int := none
  durationMs : Option Int := none
  costUsd : Option F := none
  status : Option String := none
  errorType : Option String := none
  errorMessage : Option String := none
deriving DecidableEq

structure AuditLogORM where
  tenantId : Uuid
  action : String
  resourceId : Option Uuid
deriving DecidableEq

/-- A sample a replica records for Prometheus. -/
inductive Metric (F : Type) where
  | executionStarted (tenantId : Uuid)
  | stepCompleted (workflowId : Uuid) (stepName : String) (durationMs : Int)
  | executionCompleted (tenantId : Uuid) (status : ExecutionStatus) (durationMs : Int) (costUsd : F)
  | memorySearched (latencyMs : Int)
deriving DecidableEq

/-- `int` and `float` of a text. -/
structure Builtins (F : Type) where
  int : String → Option Int
  float : String → Option F

/-- A field that may be missing; `none` says that its conversion raises. -/
def readField {α : Type} (convert : String → Option α) : Option String → Option (Option α)
  | none => some none
  | some text => (convert text).map some

/-- The UUIDs that stand in for missing ones. -/
structure FallbackIds where
  traceId : Uuid
  executionId : Uuid

/-- `_write_span_from_dict`.  On the texts the dispatcher lets through `uuid.UUID` is
`Uuid.parse`. -/
def writeSpanFromDict (b : Builtins F) (ids : FallbackIds) (tenantId workflowId : Uuid)
    (span : Data) : Option (ExecutionTraceORM F) :=
  match readField Uuid.parse (span.get? "trace_id"),
    readField Uuid.parse (span.get? "execution_id"),
    readField b.int (span.get? "step_index"), readField b.int (span.get? "duration_ms"),
    readField b.float (span.get? "cost_usd") with
  | some traceId, some executionId, some stepIndex, some durationMs, some costUsd =>
    some
      { traceId := traceId.getD ids.traceId
        executionId := executionId.getD ids.executionId
        tenantId := tenantId
        workflowId := workflowId
        eventType := (span.get? "event_type").getD "unknown"
        stepName := span.get? "step_name"
        stepIndex := stepIndex
        durationMs := durationMs
        costUsd := costUsd
        errorType := span.get? "error_type"
        errorMessage := span.get? "error_message" }
  | _, _, _, _, _ => none

def writeSpans (b : Builtins F) (ids : Nat → FallbackIds) (tenantId workflowId : Uuid) :
    List Data → Option (List (ExecutionTraceORM F))
  | [] => some []
  | span :: rest =>
    match writeSpanFromDict b (ids rest.length) tenantId workflowId span,
      writeSpans b ids tenantId workflowId rest with
    | some row, some rows => some (row :: rows)
    | _, _ => none

def completionSpan (e : ExecutionCompletedEvent F D) : ExecutionTraceORM F where
  traceId := e.traceId
  executionId := e.executionId
  tenantId := e.tenantId
  workflowId := e.workflowId
  eventType := "execution.completed"
  durationMs := some e.totalDurationMs
  costUsd := some e.totalCostUsd
  status := some e.status.value

/-! ## The trace buffer -/

/-- Redis: the hash of spans and the failure flag of each execution. -/
structure TraceBuffer where
  spans : Uuid → Dict String Data
  hasFailure : Uuid → Bool

namespace TraceBuffer

def empty : TraceBuffer := ⟨fun _ => Dict.empty, fun _ => false⟩

def bufferSpan (b : TraceBuffer) (executionId : Uuid) (spanKey : String) (span : Data) :
    TraceBuffer :=
  { b with spans := Function.update b.spans executionId ((b.spans executionId).set spanKey span) }

def markHasFailure (b : TraceBuffer) (executionId : Uuid) : TraceBuffer :=
  { b with hasFailure := Function.update b.hasFailure executionId true }

/-- `hgetall`, values only. -/
def values (b : TraceBuffer) (executionId : Uuid) : List Data :=
  (b.spans executionId).entries.map Prod.snd

def dropSpans (b : TraceBuffer) (executionId : Uuid) : TraceBuffer :=
  { b with spans := Function.update b.spans executionId Dict.empty }

def dropFailure (b : TraceBuffer) (executionId : Uuid) : TraceBuffer :=
  { b with hasFailure := Function.update b.hasFailure executionId false }

section Lemmas

variable (b : TraceBuffer) {executionId other : Uuid} {key : String} {span old : Data}

theorem mem_values_bufferSpan : span ∈ (b.bufferSpan executionId key span).values executionId := by
  simp only [values, bufferSpan, Function.update_self]
  exact List.mem_map.mpr ⟨(key, span), Dict.mem_setEntry_self key span _, rfl⟩

/-- Another span is still there, unless it stood under the same key. -/
theorem values_bufferSpan (h : old ∈ b.values executionId) :
    old ∈ (b.bufferSpan executionId key span).values executionId ∨
      (b.spans executionId).get? key = some old := by
  obtain ⟨⟨k, old'⟩, hmem, rfl⟩ := List.mem_map.mp h
  by_cases hk : k = key
  · subst hk
    exact .inr ((Dict.mem_iff_get? _ _ _).mp hmem)
  · refine .inl ?_
    simp only [values, bufferSpan, Function.update_self]
    exact List.mem_map.mpr ⟨(k, old'), (Dict.mem_setEntry_of_ne hk).mpr hmem, rfl⟩

theorem values_bufferSpan_of_ne (h : executionId ≠ other) :
    (b.bufferSpan executionId key span).values other = b.values other := by
  simp only [values, bufferSpan, Function.update_of_ne (Ne.symm h)]

theorem values_dropSpans_of_ne (h : executionId ≠ other) :
    (b.dropSpans executionId).values other = b.values other := by
  simp only [values, dropSpans, Function.update_of_ne (Ne.symm h)]

theorem hasFailure_markHasFailure_self :
    (b.markHasFailure executionId).hasFailure executionId = true := by
  simp [markHasFailure]

theorem hasFailure_markHasFailure (h : b.hasFailure other = true) :
    (b.markHasFailure executionId).hasFailure other = true := by
  by_cases heq : other = executionId
  · subst heq
    exact hasFailure_markHasFailure_self b
  · simpa [markHasFailure, heq] using h

theorem hasFailure_dropFailure_of_ne (h : executionId ≠ other) :
    (b.dropFailure executionId).hasFailure other = b.hasFailure other := by
  simp [dropFailure, Function.update_of_ne (Ne.symm h)]

end Lemmas

end TraceBuffer

/-! ## The state -/

/-- Where a handler stands. -/
inductive Stage (F : Type) where
  /-- before the HSET of `buffer_span` -/
  | buffer
  /-- before the EXPIRE of `buffer_span` -/
  | expire
  /-- before the SET of `mark_has_failure` -/
  | flag
  /-- before the GET of `should_keep` -/
  | decide
  /-- before the HGETALL of `flush` -/
  | read (keep : Bool)
  /-- before the DELETE of `flush` -/
  | clear (keep : Bool) (spans : List Data)
  /-- before the spans are turned into rows and flushed -/
  | write (spans : List Data)
  /-- before the commit of the rows in the session -/
  | commit (traces : List (ExecutionTraceORM F)) (audit : List AuditLogORM)
deriving DecidableEq

/-- What a replica does with the message it has in work. -/
inductive Work (F D : Type) where
  | handle (i : Nat) (data : Data) (event : Event F D) (stage : Stage F)
  | ack (i : Nat)
deriving DecidableEq

structure Replica (F D : Type) where
  work : Option (Work F D)
  recorded : List (Metric F)

/-- `buffered` is history: the messages whose step has been buffered, and flagged if it
failed, at least once. -/
structure World (F D : Type) (n : Nat) where
  buffer : TraceBuffer
  traces : List (ExecutionTraceORM F)
  audit : List AuditLogORM
  acked : List Nat
  buffered : List Data
  replicas : Fin n → Replica F D

/-- The coercions and built-ins, the sampler's threshold and the messages of the stream. -/
structure Config (F D : Type) where
  scalars : Scalars F D
  builtins : Builtins F
  slowThresholdMs : Int
  stream : List Data

/-- What the environment answers to one step: whether the draw is below the sample rate,
and the UUIDs that stand in for missing ones. -/
structure Env where
  draw : Bool
  ids : Nat → FallbackIds

inductive Action (D : Type) (n : Nat) where
  | deliver (r : Fin n) (i : Nat) (fresh : Fresh D)
  | advance (r : Fin n) (env : Env)
  /-- an operation raises: the session is rolled back and the message stays pending -/
  | fail (r : Fin n)
  /-- the process dies, its metrics with it -/
  | crash (r : Fin n)
  | expireSpans (executionId : Uuid)
  | expireFailure (executionId : Uuid)

namespace World

variable {n : Nat}

def initial : World F D n := ⟨.empty, [], [], [], [], fun _ => ⟨none, []⟩⟩

def setWork (w : World F D n) (r : Fin n) (work : Option (Work F D)) : World F D n :=
  { w with replicas := Function.update w.replicas r ⟨work, (w.replicas r).recorded⟩ }

def record (w : World F D n) (r : Fin n) (m : Metric F) : World F D n :=
  { w with
    replicas :=
      Function.update w.replicas r ⟨(w.replicas r).work, (w.replicas r).recorded ++ [m]⟩ }

def crash (w : World F D n) (r : Fin n) : World F D n :=
  { w with replicas := Function.update w.replicas r ⟨none, []⟩ }

def onBuffer (w : World F D n) (f : TraceBuffer → TraceBuffer) : World F D n :=
  { w with buffer := f w.buffer }

def markBuffered (w : World F D n) (data : Data) : World F D n :=
  { w with buffered := data :: w.buffered }

def commit (w : World F D n) (traces : List (ExecutionTraceORM F)) (audit : List AuditLogORM) :
    World F D n :=
  { w with traces := w.traces ++ traces, audit := w.audit ++ audit }

def ack (w : World F D n) (i : Nat) : World F D n := { w with acked := i :: w.acked }

@[simp] theorem setWork_work_self (w : World F D n) (r : Fin n) (work : Option (Work F D)) :
    ((w.setWork r work).replicas r).work = work := by
  simp [setWork]

@[simp] theorem setWork_work_of_ne (w : World F D n) {r r' : Fin n} (h : r' ≠ r)
    (work : Option (Work F D)) :
    ((w.setWork r work).replicas r').work = (w.replicas r').work := by
  simp [setWork, h]

@[simp] theorem record_work (w : World F D n) (r r' : Fin n) (m : Metric F) :
    ((w.record r m).replicas r').work = (w.replicas r').work := by
  by_cases h : r' = r
  · subst h
    simp [record]
  · simp [record, h]

@[simp] theorem crash_work_self (w : World F D n) (r : Fin n) :
    ((w.crash r).replicas r).work = none := by
  simp [crash]

@[simp] theorem crash_work_of_ne (w : World F D n) {r r' : Fin n} (h : r' ≠ r) :
    ((w.crash r).replicas r').work = (w.replicas r').work := by
  simp [crash, h]

end World

/-! ## The handler -/

def lowerValue (s : ExecutionStatus) : String := String.ofList (s.value.toList.map Char.toLower)

/-- The first stage of the handler of an event. -/
def firstStage : Event F D → Stage F
  | .executionStarted _ | .stepCompleted _ | .stepFailed _ => .buffer
  | .executionCompleted _ => .decide
  | .executionPaused e => .commit [] [⟨e.tenantId, "execution.paused", some e.executionId⟩]
  | .memoryWritten e => .commit [] [⟨e.tenantId, "memory.written", some e.memoryItemId⟩]
  | .memorySearched _ => .commit [] []

/-- The execution and the span key an event is buffered under. -/
def spanKey : Event F D → Option (Uuid × String)
  | .executionStarted e => some (e.executionId, "started:" ++ e.executionId.str)
  | .stepCompleted e => some (e.executionId, "step:" ++ toString e.stepIndex)
  | .stepFailed e => some (e.executionId, "step_failed:" ++ toString e.stepIndex)
  | _ => none

def completedMetric (e : ExecutionCompletedEvent F D) : Metric F :=
  .executionCompleted e.tenantId e.status e.totalDurationMs e.totalCostUsd

def completedAudit (e : ExecutionCompletedEvent F D) : AuditLogORM :=
  ⟨e.tenantId, "execution." ++ lowerValue e.status, some e.executionId⟩

section Step

variable {n : Nat} (cfg : Config F D)

/-- A completed step is buffered with the HSET, a failed one with its flag only. -/
def noteBuffered (w : World F D n) (data : Data) : Event F D → World F D n
  | .stepCompleted _ => w.markBuffered data
  | _ => w

/-- What `buffer_span` is followed by. -/
def afterBuffer (w : World F D n) (r : Fin n) (i : Nat) (data : Data) :
    Event F D → Option (World F D n)
  | .executionStarted e =>
    let audit := [⟨e.tenantId, "execution.started", some e.executionId⟩]
    some ((w.record r (.executionStarted e.tenantId)).setWork r
      (some (.handle i data (.executionStarted e) (.commit [] audit))))
  | .stepCompleted e =>
    some ((w.record r (.stepCompleted e.workflowId e.stepName e.durationMs)).setWork r
      (some (.handle i data (.stepCompleted e) (.commit [] []))))
  | .stepFailed e => some (w.setWork r (some (.handle i data (.stepFailed e) .flag)))
  | _ => none

def shouldKeep (w : World F D n) (e : ExecutionCompletedEvent F D) (draw : Bool) : Bool :=
  w.buffer.hasFailure e.executionId || cfg.slowThresholdMs < e.totalDurationMs || draw

/-- One stage of a handler. -/
def advanceHandler (w : World F D n) (r : Fin n) (env : Env) (i : Nat) (data : Data)
    (event : Event F D) : Stage F → Option (World F D n)
  | .buffer =>
    match spanKey event with
    | some (executionId, key) =>
      some ((noteBuffered (w.onBuffer fun b => b.bufferSpan executionId key data) data
        event).setWork r (some (.handle i data event .expire)))
    | none => none
  -- A key may expire at any time, so EXPIRE itself leaves no trace in the state.
  | .expire => afterBuffer w r i data event
  | .flag =>
    match event with
    | .stepFailed e =>
      let audit := [⟨e.tenantId, "execution.step.failed", some e.executionId⟩]
      some (((w.onBuffer fun b => b.markHasFailure e.executionId).markBuffered data).setWork r
        (some (.handle i data event (.commit [] audit))))
    | _ => none
  | .decide =>
    match event with
    | .executionCompleted e =>
      some (w.setWork r (some (.handle i data event (.read (shouldKeep cfg w e env.draw)))))
    | _ => none
  | .read keep =>
    match event with
    | .executionCompleted e =>
      some (w.setWork r (some (.handle i data event (.clear keep (w.buffer.values e.executionId)))))
    | _ => none
  | .clear keep spans =>
    match event with
    | .executionCompleted e =>
      let w := w.onBuffer fun b => (b.dropSpans e.executionId).dropFailure e.executionId
      if keep then some (w.setWork r (some (.handle i data event (.write spans))))
      else
        some ((w.record r (completedMetric e)).setWork r
          (some (.handle i data event (.commit [] [completedAudit e]))))
    | _ => none
  | .write spans =>
    match event with
    | .executionCompleted e =>
      match writeSpans cfg.builtins env.ids e.tenantId e.workflowId spans with
      | some rows =>
        some ((w.record r (completedMetric e)).setWork r
          (some (.handle i data event (.commit (completionSpan e :: rows) [completedAudit e]))))
      -- a span that does not convert raises
      | none => some (w.setWork r none)
    | _ => none
  | .commit traces audit => some ((w.commit traces audit).setWork r (some (.ack i)))

/-- A message is taken up: `_process_one` up to the first operation. -/
def begin (w : World F D n) (r : Fin n) (i : Nat) (data : Data) (fresh : Fresh D) : World F D n :=
  match parseEvent cfg.scalars fresh data with
  | .error (.unknownEventType _) => w.setWork r (some (.ack i))
  -- the error leaves `_process_one` and the message stays pending
  | .error (.validationError _) => w
  | .ok (.memorySearched e) =>
    (w.record r (.memorySearched e.latencyMs)).setWork r
      (some (.handle i data (.memorySearched e) (firstStage (.memorySearched e : Event F D))))
  | .ok event => w.setWork r (some (.handle i data event (firstStage event)))

def step (w : World F D n) : Action D n → Option (World F D n)
  | .deliver r i fresh =>
    match cfg.stream[i]?, (w.replicas r).work with
    | some data, none => if i ∈ w.acked then none else some (begin cfg w r i data fresh)
    | _, _ => none
  | .advance r env =>
    match (w.replicas r).work with
    | some (.handle i data event stage) => advanceHandler cfg w r env i data event stage
    | some (.ack i) => some ((w.ack i).setWork r none)
    | none => none
  | .fail r => some (w.setWork r none)
  | .crash r => some (w.crash r)
  | .expireSpans executionId => some (w.onBuffer fun b => b.dropSpans executionId)
  | .expireFailure executionId => some (w.onBuffer fun b => b.dropFailure executionId)

end Step

end Sutram.Observability
