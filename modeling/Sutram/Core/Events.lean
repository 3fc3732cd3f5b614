/-
The events of the shared core and their stream encoding.

Floats and datetimes are parameters: `Scalars` holds what `str`, `==` and lax
coercion do with them, and what of it the round trip relies on.
-/
import Sutram.Core.Json
import Sutram.Core.Models

namespace Sutram.Core

/-- `str`, `==` and lax coercion on the scalar types whose texts are not spelled out. -/
structure Scalars (F D : Type) where
  zero : F
  floatStr : F → String
  floatEq : F → F → Bool
  dateStr : D → String
  int : Coerce Int
  float : Coerce F
  date : Coerce D
  /-- A float that is not equal to itself is equal to none. -/
  floatEq_self : ∀ x y, floatEq x y → floatEq x x
  int_str : ∀ n, int (toString n) = .ok n
  float_str : ∀ x, floatEq x x → float (floatStr x) = .ok x
  date_str : ∀ d, date (dateStr d) = .ok d

/-- A value of `model_dump`. -/
inductive Value (F D : Type) where
  | str (s : String)
  | int (n : Int)
  | float (x : F)
  | bool (b : Bool)
  | uuid (u : Uuid)
  | datetime (d : D)
  | status (s : ExecutionStatus)
  | memoryType (t : MemoryType)
  | list (xs : List Json)
  | dict (kvs : List (String × Json))

variable {F D : Type}

/-- Dicts and lists are JSON-encoded, everything else goes through `str`. -/
def Value.text (c : Scalars F D) : Value F D → String
  | .dict kvs => (Json.dict kvs).dumps
  | .list xs => (Json.list xs).dumps
  | .str s => s
  | .int n => toString n
  | .float x => c.floatStr x
  | .bool b => Coerce.ofBool b
  | .uuid u => u.str
  | .datetime d => c.dateStr d
  | .status s => s.value
  | .memoryType t => t.value

/-! ## The events

The field `event_type` is a literal in every class: it is no part of the structures and
stands first in every dump. -/

structure BaseEvent (D : Type) where
  traceId : Uuid
  tenantId : Uuid
  timestamp : D
  schemaVersion : Int := 1
deriving DecidableEq

structure ExecutionStartedEvent (D : Type) extends BaseEvent D where
  executionId : Uuid
  workflowId : Uuid
deriving DecidableEq

structure StepCompletedEvent (F D : Type) extends BaseEvent D where
  executionId : Uuid
  workflowId : Uuid
  stepName : String
  stepIndex : Int
  durationMs : Int
  costUsd : F
  outputs : List (String × Json) := []
deriving DecidableEq

structure StepFailedEvent (D : Type) extends BaseEvent D where
  executionId : Uuid
  workflowId : Uuid
  stepName : String
  stepIndex : Int
  errorType : String
  errorMessage : String
  willRetry : Bool := false
deriving DecidableEq

structure ExecutionCompletedEvent (F D : Type) extends BaseEvent D where
  executionId : Uuid
  workflowId : Uuid
  status : ExecutionStatus
  totalDurationMs : Int
  totalCostUsd : F
  totalSteps : Int
deriving DecidableEq

structure ExecutionPausedEvent (D : Type) extends BaseEvent D where
  executionId : Uuid
  workflowId : Uuid
  pauseReason : String
  pausedAtStep : String
deriving DecidableEq

structure MemoryWrittenEvent (D : Type) extends BaseEvent D where
  memoryItemId : Uuid
  memoryType : MemoryType
deriving DecidableEq

structure MemorySearchedEvent (D : Type) extends BaseEvent D where
  queryHash : String
  resultsCount : Int
  latencyMs : Int
  cacheHit : Bool := false
deriving DecidableEq

inductive Event (F D : Type) where
  | executionStarted (e : ExecutionStartedEvent D)
  | stepCompleted (e : StepCompletedEvent F D)
  | stepFailed (e : StepFailedEvent D)
  | executionCompleted (e : ExecutionCompletedEvent F D)
  | executionPaused (e : ExecutionPausedEvent D)
  | memoryWritten (e : MemoryWrittenEvent D)
  | memorySearched (e : MemorySearchedEvent D)
deriving DecidableEq

namespace Event

def eventType : Event F D → String
  | executionStarted _ => "execution.started"
  | stepCompleted _ => "execution.step.completed"
  | stepFailed _ => "execution.step.failed"
  | executionCompleted _ => "execution.completed"
  | executionPaused _ => "execution.paused"
  | memoryWritten _ => "memory.written"
  | memorySearched _ => "memory.searched"

def base : Event F D → BaseEvent D
  | executionStarted e => e.toBaseEvent
  | stepCompleted e => e.toBaseEvent
  | stepFailed e => e.toBaseEvent
  | executionCompleted e => e.toBaseEvent
  | executionPaused e => e.toBaseEvent
  | memoryWritten e => e.toBaseEvent
  | memorySearched e => e.toBaseEvent

/-- `==` of two events: the same class, and equal fields. -/
def Equal (c : Scalars F D) : Event F D → Event F D → Prop
  | executionCompleted a, executionCompleted b =>
    { a with totalCostUsd := b.totalCostUsd } = b ∧ c.floatEq a.totalCostUsd b.totalCostUsd
  | stepCompleted a, stepCompleted b =>
    { a with costUsd := b.costUsd } = b ∧ c.floatEq a.costUsd b.costUsd
  | a, b => a = b

end Event

/-! ## Encoding -/

def BaseEvent.dump (eventType : String) (e : BaseEvent D) : List (String × Value F D) :=
  [("event_type", .str eventType), ("trace_id", .uuid e.traceId), ("tenant_id", .uuid e.tenantId),
    ("timestamp", .datetime e.timestamp), ("schema_version", .int e.schemaVersion)]

namespace Event

/-- The fields a class adds to those of `BaseEvent`. -/
def ownFields : Event F D → List (String × Value F D)
  | executionStarted e =>
    [("execution_id", .uuid e.executionId), ("workflow_id", .uuid e.workflowId)]
  | stepCompleted e =>
    [("execution_id", .uuid e.executionId), ("workflow_id", .uuid e.workflowId),
      ("step_name", .str e.stepName), ("step_index", .int e.stepIndex),
      ("duration_ms", .int e.durationMs), ("cost_usd", .float e.costUsd),
      ("outputs", .dict e.outputs)]
  | stepFailed e =>
    [("execution_id", .uuid e.executionId), ("workflow_id", .uuid e.workflowId),
      ("step_name", .str e.stepName), ("step_index", .int e.stepIndex),
      ("error_type", .str e.errorType), ("error_message", .str e.errorMessage),
      ("will_retry", .bool e.willRetry)]
  | executionCompleted e =>
    [("execution_id", .uuid e.executionId), ("workflow_id", .uuid e.workflowId),
      ("status", .status e.status), ("total_duration_ms", .int e.totalDurationMs),
      ("total_cost_usd", .float e.totalCostUsd), ("total_steps", .int e.totalSteps)]
  | executionPaused e =>
    [("execution_id", .uuid e.executionId), ("workflow_id", .uuid e.workflowId),
      ("pause_reason", .str e.pauseReason), ("paused_at_step", .str e.pausedAtStep)]
  | memoryWritten e =>
    [("memory_item_id", .uuid e.memoryItemId), ("memory_type", .memoryType e.memoryType)]
  | memorySearched e =>
    [("query_hash", .str e.queryHash), ("results_count", .int e.resultsCount),
      ("latency_ms", .int e.latencyMs), ("cache_hit", .bool e.cacheHit)]

def modelDump (e : Event F D) : List (String × Value F D) :=
  e.base.dump e.eventType ++ e.ownFields

/-- Serialize for Redis Streams XADD: all values are flat strings. -/
def toStreamDict (c : Scalars F D) (e : Event F D) : Dict String String :=
  Dict.ofPairs (e.modelDump.map fun kv => (kv.1, kv.2.text c))

theorem nodup_modelDump (e : Event F D) : (e.modelDump.map Prod.fst).Nodup := by
  cases e <;> simp [modelDump, BaseEvent.dump, ownFields]

/-- Every field is found in the stream dict under its name. -/
theorem get?_toStreamDict (c : Scalars F D) (e : Event F D) {k : String} {v : Value F D}
    (h : (k, v) ∈ e.modelDump) : (e.toStreamDict c).get? k = some (v.text c) := by
  have hkeys : (e.modelDump.map fun kv => (kv.1, kv.2.text c)).map Prod.fst =
      e.modelDump.map Prod.fst := by
    rw [List.map_map]
    rfl
  refine Dict.get?_ofPairs_of_mem ?_ (List.mem_map.mpr ⟨_, h, rfl⟩)
  rw [hkeys]
  exact e.nodup_modelDump

end Event

/-! ## Decoding -/

/-- What the default factories of `BaseEvent` produce. -/
structure Fresh (D : Type) where
  traceId : Uuid
  timestamp : D

section Validate

variable (c : Scalars F D) (fresh : Fresh D) (data : Dict String String)

def BaseEvent.validate (eventType : String) : Checked (BaseEvent D) :=
  (Checked.build fun () traceId tenantId timestamp schemaVersion =>
      ⟨traceId, tenantId, timestamp, schemaVersion⟩)
    |>.seq (optional data "event_type" () (Coerce.literal eventType))
    |>.seq (optional data "trace_id" fresh.traceId Coerce.uuid)
    |>.seq (required data "tenant_id" Coerce.uuid)
    |>.seq (optional data "timestamp" fresh.timestamp c.date)
    |>.seq (optional data "schema_version" 1 c.int)

def ExecutionStartedEvent.validate : Checked (ExecutionStartedEvent D) :=
  (Checked.build ExecutionStartedEvent.mk)
    |>.seq (BaseEvent.validate c fresh data "execution.started")
    |>.seq (required data "execution_id" Coerce.uuid)
    |>.seq (required data "workflow_id" Coerce.uuid)

def StepCompletedEvent.validate : Checked (StepCompletedEvent F D) :=
  (Checked.build StepCompletedEvent.mk)
    |>.seq (BaseEvent.validate c fresh data "execution.step.completed")
    |>.seq (required data "execution_id" Coerce.uuid)
    |>.seq (required data "workflow_id" Coerce.uuid)
    |>.seq (required data "step_name" Coerce.str)
    |>.seq (required data "step_index" c.int)
    |>.seq (required data "duration_ms" c.int)
    |>.seq (optional data "cost_usd" c.zero c.float)
    |>.seq (optional data "outputs" [] Coerce.dict)

def StepFailedEvent.validate : Checked (StepFailedEvent D) :=
  (Checked.build StepFailedEvent.mk)
    |>.seq (BaseEvent.validate c fresh data "execution.step.failed")
    |>.seq (required data "execution_id" Coerce.uuid)
    |>.seq (required data "workflow_id" Coerce.uuid)
    |>.seq (required data "step_name" Coerce.str)
    |>.seq (required data "step_index" c.int)
    |>.seq (required data "error_type" Coerce.str)
    |>.seq (required data "error_message" Coerce.str)
    |>.seq (optional data "will_retry" false Coerce.bool)

def ExecutionCompletedEvent.validate : Checked (ExecutionCompletedEvent F D) :=
  (Checked.build ExecutionCompletedEvent.mk)
    |>.seq (BaseEvent.validate c fresh data "execution.completed")
    |>.seq (required data "execution_id" Coerce.uuid)
    |>.seq (required data "workflow_id" Coerce.uuid)
    |>.seq (required data "status" ExecutionStatus.coerce)
    |>.seq (required data "total_duration_ms" c.int)
    |>.seq (required data "total_cost_usd" c.float)
    |>.seq (required data "total_steps" c.int)

def ExecutionPausedEvent.validate : Checked (ExecutionPausedEvent D) :=
  (Checked.build ExecutionPausedEvent.mk)
    |>.seq (BaseEvent.validate c fresh data "execution.paused")
    |>.seq (required data "execution_id" Coerce.uuid)
    |>.seq (required data "workflow_id" Coerce.uuid)
    |>.seq (required data "pause_reason" Coerce.str)
    |>.seq (required data "paused_at_step" Coerce.str)

def MemoryWrittenEvent.validate : Checked (MemoryWrittenEvent D) :=
  (Checked.build MemoryWrittenEvent.mk)
    |>.seq (BaseEvent.validate c fresh data "memory.written")
    |>.seq (required data "memory_item_id" Coerce.uuid)
    |>.seq (required data "memory_type" MemoryType.coerce)

def MemorySearchedEvent.validate : Checked (MemorySearchedEvent D) :=
  (Checked.build MemorySearchedEvent.mk)
    |>.seq (BaseEvent.validate c fresh data "memory.searched")
    |>.seq (required data "query_hash" Coerce.str)
    |>.seq (required data "results_count" c.int)
    |>.seq (required data "latency_ms" c.int)
    |>.seq (optional data "cache_hit" false Coerce.bool)

end Validate

end Sutram.Core
