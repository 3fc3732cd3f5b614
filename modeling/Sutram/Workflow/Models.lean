/-
The rows and objects the executor works on.

One execution is in view throughout, so ids that never change (`id`, `tenant_id`,
`workflow_id`) are not columns here.  A row read by a session becomes an object
with the values it was loaded with; assignments change the object, and a flush
writes exactly the columns that differ from the loaded values.
-/
import Mathlib.Algebra.Order.Ring.Rat
import Mathlib.Data.List.MinMax
import Sutram.Core.Json
import Sutram.Library.ReadCommitted
import Sutram.Workflow.StateMachine

namespace Sutram.Workflow

open Sutram.Core

structure StepConfig where
  name : String
  checkpointBefore : Bool := false
deriving DecidableEq, Repr

structure WorkflowStep where
  config : StepConfig
deriving DecidableEq, Repr

structure WorkflowDefinition where
  steps : List WorkflowStep
deriving DecidableEq, Repr

/-- `contextVariables` is the JSON object the workflow was started with. -/
structure ExecutionContext where
  contextVariables : List (String × Json) := []
  currentStepIndex : Nat := 0
  totalCostUsd : ℚ := 0
deriving DecidableEq, Inhabited

structure ExecutionRow where
  status : ExecutionStatus := .pending
  context : ExecutionContext := {}
  errorMessage : Option String := none
  pauseReason : Option String := none
  lastHeartbeat : Option Nat := none
deriving DecidableEq, Inhabited

/-- A row of `checkpoints`.  The table is append-only, so the committed rows are a
list in the order of their creation. -/
structure CheckpointRow where
  stepName : String
  stepIndex : Nat
  contextVariables : List (String × Json)
  state : List (String × Json) := []
  schemaVersion : Int := 1
deriving DecidableEq

/-! ## Session objects -/

/-- An execution held by a session: its columns as loaded and as assigned since. -/
structure Orm where
  loaded : ExecutionRow
  current : ExecutionRow
deriving DecidableEq, Inhabited

/-- A column is written by the UPDATE when its value differs from the loaded one. -/
def patchColumn {α : Type} [DecidableEq α] (loaded current stored : α) : α :=
  if current = loaded then stored else current

@[simp] theorem patchColumn_clean {α : Type} [DecidableEq α] (loaded stored : α) :
    patchColumn loaded loaded stored = stored := if_pos rfl

@[simp] theorem patchColumn_loaded {α : Type} [DecidableEq α] (loaded current : α) :
    patchColumn loaded current loaded = current := by
  unfold patchColumn
  split
  · rename_i h
    exact h.symm
  · rfl

namespace Orm

def ofRow (row : ExecutionRow) : Orm := ⟨row, row⟩

/-- The UPDATE of a flush, on the version of the row it finds. -/
def patch (o : Orm) (row : ExecutionRow) : ExecutionRow where
  status := patchColumn o.loaded.status o.current.status row.status
  context := patchColumn o.loaded.context o.current.context row.context
  errorMessage := patchColumn o.loaded.errorMessage o.current.errorMessage row.errorMessage
  pauseReason := patchColumn o.loaded.pauseReason o.current.pauseReason row.pauseReason
  lastHeartbeat := patchColumn o.loaded.lastHeartbeat o.current.lastHeartbeat row.lastHeartbeat

def flushed (o : Orm) : Orm := ofRow o.current

def assign (o : Orm) (f : ExecutionRow → ExecutionRow) : Orm := { o with current := f o.current }

@[simp] theorem ofRow_loaded (row : ExecutionRow) : (ofRow row).loaded = row := rfl

@[simp] theorem ofRow_current (row : ExecutionRow) : (ofRow row).current = row := rfl

@[simp] theorem flushed_loaded (o : Orm) : o.flushed.loaded = o.current := rfl

@[simp] theorem flushed_current (o : Orm) : o.flushed.current = o.current := rfl

@[simp] theorem assign_loaded (o : Orm) (f : ExecutionRow → ExecutionRow) :
    (o.assign f).loaded = o.loaded := rfl

@[simp] theorem assign_current (o : Orm) (f : ExecutionRow → ExecutionRow) :
    (o.assign f).current = f o.current := rfl

/-- On the version it was loaded from, the UPDATE gives the object's values. -/
theorem patch_loaded (o : Orm) : o.patch o.loaded = o.current := by
  simp [patch]

theorem patch_status_of_clean {o : Orm} (h : o.current.status = o.loaded.status)
    (row : ExecutionRow) : (o.patch row).status = row.status := by
  simp [patch, patchColumn, h]

theorem patch_status_of_dirty {o : Orm} (h : o.current.status ≠ o.loaded.status)
    (row : ExecutionRow) : (o.patch row).status = o.current.status := by
  simp [patch, patchColumn, h]

theorem patch_status (o : Orm) (row : ExecutionRow) :
    (o.patch row).status = row.status ∨ (o.patch row).status = o.current.status := by
  by_cases h : o.current.status = o.loaded.status
  · exact Or.inl (patch_status_of_clean h row)
  · exact Or.inr (patch_status_of_dirty h row)

end Orm

/-- A keyword left out of `_update_status` leaves the column unchanged. -/
def setUnlessUnset {α : Type} (value : Option α) (column : α) : α := value.getD column

/-- The assignments of `_update_status`, before its flush. -/
def updateStatus (newStatus : ExecutionStatus) (now : Nat) (o : Orm)
    (errorMessage : Option (Option String) := none)
    (pauseReason : Option (Option String) := none) : Orm :=
  o.assign fun row =>
    { row with
      status := newStatus
      lastHeartbeat := some now
      errorMessage := setUnlessUnset errorMessage row.errorMessage
      pauseReason := setUnlessUnset pauseReason row.pauseReason }

@[simp] theorem updateStatus_loaded (s : ExecutionStatus) (now : Nat) (o : Orm)
    (e p : Option (Option String)) : (updateStatus s now o e p).loaded = o.loaded := rfl

@[simp] theorem updateStatus_status (s : ExecutionStatus) (now : Nat) (o : Orm)
    (e p : Option (Option String)) : (updateStatus s now o e p).current.status = s := rfl

/-! ## Checkpoints -/

namespace CheckpointManager

def shouldCheckpoint (step : StepConfig) : Bool := step.checkpointBefore

/-- The row `write` adds to the session. -/
def write (stepName : String) (stepIndex : Nat) (contextVariables : List (String × Json))
    (state : Option (List (String × Json)) := none) (schemaVersion : Int := 1) : CheckpointRow :=
  { stepName, stepIndex, contextVariables, state := state.getD [], schemaVersion }

/-- The checkpoint with the highest step index. -/
def getLatest (rows : List CheckpointRow) : Option CheckpointRow :=
  rows.argmax CheckpointRow.stepIndex

theorem getLatest_mem {rows : List CheckpointRow} {c : CheckpointRow}
    (h : getLatest rows = some c) : c ∈ rows :=
  List.argmax_mem h

theorem le_getLatest {rows : List CheckpointRow} {c d : CheckpointRow}
    (h : getLatest rows = some c) (hd : d ∈ rows) : d.stepIndex ≤ c.stepIndex :=
  List.le_of_mem_argmax hd h

end CheckpointManager

/-! ## Costs -/

inductive CostLimitExceeded where
  | perExecution | perDay
deriving DecidableEq, Repr

structure CostTracker where
  maxPerExecution : ℚ
  maxPerDay : ℚ
  total : ℚ := 0
  dailyTotal : ℚ := 0
deriving Inhabited

/-- The execution limit is checked before the daily one, and nothing is added when
either would be breached. -/
def CostTracker.add (t : CostTracker) (cost : ℚ) : Except CostLimitExceeded CostTracker :=
  if t.maxPerExecution < t.total + cost then .error .perExecution
  else if t.maxPerDay < t.dailyTotal + cost then .error .perDay
  else .ok { t with total := t.total + cost, dailyTotal := t.dailyTotal + cost }

end Sutram.Workflow
