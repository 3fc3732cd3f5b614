/-
The workflow service with all its executions.

One database holds the workflows and the executions of all tenants, one Redis the locks
of all executions, and one broker the tasks of all of them.  A worker process runs the
task of one execution at a time, and a recovery pod works through the list of all
executions that look stale.  What a worker, a request or a pod does next is what it does
when there is only one execution; here every statement names its row, every lock its
key and every task and event its execution.

The columns of an execution that never change are a row of `executions`.  Those that
sessions update are under its id in `rows`, with the row lock.
-/
import Sutram.Core.Definition
import Sutram.Library.Table
import Sutram.Workflow.Routes

namespace Sutram.Workflow

open Sutram.Core

/-! ## The state -/

/-- `inputs` is history: what the execute request has sent. -/
structure Execution where
  id : Uuid
  tenantId : Uuid
  workflowId : Uuid
  definitionSnapshot : Option Json
  inputs : List (String × Json)

/-- A worker process, with the execution its task names and the definition `_run` has
validated for it. -/
structure Process where
  executionId : Uuid
  definition : WorkflowDefinition := ⟨[]⟩
  worker : Worker

/-- A recovery pod: the ids still to do, and where it stands with the first of them. -/
structure Sweep where
  stale : List Uuid := []
  stage : Pod := .idle
deriving DecidableEq

/-- A definition as it was posted. -/
structure Posted where
  workflowId : Uuid
  tenantId : Uuid
  definition : Json

/-- `posted` is history. -/
structure Engine where
  tenants : List Uuid := []
  workflows : Table WorkflowORM.id := .empty
  executions : Table Execution.id := .empty
  rows : Uuid → Versioned Writer ExecutionRow := fun _ => .settled {}
  checkpoints : List (Uuid × CheckpointRow) := []
  locks : String → Option Holder := fun _ => none
  tasks : List String := []
  workers : Nat → Option Process := fun _ => none
  requests : Uuid → Nat → Request := fun _ _ => {}
  pods : Nat → Sweep := fun _ => {}
  log : List (Uuid × Effect) := []
  ended : List (Uuid × Nat × Outcome) := []
  answers : List (Uuid × Nat × Answer) := []
  posted : List Posted := []
  clock : Nat := 0

structure Settings where
  lax : Lax
  maxPerExecutionUsd : ℚ := 10
  maxPerDayUsd : ℚ := 100
  stepCost : Nat → ℚ := fun _ => 0
  executionStaleThreshold : Nat := 300

/-- One execution's service, with its definition. -/
def Settings.config (cfg : Settings) (d : WorkflowDefinition) : Config where
  definitionSnapshot := some d
  workflowDefinition := d
  maxPerExecutionUsd := cfg.maxPerExecutionUsd
  maxPerDayUsd := cfg.maxPerDayUsd
  stepCost := cfg.stepCost
  executionStaleThreshold := cfg.executionStaleThreshold

/-- What the executor reads of a definition. -/
def forExecutor (d : Core.WorkflowDefinition) : WorkflowDefinition :=
  ⟨d.steps.map fun step => ⟨⟨step.config.name, step.config.checkpointBefore⟩⟩⟩

def lockKey (executionId : Uuid) : String := "execution:" ++ executionId.str ++ ":lock"

/-- The stream an event is published to. -/
def streamName (executionId : Uuid) : Stream → String
  | .global => "executions"
  | .sse => "execution:" ++ executionId.str

/-- What names the execution, of the rows of a table or the entries of a history. -/
def own {α : Type} (id : Uuid) (entries : List (Uuid × α)) : List α :=
  (entries.filter fun e => e.1 = id).map Prod.snd

namespace Engine

def find (s : Engine) (id : Uuid) : Option Execution := s.executions.find? fun ex => ex.id = id

def setRow (s : Engine) (id : Uuid) (row : Versioned Writer ExecutionRow) : Engine :=
  { s with rows := Function.update s.rows id row }

def addCheckpoints (s : Engine) (id : Uuid) (added : List CheckpointRow) : Engine :=
  { s with checkpoints := s.checkpoints ++ added.map fun c => (id, c) }

def setLock (s : Engine) (id : Uuid) (holder : Option Holder) : Engine :=
  { s with locks := Function.update s.locks (lockKey id) holder }

/-- Only the holder's own token deletes the key. -/
def releaseLock (s : Engine) (id : Uuid) (holder : Holder) : Engine :=
  s.setLock id (if s.locks (lockKey id) = some holder then none else s.locks (lockKey id))

def addTask (s : Engine) (id : Uuid) : Engine := { s with tasks := s.tasks ++ [id.str] }

def set (s : Engine) (i : Nat) (p : Option Process) : Engine :=
  { s with workers := Function.update s.workers i p }

def setWorker (s : Engine) (i : Nat) (p : Process) (k : Worker) : Engine :=
  s.set i (some { p with worker := k })

def goto (s : Engine) (i : Nat) (p : Process) (pc : Pc) : Engine :=
  s.setWorker i p (p.worker.goto pc)

def record (s : Engine) (id : Uuid) (e : Effect) : Engine := { s with log := s.log ++ [(id, e)] }

def finish (s : Engine) (i : Nat) (id : Uuid) (o : Outcome) : Engine :=
  { s.set i none with ended := s.ended ++ [(id, i, o)] }

def setRequest (s : Engine) (id : Uuid) (r : Nat) (q : Request) : Engine :=
  { s with requests := Function.update s.requests id (Function.update (s.requests id) r q) }

def answer (s : Engine) (id : Uuid) (r : Nat) (a : Answer) : Engine :=
  { s with answers := s.answers ++ [(id, r, a)] }

def setPod (s : Engine) (p : Nat) (sweep : Sweep) : Engine :=
  { s with pods := Function.update s.pods p sweep }

/-- The events of a stream. -/
def stream (s : Engine) (name : String) : List (Uuid × ExecutionEvent) :=
  s.log.filterMap fun (id, effect) =>
    match effect with
    | .published target event => if streamName id target = name then some (id, event) else none
    | _ => none

/-! ## Workflows and new executions -/

/-- `create_workflow`: a body that is no definition is answered with 422. -/
def createWorkflow (cfg : Settings) (s : Engine) (tenantId : Uuid) (body : CreateWorkflowRequest)
    (id : Uuid) : Engine :=
  match Core.WorkflowDefinition.modelValidate cfg.lax body.definition with
  | none => s
  | some definition =>
    let wf : WorkflowORM := ⟨id, tenantId, body.name, body.description, definition.modelDump, 1⟩
    if tenantId ∉ s.tenants then s
    else
      match s.workflows.insert wf with
      | none => s
      | some workflows =>
        { s with workflows, posted := s.posted ++ [⟨id, tenantId, body.definition⟩] }

/-- `execute`, up to its commit.  Its request, number 0 of the new execution, has still to
enqueue the task. -/
def execute (s : Engine) (tenantId workflowId : Uuid) (inputs : List (String × Json)) (id : Uuid) :
    Engine :=
  match s.workflows.find? fun wf => wf.id = workflowId with
  | none => s
  | some workflow =>
    if tenantId ∉ s.tenants then s
    else
      match s.executions.insert ⟨id, tenantId, workflowId, some workflow.definition, inputs⟩ with
      | none => s
      | some executions =>
        Engine.setRequest
          (Engine.setRow { s with executions } id
            (.settled { context := { contextVariables := inputs } }))
          id 0 { phase := .enqueue }

/-! ## The worker -/

/-- The definition `_run` hands to the executor, or how it ends without one. -/
def runnable (cfg : Settings) (s : Engine) (ex : Execution) :
    Except Outcome WorkflowDefinition :=
  let stored := match ex.definitionSnapshot with
    | none | some (.dict []) =>
      (s.workflows.find? fun wf => wf.id = ex.workflowId).map WorkflowORM.definition
    | some snapshot => some snapshot
  match stored with
  | none => .error .returned
  | some j =>
    match Core.WorkflowDefinition.modelValidate cfg.lax j with
    | some d => .ok (forExecutor d)
    | none => .error .raised

/-- The worker performs its next operation. -/
def runProcess (cfg : Settings) (s : Engine) (i : Nat) (p : Process) : Option Engine :=
  let id := p.executionId
  let k := p.worker
  let row := s.rows id
  let config := cfg.config p.definition
  match k.pc with
  | .idle => none
  | .read =>
    match s.find id with
    | none => some (s.finish i id .returned)
    | some ex =>
      if Terminal row.committed.status then some (s.goto i p (.close .returned))
      else
        match s.runnable cfg ex with
        | .error o => some (s.goto i p (.close o))
        | .ok d =>
          some (s.set i (some
            ⟨id, d, { k with execution := .ofRow row.committed, pc := .acquire }⟩))
  | .acquire =>
    match s.locks (lockKey id) with
    | some _ => some (s.goto i p (.close .returned))
    | none => some ((s.goto i p .setup).setLock id (some (.worker i)))
  | .setup =>
    let checkpoint := CheckpointManager.getLatest (own id s.checkpoints)
    match (ExecutionFSM.mk k.execution.current.status).transition .submit with
    | .error _ => some (s.goto i p (.release .raised))
    | .ok fsm =>
      some (s.setWorker i p { k with
        ctx := resumeContext k.execution.current.context checkpoint
        costTracker := ⟨cfg.maxPerExecutionUsd, cfg.maxPerDayUsd, 0, 0⟩
        fsm := fsm
        pc := .flushRunning (startIndex checkpoint) })
  | .flushRunning start =>
    let o := updateStatus .running s.clock k.execution
    match flushRow row (.worker i) o with
    | none => none
    | some row =>
      some ((s.setRow id row).setWorker i p
        { k with execution := o.flushed, pc := .publishStarted start .global })
  | .publishStarted start .global =>
    some ((s.record id (.published .global .started)).goto i p (.publishStarted start .sse))
  | .publishStarted start .sse =>
    some ((s.record id (.published .sse .started)).goto i p (.commitRunning start))
  | .commitRunning start =>
    some ((s.setRow id (row.commit (.worker i))).goto i p (config.next start))
  | .refresh n =>
    let read := row.view (.worker i)
    let k := { k with execution := .ofRow read }
    if read.status = .paused ∨ read.status = .cancelled then
      some (s.setWorker i p (k.goto (.release .returned)))
    else
      let step := config.stepConfig n
      let pc := if CheckpointManager.shouldCheckpoint step then .writeCheckpoint n else .execute n
      some ((s.record id (.stepStarted i n)).setWorker i p
        { k with currentStepName := step.name, pc := pc })
  | .writeCheckpoint n =>
    let checkpoint := CheckpointManager.write (config.stepConfig n).name n k.ctx.contextVariables
    some ((s.record id (.checkpointWritten i n)).setWorker i p
      { k with added := k.added ++ [checkpoint], pc := .commitCheckpoint n })
  | .commitCheckpoint n =>
    some (((s.setRow id (row.commit (.worker i))).addCheckpoints id k.added).setWorker i p
      { k with added := [], pc := .execute n })
  | .execute n =>
    let stepCost := cfg.stepCost n
    match k.costTracker.add stepCost with
    | .error _ => some (s.goto i p (.flushPaused .costExceeded))
    | .ok costTracker =>
      let ctx := { k.ctx with
        currentStepIndex := n + 1
        totalCostUsd := k.ctx.totalCostUsd + stepCost }
      some (s.setWorker i p { k with
        costTracker := costTracker
        ctx := ctx
        execution := k.execution.assign fun row => { row with context := ctx }
        pc := .publishStep n .global })
  | .publishStep n stream =>
    let name := (config.stepConfig n).name
    let event := .stepCompleted name n (cfg.stepCost n) (stepOutputs name)
    let pc := match stream with
      | .global => .publishStep n .sse
      | .sse => .flushStep n
    some ((s.record id (.published stream event)).goto i p pc)
  | .flushStep n =>
    match flushRow row (.worker i) k.execution with
    | none => none
    | some row =>
      some ((s.setRow id row).setWorker i p
        { k with execution := k.execution.flushed, pc := config.next (n + 1) })
  | .flushCompleted =>
    match k.fsm.transition .allStepsDone with
    | .error _ => some (s.goto i p (.release .raised))
    | .ok fsm =>
      let o := updateStatus .completed s.clock k.execution
      match flushRow row (.worker i) o with
      | none => none
      | some row =>
        some ((s.setRow id row).setWorker i p
          { k with fsm := fsm, execution := o.flushed, pc := .publishCompleted .global })
  | .publishCompleted stream =>
    let event := .completed .completed k.costTracker.total config.steps.length
    let pc := match stream with
      | .global => .publishCompleted .sse
      | .sse => .commitCompleted
    some ((s.record id (.published stream event)).goto i p pc)
  | .commitCompleted | .commitPaused =>
    some (((s.setRow id (row.commit (.worker i))).addCheckpoints id k.added).setWorker i p
      { k with added := [], pc := .release .returned })
  | .flushPaused why =>
    match k.fsm.transition why.trigger with
    | .error _ => some (s.goto i p (.release .raised))
    | .ok fsm =>
      if k.rejects then some (s.setWorker i p { k with fsm := fsm, pc := .release .raised })
      else
        let o := why.updateStatus s.clock k.execution
        match flushRow row (.worker i) o with
        | none => none
        | some row =>
          some ((s.setRow id row).setWorker i p
            { k with fsm := fsm, execution := o.flushed, pc := .publishPaused why .global })
  | .publishPaused why stream =>
    let event := .paused why.pauseReason k.currentStepName
    let pc := match stream with
      | .global => .publishPaused why .sse
      | .sse => .commitPaused
    some ((s.record id (.published stream event)).goto i p pc)
  | .release o => some ((s.goto i p (.close o)).releaseLock id (.worker i))
  | .close .returned =>
    some (((s.setRow id (row.commit (.worker i))).addCheckpoints id k.added).finish i id .returned)
  | .close .raised => some ((s.setRow id (row.rollback (.worker i))).finish i id .raised)

/-- The worker's next operation raises. -/
def failProcess (s : Engine) (i : Nat) (p : Process) (message : String) : Option Engine :=
  let id := p.executionId
  let rolledBack := s.setRow id ((s.rows id).rollback (.worker i))
  match p.worker.pc with
  | .idle => none
  | .close _ => some (rolledBack.finish i id .raised)
  | pc =>
    let k := p.worker.goto (pc.onFail message)
    if pc.usesDatabase then some (rolledBack.setWorker i p { k with added := [], rejects := true })
    else some (s.setWorker i p k)

def crashProcess (s : Engine) (i : Nat) (p : Process) : Option Engine :=
  let id := p.executionId
  if p.worker.pc = .idle then none
  else some (((s.setRow id ((s.rows id).rollback (.worker i))).addTask id).set i none)

/-- A text that is no UUID makes the task raise. -/
def takeTask (s : Engine) (i : Nat) (task : String) : Option Engine :=
  if s.workers i = none ∧ task ∈ s.tasks then
    let taken : Engine := { s with tasks := s.tasks.erase task }
    match Uuid.parse task with
    | none => some taken
    | some id => some (taken.set i (some { executionId := id, worker := { pc := .read } }))
  else none

/-! ## The control routes -/

def startRequest (s : Engine) (tenantId id : Uuid) (r : Nat) (kind : RequestKind) :
    Option Engine :=
  if (s.requests id r).phase = .idle then
    match s.executions.find? fun ex => ex.id = id && ex.tenantId = tenantId with
    | none => some s
    | some _ =>
      let row := (s.rows id).committed
      match (ExecutionFSM.mk row.status).transition kind.route.trigger with
      | .error e => some (s.answer id r (.conflict e.message))
      | .ok fsm => some (s.setRequest id r ⟨.flush kind, .ofRow row, fsm⟩)
  else none

def flushRequest (s : Engine) (id : Uuid) (r : Nat) : Option Engine :=
  let q := s.requests id r
  match q.phase with
  | .flush kind =>
    let o := q.execution.assign (kind.route.assign q.fsm.status)
    match flushRow (s.rows id) (.request r) o with
    | none => none
    | some row => some ((s.setRow id row).setRequest id r ⟨.commit kind, o.flushed, q.fsm⟩)
  | _ => none

def commitRequest (s : Engine) (id : Uuid) (r : Nat) : Option Engine :=
  let q := s.requests id r
  match q.phase with
  | .commit kind =>
    let committed := s.setRow id ((s.rows id).commit (.request r))
    if kind.route.enqueues then some (committed.setRequest id r { q with phase := .enqueue })
    else some ((committed.setRequest id r {}).answer id r .ok)
  | _ => none

def enqueueRequest (s : Engine) (id : Uuid) (r : Nat) : Option Engine :=
  if (s.requests id r).phase = .enqueue then
    some (((s.addTask id).setRequest id r {}).answer id r .ok)
  else none

def failEnqueue (s : Engine) (id : Uuid) (r : Nat) : Option Engine :=
  if (s.requests id r).phase = .enqueue then
    some ((s.setRequest id r {}).answer id r .serverError)
  else none

def abortRequest (s : Engine) (id : Uuid) (r : Nat) : Option Engine :=
  match (s.requests id r).phase with
  | .flush _ | .commit _ =>
    let rolledBack := s.setRow id ((s.rows id).rollback (.request r))
    some ((rolledBack.setRequest id r {}).answer id r .serverError)
  | _ => none

/-! ## Recovery -/

/-- `get_stale_executions`, over all tenants. -/
def getStaleExecutions (cfg : Settings) (s : Engine) : List Uuid :=
  (s.executions.rows.map Execution.id).filter fun id =>
    isStale (cfg.config ⟨[]⟩) s.clock (s.rows id).committed

/-- The SELECT has no ORDER BY: `ids` is what it returns. -/
def scanPod (cfg : Settings) (s : Engine) (p : Nat) (ids : List Uuid) : Option Engine :=
  if (s.pods p).stale = [] ∧ ids.Perm (s.getStaleExecutions cfg) then
    some (s.setPod p ⟨ids, if ids = [] then .idle else .stale⟩)
  else none

/-- The loop goes on with the next id. -/
def nextSweep (rest : List Uuid) : Sweep := ⟨rest, if rest = [] then .idle else .stale⟩

/-- `run_once`, one operation of `try_recover` at a time. -/
def runPod (s : Engine) (p : Nat) : Option Engine :=
  match (s.pods p).stale, (s.pods p).stage with
  | id :: rest, .stale =>
    match s.locks (lockKey id) with
    | some _ => some (s.setPod p (nextSweep rest))
    | none => some ((s.setPod p ⟨id :: rest, .enqueue⟩).setLock id (some (.pod p)))
  | id :: rest, .enqueue => some ((s.addTask id).setPod p ⟨id :: rest, .release⟩)
  | id :: rest, .release => some ((s.setPod p (nextSweep rest)).releaseLock id (.pod p))
  | _, _ => none

/-- The broker refuses a task: the lock is left, and the exception ends the sweep. -/
def failPod (s : Engine) (p : Nat) : Option Engine :=
  match (s.pods p).stale, (s.pods p).stage with
  | id :: _, .enqueue => some ((s.setPod p {}).releaseLock id (.pod p))
  | _, _ => none

def crashPod (s : Engine) (p : Nat) : Option Engine :=
  if (s.pods p).stale = [] then none else some (s.setPod p {})

/-! ## The lock's TTL -/

def holderInside (s : Engine) (id : Uuid) : Holder → Bool
  | .worker i => (s.workers i).any fun p => p.executionId = id && p.worker.pc.inLock
  | .pod p => (s.pods p).stale.head? = some id &&
      ((s.pods p).stage = .enqueue || (s.pods p).stage = .release)

def expireLock (s : Engine) (id : Uuid) : Option Engine :=
  match s.locks (lockKey id) with
  | some h => if s.holderInside id h then none else some (s.setLock id none)
  | none => none

/-! ## Steps -/

inductive Action where
  | createWorkflow (tenantId : Uuid) (body : CreateWorkflowRequest) (id : Uuid)
  | execute (tenantId workflowId : Uuid) (inputs : List (String × Json)) (id : Uuid)
  | request (tenantId id : Uuid) (r : Nat) (kind : RequestKind)
  | flush (id : Uuid) (r : Nat)
  | commit (id : Uuid) (r : Nat)
  | enqueue (id : Uuid) (r : Nat)
  | enqueueFails (id : Uuid) (r : Nat)
  | abort (id : Uuid) (r : Nat)
  | take (i : Nat) (task : String)
  | run (i : Nat)
  | fail (i : Nat) (message : String)
  | crash (i : Nat)
  | scan (p : Nat) (ids : List Uuid)
  | pod (p : Nat)
  | podFails (p : Nat)
  | podCrash (p : Nat)
  /-- the broker delivers a task again -/
  | redeliver (id : Uuid)
  | expire (id : Uuid)
  | tick

def step (cfg : Settings) (s : Engine) : Action → Option Engine
  | .createWorkflow tenantId body id => some (s.createWorkflow cfg tenantId body id)
  | .execute tenantId workflowId inputs id => some (s.execute tenantId workflowId inputs id)
  | .request tenantId id r kind => s.startRequest tenantId id r kind
  | .flush id r => s.flushRequest id r
  | .commit id r => s.commitRequest id r
  | .enqueue id r => s.enqueueRequest id r
  | .enqueueFails id r => s.failEnqueue id r
  | .abort id r => s.abortRequest id r
  | .take i task => s.takeTask i task
  | .run i => (s.workers i).bind (s.runProcess cfg i)
  | .fail i message => (s.workers i).bind fun p => s.failProcess i p message
  | .crash i => (s.workers i).bind (s.crashProcess i)
  | .scan p ids => s.scanPod cfg p ids
  | .pod p => s.runPod p
  | .podFails p => s.failPod p
  | .podCrash p => s.crashPod p
  | .redeliver id => if (s.find id).isSome then some (s.addTask id) else none
  | .expire id => s.expireLock id
  | .tick => some { s with clock := s.clock + 1 }

end Engine

end Sutram.Workflow
