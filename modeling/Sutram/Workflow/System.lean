/-
The workflow service around one execution.

Any number of workers run the `workflow.execute` task (`_run` and, inside it,
`Executor.run`), any number of requests pause, resume or cancel the execution, and
any number of recovery pods re-enqueue it when it looks stale.  They share the
execution's row (READ COMMITTED, with its row lock), its committed checkpoints, the
Redis lock `execution:{id}:lock`, the task queue and the two event streams.

A program counter names the next operation of a worker, one for each `await` that
another party can come between.  An action lets one party perform its next
operation, makes it raise, or stops the process there.  Durations, which are read
from a clock and only reported, are left out of the events.
-/
import Mathlib.Logic.Function.Basic
import Sutram.Library.Runs
import Sutram.Workflow.Models

namespace Sutram.Workflow

open Sutram.Core

/-! ## Parties -/

/-- The two streams of `_publish`, in the order it writes them. -/
inductive Stream where
  | global | sse
deriving DecidableEq, Repr

/-- The sessions that can update the row. -/
inductive Writer where
  | worker (i : Nat)
  | request (r : Nat)
deriving DecidableEq, Repr

/-- The clients of the execution lock. -/
inductive Holder where
  | worker (i : Nat)
  | pod (p : Nat)
deriving DecidableEq, Repr

/-- How a task leaves `Executor.run`. -/
inductive Outcome where
  | returned | raised
deriving DecidableEq, Repr

/-- Which handler of the step loop runs. -/
inductive Stop where
  | costExceeded
  | error (message : String)
deriving DecidableEq, Repr

inductive ExecutionEvent where
  | started
  | stepCompleted (stepName : String) (stepIndex : Nat) (costUsd : ℚ) (outputs : Json)
  | paused (pauseReason pausedAtStep : String)
  | completed (status : ExecutionStatus) (totalCostUsd : ℚ) (totalSteps : Nat)
deriving DecidableEq

/-- The next operation of a worker. -/
inductive Pc where
  | idle
  | read
  | acquire
  | setup
  | flushRunning (start : Nat)
  | publishStarted (start : Nat) (s : Stream)
  | commitRunning (start : Nat)
  | refresh (n : Nat)
  | writeCheckpoint (n : Nat)
  | commitCheckpoint (n : Nat)
  | execute (n : Nat)
  | publishStep (n : Nat) (s : Stream)
  | flushStep (n : Nat)
  | flushCompleted
  | publishCompleted (s : Stream)
  | commitCompleted
  | flushPaused (why : Stop)
  | publishPaused (why : Stop) (s : Stream)
  | commitPaused
  | release (o : Outcome)
  | close (o : Outcome)
deriving DecidableEq, Repr

/-- A worker process and the locals of its task.  `added` holds the checkpoints
flushed in the open transaction, and `rejects` says that a failed database
operation has left the session refusing further work until a rollback. -/
structure Worker where
  pc : Pc := .idle
  execution : Orm := default
  ctx : ExecutionContext := {}
  fsm : ExecutionFSM := default
  costTracker : CostTracker := default
  currentStepName : String := "unknown"
  added : List CheckpointRow := []
  rejects : Bool := false

def Worker.goto (k : Worker) (pc : Pc) : Worker := { k with pc := pc }

inductive RequestKind where
  | pause | resume | cancel
deriving DecidableEq, Repr

/-- A request holds its session open from the SELECT to the commit; `enqueue` is
what a resume, and the execute route, still have to do after their commit. -/
inductive Phase where
  | idle
  | flush (kind : RequestKind)
  | commit (kind : RequestKind)
  | enqueue
deriving DecidableEq, Repr

inductive Answer where
  | ok
  | conflict (detail : String)
  | serverError
deriving DecidableEq, Repr

structure Request where
  phase : Phase := .idle
  execution : Orm := default
  fsm : ExecutionFSM := default

/-- A recovery pod working through its stale list. -/
inductive Pod where
  | idle | stale | enqueue | release
deriving DecidableEq, Repr

/-- What a worker does that others can observe, apart from the row. -/
inductive Effect where
  | stepStarted (i n : Nat)
  | checkpointWritten (i n : Nat)
  | published (s : Stream) (e : ExecutionEvent)
deriving DecidableEq

structure World where
  row : Versioned Writer ExecutionRow
  checkpoints : List CheckpointRow := []
  lock : Option Holder := none
  tasks : Nat := 0
  workers : Nat → Worker := fun _ => {}
  requests : Nat → Request := fun _ => {}
  pods : Nat → Pod := fun _ => .idle
  log : List Effect := []
  ended : List (Nat × Outcome) := []
  answers : List (Nat × Answer) := []
  clock : Nat := 0

/-- What the service is configured with and what the execution row refers to.  The
row's foreign key keeps the workflow row as long as the execution exists. -/
structure Config where
  definitionSnapshot : Option WorkflowDefinition
  workflowDefinition : WorkflowDefinition
  maxPerExecutionUsd : ℚ := 10
  maxPerDayUsd : ℚ := 100
  /-- The cost of each step.  The executor has no tool layer yet and uses 0. -/
  stepCost : Nat → ℚ := fun _ => 0
  executionStaleThreshold : Nat := 300

namespace Config

/-- `_run` prefers the snapshot taken when the execution was created. -/
def definition (cfg : Config) : WorkflowDefinition :=
  cfg.definitionSnapshot.getD cfg.workflowDefinition

def steps (cfg : Config) : List WorkflowStep := cfg.definition.steps

def stepConfig (cfg : Config) (n : Nat) : StepConfig :=
  match cfg.steps[n]? with
  | some step => step.config
  | none => ⟨"", false⟩

/-- Where the step loop goes with `n` as its next index. -/
def next (cfg : Config) (n : Nat) : Pc :=
  if n < cfg.steps.length then .refresh n else .flushCompleted

end Config

namespace World

def set (w : World) (i : Nat) (k : Worker) : World :=
  { w with workers := Function.update w.workers i k }

def setRequest (w : World) (r : Nat) (q : Request) : World :=
  { w with requests := Function.update w.requests r q }

def setPod (w : World) (p : Nat) (x : Pod) : World :=
  { w with pods := Function.update w.pods p x }

def record (w : World) (e : Effect) : World := { w with log := w.log ++ [e] }

def answer (w : World) (r : Nat) (a : Answer) : World :=
  { w with answers := w.answers ++ [(r, a)] }

/-- The end of a task: its session is closed and the task is acknowledged. -/
def finish (w : World) (i : Nat) (o : Outcome) : World :=
  { w.set i {} with ended := w.ended ++ [(i, o)] }

/-- The world right after the execute route has committed the new row.  Its request, number 0, has
still to enqueue the task. -/
def initial (inputs : List (String × Json)) : World where
  row := .settled { context := { contextVariables := inputs } }
  requests := Function.update (fun _ => {}) 0 { phase := .enqueue }

end World

/-- A flush writes the changed columns, and is no statement at all when nothing
changed. -/
def flushRow (row : Versioned Writer ExecutionRow) (wr : Writer) (o : Orm) :
    Option (Versioned Writer ExecutionRow) :=
  if o.current = o.loaded then some row else row.update wr o.patch

/-! ## The worker -/

/-- The index `run` starts from and the context it starts with, given the latest
checkpoint. -/
def startIndex : Option CheckpointRow → Nat
  | some checkpoint => checkpoint.stepIndex + 1
  | none => 0

def resumeContext (ctx : ExecutionContext) : Option CheckpointRow → ExecutionContext
  | some checkpoint => { ctx with contextVariables := checkpoint.contextVariables }
  | none => ctx

/-- The step has no tool layer to call. -/
def stepOutputs (stepName : String) : Json :=
  .dict [("simulated", .bool true), ("step", .str stepName)]

namespace Stop

def trigger : Stop → Trigger
  | costExceeded => .costExceeded
  | error _ => .error

/-- The reason the paused event announces. -/
def pauseReason : Stop → String
  | costExceeded => "cost_limit_exceeded"
  | error _ => "error"

/-- The handler's `_update_status` call. -/
def updateStatus (why : Stop) (now : Nat) (o : Orm) : Orm :=
  match why with
  | costExceeded => Workflow.updateStatus .paused now o none (some (some "cost_limit_exceeded"))
  | error message => Workflow.updateStatus .paused now o (some (some message)) none

end Stop

/-- The worker performs its next operation.  `none` is a worker that has no task or
waits for the row lock. -/
def runWorker (cfg : Config) (w : World) (i : Nat) : Option World :=
  let k := w.workers i
  match k.pc with
  | .idle => none
  -- `_run`: the row is read before the lock is taken, and the guard uses that read.
  | .read =>
    let row := w.row.committed
    if Terminal row.status then some (w.set i (k.goto (.close .returned)))
    else some (w.set i { k with execution := .ofRow row, pc := .acquire })
  | .acquire =>
    match w.lock with
    | some _ => some (w.set i (k.goto (.close .returned)))
    | none => some { w.set i (k.goto .setup) with lock := some (.worker i) }
  | .setup =>
    let checkpoint := CheckpointManager.getLatest w.checkpoints
    match (ExecutionFSM.mk k.execution.current.status).transition .submit with
    | .error _ => some (w.set i (k.goto (.release .raised)))
    | .ok fsm =>
      some (w.set i { k with
        ctx := resumeContext k.execution.current.context checkpoint
        costTracker := ⟨cfg.maxPerExecutionUsd, cfg.maxPerDayUsd, 0, 0⟩
        fsm := fsm
        pc := .flushRunning (startIndex checkpoint) })
  | .flushRunning start =>
    let o := updateStatus .running w.clock k.execution
    match flushRow w.row (.worker i) o with
    | none => none
    | some row =>
      some (World.set { w with row := row } i
        { k with execution := o.flushed, pc := .publishStarted start .global })
  | .publishStarted start .global =>
    some ((w.record (.published .global .started)).set i (k.goto (.publishStarted start .sse)))
  | .publishStarted start .sse =>
    some ((w.record (.published .sse .started)).set i (k.goto (.commitRunning start)))
  | .commitRunning start =>
    some (World.set { w with row := w.row.commit (.worker i) } i (k.goto (cfg.next start)))
  -- The step loop: a status set by a request is noticed here and nowhere else.
  | .refresh n =>
    let row := w.row.view (.worker i)
    let k := { k with execution := .ofRow row }
    if row.status = .paused ∨ row.status = .cancelled then
      some (w.set i (k.goto (.release .returned)))
    else
      let step := cfg.stepConfig n
      let pc := if CheckpointManager.shouldCheckpoint step then .writeCheckpoint n else .execute n
      some ((w.record (.stepStarted i n)).set i { k with currentStepName := step.name, pc := pc })
  | .writeCheckpoint n =>
    let checkpoint := CheckpointManager.write (cfg.stepConfig n).name n k.ctx.contextVariables
    some ((w.record (.checkpointWritten i n)).set i
      { k with added := k.added ++ [checkpoint], pc := .commitCheckpoint n })
  | .commitCheckpoint n =>
    some (World.set
      { w with row := w.row.commit (.worker i), checkpoints := w.checkpoints ++ k.added } i
      { k with added := [], pc := .execute n })
  | .execute n =>
    let stepCost := cfg.stepCost n
    match k.costTracker.add stepCost with
    | .error _ => some (w.set i (k.goto (.flushPaused .costExceeded)))
    | .ok costTracker =>
      let ctx := { k.ctx with
        currentStepIndex := n + 1
        totalCostUsd := k.ctx.totalCostUsd + stepCost }
      some (w.set i { k with
        costTracker := costTracker
        ctx := ctx
        execution := k.execution.assign fun row => { row with context := ctx }
        pc := .publishStep n .global })
  | .publishStep n s =>
    let name := (cfg.stepConfig n).name
    let event := .stepCompleted name n (cfg.stepCost n) (stepOutputs name)
    let pc := match s with
      | .global => .publishStep n .sse
      | .sse => .flushStep n
    some ((w.record (.published s event)).set i (k.goto pc))
  | .flushStep n =>
    match flushRow w.row (.worker i) k.execution with
    | none => none
    | some row =>
      some (World.set { w with row := row } i
        { k with execution := k.execution.flushed, pc := cfg.next (n + 1) })
  -- All steps done.
  | .flushCompleted =>
    match k.fsm.transition .allStepsDone with
    | .error _ => some (w.set i (k.goto (.release .raised)))
    | .ok fsm =>
      let o := updateStatus .completed w.clock k.execution
      match flushRow w.row (.worker i) o with
      | none => none
      | some row =>
        some (World.set { w with row := row } i
          { k with fsm := fsm, execution := o.flushed, pc := .publishCompleted .global })
  | .publishCompleted s =>
    let event := .completed .completed k.costTracker.total cfg.steps.length
    let pc := match s with
      | .global => .publishCompleted .sse
      | .sse => .commitCompleted
    some ((w.record (.published s event)).set i (k.goto pc))
  | .commitCompleted =>
    some (World.set
      { w with row := w.row.commit (.worker i), checkpoints := w.checkpoints ++ k.added } i
      { k with added := [], pc := .release .returned })
  -- The two handlers of the step loop.
  | .flushPaused why =>
    match k.fsm.transition why.trigger with
    | .error _ => some (w.set i (k.goto (.release .raised)))
    | .ok fsm =>
      if k.rejects then some (w.set i { k with fsm := fsm, pc := .release .raised })
      else
        let o := why.updateStatus w.clock k.execution
        match flushRow w.row (.worker i) o with
        | none => none
        | some row =>
          some (World.set { w with row := row } i
            { k with fsm := fsm, execution := o.flushed, pc := .publishPaused why .global })
  | .publishPaused why s =>
    let pc := match s with
      | .global => .publishPaused why .sse
      | .sse => .commitPaused
    some ((w.record (.published s (.paused why.pauseReason k.currentStepName))).set i (k.goto pc))
  | .commitPaused =>
    some (World.set
      { w with row := w.row.commit (.worker i), checkpoints := w.checkpoints ++ k.added } i
      { k with added := [], pc := .release .returned })
  -- Leaving the lock, then the session, then the task.
  | .release o =>
    some { w.set i (k.goto (.close o)) with
      lock := if w.lock = some (.worker i) then none else w.lock }
  | .close .returned =>
    some (World.finish
      { w with row := w.row.commit (.worker i), checkpoints := w.checkpoints ++ k.added }
      i .returned)
  | .close .raised =>
    some (World.finish { w with row := w.row.rollback (.worker i) } i .raised)

namespace Pc

/-- Where an ordinary exception raised by the operation takes the worker: the step
loop has handlers, everything around it only the lock and the session to leave. -/
def onFail (message : String) : Pc → Pc
  | .refresh _ | .writeCheckpoint _ | .commitCheckpoint _ | .execute _ | .publishStep _ _
  | .flushStep _ => .flushPaused (.error message)
  | .read | .acquire | .release _ => .close .raised
  | _ => .release .raised

def usesDatabase : Pc → Bool
  | .read | .setup | .flushRunning _ | .commitRunning _ | .refresh _ | .writeCheckpoint _
  | .commitCheckpoint _ | .flushStep _ | .flushCompleted | .commitCompleted | .flushPaused _
  | .commitPaused => true
  | _ => false

end Pc

/-- The worker's next operation raises.  A failed database operation loses the
transaction's work. -/
def failWorker (w : World) (i : Nat) (message : String) : Option World :=
  let k := w.workers i
  match k.pc with
  | .idle => none
  | .close _ => some (World.finish { w with row := w.row.rollback (.worker i) } i .raised)
  | pc =>
    let k := k.goto (pc.onFail message)
    if pc.usesDatabase then
      some (World.set { w with row := w.row.rollback (.worker i) } i
        { k with added := [], rejects := true })
    else some (w.set i k)

/-- The worker process dies: its transaction is rolled back and the unacknowledged
task returns to the queue.  The lock key stays until its TTL has passed. -/
def crashWorker (w : World) (i : Nat) : Option World :=
  if (w.workers i).pc = .idle then none
  else some (World.set
    { w with row := w.row.rollback (.worker i), tasks := w.tasks + 1 } i {})

def takeTask (w : World) (i : Nat) : Option World :=
  if (w.workers i).pc = .idle ∧ 0 < w.tasks then
    some (World.set { w with tasks := w.tasks - 1 } i { pc := .read })
  else none

/-! ## The routes -/

/-- What the three routes differ in. -/
structure Route where
  trigger : Trigger
  assign : ExecutionStatus → ExecutionRow → ExecutionRow
  enqueues : Bool

def pauseExecution : Route where
  trigger := .manualPause
  assign s row := { row with status := s, pauseReason := some "manual_pause" }
  enqueues := false

def resumeExecution : Route where
  trigger := .resume
  assign s row := { row with status := s, pauseReason := none }
  enqueues := true

def cancelExecution : Route where
  trigger := .cancel
  assign s row := { row with status := s }
  enqueues := false

def RequestKind.route : RequestKind → Route
  | .pause => pauseExecution
  | .resume => resumeExecution
  | .cancel => cancelExecution

/-- The SELECT and the FSM check; 409 when the trigger is not valid. -/
def startRequest (w : World) (r : Nat) (kind : RequestKind) : Option World :=
  if (w.requests r).phase = .idle then
    let row := w.row.committed
    match (ExecutionFSM.mk row.status).transition kind.route.trigger with
    | .error e => some (w.answer r (.conflict e.message))
    | .ok fsm => some (w.setRequest r ⟨.flush kind, .ofRow row, fsm⟩)
  else none

/-- The UPDATE by primary key.  It waits for the row lock and does not look at the
status again. -/
def flushRequest (w : World) (r : Nat) : Option World :=
  let q := w.requests r
  match q.phase with
  | .flush kind =>
    let o := q.execution.assign (kind.route.assign q.fsm.status)
    match flushRow w.row (.request r) o with
    | none => none
    | some row => some (World.setRequest { w with row := row } r ⟨.commit kind, o.flushed, q.fsm⟩)
  | _ => none

def commitRequest (w : World) (r : Nat) : Option World :=
  let q := w.requests r
  match q.phase with
  | .commit kind =>
    let w' : World := { w with row := w.row.commit (.request r) }
    if kind.route.enqueues then some (w'.setRequest r { q with phase := .enqueue })
    else some ((w'.setRequest r {}).answer r .ok)
  | _ => none

def enqueueRequest (w : World) (r : Nat) : Option World :=
  if (w.requests r).phase = .enqueue then
    some (World.answer (World.setRequest { w with tasks := w.tasks + 1 } r {}) r .ok)
  else none

/-- The broker refuses the task. -/
def failEnqueue (w : World) (r : Nat) : Option World :=
  if (w.requests r).phase = .enqueue then some ((w.setRequest r {}).answer r .serverError)
  else none

/-- The request ends before its commit: its session rolls back. -/
def abortRequest (w : World) (r : Nat) : Option World :=
  match (w.requests r).phase with
  | .flush _ | .commit _ =>
    some (World.answer (World.setRequest { w with row := w.row.rollback (.request r) } r {}) r
      .serverError)
  | _ => none

/-! ## Recovery -/

/-- The predicate of `get_stale_executions`. -/
def isStale (cfg : Config) (now : Nat) (row : ExecutionRow) : Bool :=
  match row.lastHeartbeat with
  | some beat => row.status = .running ∧ beat + cfg.executionStaleThreshold < now
  | none => false

def scanPod (cfg : Config) (w : World) (p : Nat) : Option World :=
  if w.pods p = .idle then
    some (if isStale cfg w.clock w.row.committed then w.setPod p .stale else w)
  else none

/-- `try_recover`: the lock is held across the enqueue. -/
def runPod (w : World) (p : Nat) : Option World :=
  match w.pods p with
  | .idle => none
  | .stale =>
    match w.lock with
    | some _ => some (w.setPod p .idle)
    | none => some { w.setPod p .enqueue with lock := some (.pod p) }
  | .enqueue => some (World.setPod { w with tasks := w.tasks + 1 } p .release)
  | .release =>
    some { w.setPod p .idle with lock := if w.lock = some (.pod p) then none else w.lock }

def crashPod (w : World) (p : Nat) : Option World :=
  if w.pods p = .idle then none else some (w.setPod p .idle)

/-! ## The lock's TTL -/

namespace Pc

/-- The worker is inside `async with self._lock.acquire(...)`. -/
def inLock : Pc → Bool
  | .idle | .read | .acquire | .close _ => false
  | _ => true

end Pc

/-- A heartbeat that runs keeps the key alive while its holder is inside; the key of a
holder that is gone expires.  The key of a live holder whose heartbeat is starved or has
ended is left to the modules that admit it. -/
def holderInside (w : World) : Holder → Bool
  | .worker i => (w.workers i).pc.inLock
  | .pod p => w.pods p = .enqueue ∨ w.pods p = .release

def expireLock (w : World) : Option World :=
  match w.lock with
  | some h => if holderInside w h then none else some { w with lock := none }
  | none => none

/-! ## Steps -/

inductive Action where
  | take (i : Nat)
  | run (i : Nat)
  | fail (i : Nat) (message : String)
  | crash (i : Nat)
  | request (r : Nat) (kind : RequestKind)
  | flush (r : Nat)
  | commit (r : Nat)
  | enqueue (r : Nat)
  | enqueueFails (r : Nat)
  | abort (r : Nat)
  | scan (p : Nat)
  | pod (p : Nat)
  | podCrash (p : Nat)
  /-- The broker delivers a task again, or a duplicate is enqueued. -/
  | redeliver
  | expire
  | tick
deriving DecidableEq, Repr

def step (cfg : Config) (w : World) : Action → Option World
  | .take i => takeTask w i
  | .run i => runWorker cfg w i
  | .fail i message => failWorker w i message
  | .crash i => crashWorker w i
  | .request r kind => startRequest w r kind
  | .flush r => flushRequest w r
  | .commit r => commitRequest w r
  | .enqueue r => enqueueRequest w r
  | .enqueueFails r => failEnqueue w r
  | .abort r => abortRequest w r
  | .scan p => scanPod cfg w p
  | .pod p => runPod w p
  | .podCrash p => crashPod w p
  | .redeliver => some { w with tasks := w.tasks + 1 }
  | .expire => expireLock w
  | .tick => some { w with clock := w.clock + 1 }

/-! ## A workflow of one step -/

def oneStep : Config where
  definitionSnapshot := some ⟨[⟨{ name := "only" }⟩]⟩
  workflowDefinition := ⟨[]⟩

/-- A delivery to worker 0 and its first `n` operations. -/
def deliver (n : Nat) : List Action := .take 0 :: List.replicate n (.run 0)

end Sutram.Workflow
