/-
The routes that enqueue a task, when the broker refuses it.

`execute` and `resume_execution` commit the row and then call `.delay`.  What they have
committed by then is PENDING, which has `submit` as its only transition, and nobody but
a worker with a task submits.
-/
import Sutram.Workflow.Redelivery
import Sutram.Workflow.Routes

namespace Sutram.Workflow

open Sutram.Core Runs

inductive StartRequest where
  | execute (workflowId : Uuid) (inputs : List (String × Json))
  | resume (executionId : Uuid)
deriving DecidableEq

namespace StartRequest

def respond (req : StartRequest) (draws : Draws) (tenantId : Uuid) (db : Database) :
    Database × Response :=
  match req with
  | execute workflowId inputs => Workflow.execute workflowId inputs draws tenantId db
  | resume executionId => controlExecution .resume executionId draws tenantId db

/-- A request that ends in an error because the broker refused its task leaves the
stored state as it found it. -/
def FailsAtomically (req : StartRequest) (draws : Draws) (tenantId : Uuid) (db : Database) :
    Prop :=
  draws.brokerAccepts = false → (req.respond draws tenantId db).2 = .serverError →
    (req.respond draws tenantId db).1 = db

/-- The request passes its checks and its commit. -/
def ReachesEnqueue (req : StartRequest) (draws : Draws) (tenantId : Uuid) (db : Database) :
    Prop :=
  match req with
  | execute workflowId _ => (∃ wf ∈ db.workflows.rows, wf.id = workflowId) ∧
      tenantId ∈ db.tenants ∧ draws.uuid ∉ db.executions.rows.map (·.id)
  | resume executionId => ∃ ex ∈ db.executions.rows,
      ex.id = executionId ∧ ex.tenantId = tenantId ∧ ex.row.status = .paused

end StartRequest

/-! ## The execute route -/

/-- The row a passed `execute` leaves, with its answer. -/
def newExecution (workflow : WorkflowORM) (inputs : List (String × Json)) (draws : Draws)
    (tenantId : Uuid) : WorkflowExecutionORM :=
  ⟨draws.uuid, tenantId, workflow.id, { context := { contextVariables := inputs } },
    some workflow.definition⟩

theorem execute_of_reaches {workflowId : Uuid} {inputs : List (String × Json)} {draws : Draws}
    {tenantId : Uuid} {db : Database}
    (h : (StartRequest.execute workflowId inputs).ReachesEnqueue draws tenantId db) :
    ∃ workflow executions, workflow.id = workflowId ∧
      db.executions.insert (newExecution workflow inputs draws tenantId) = some executions ∧
      execute workflowId inputs draws tenantId db = ({ db with executions },
        if draws.brokerAccepts then
          ⟨202, .execution (.ofORM (newExecution workflow inputs draws tenantId))⟩
        else .serverError) := by
  obtain ⟨⟨wf, hwf, hid⟩, htenant, hfresh⟩ := h
  have hfound : db.workflows.find? (fun w => w.id = workflowId) = some wf := by
    refine Table.find?_eq_some hwf (by simpa using hid) fun s hs => ?_
    rw [hid]
    simpa using hs
  obtain ⟨executions, hinsert⟩ :=
    Table.insert_of_new (T := db.executions) (r := newExecution wf inputs draws tenantId) hfresh
  refine ⟨wf, executions, hid, hinsert, ?_⟩
  rw [newExecution, hid] at hinsert
  simp only [execute, hfound, not_true_eq_false, htenant, if_false, hinsert, newExecution, hid]

theorem execute_of_refused {workflowId : Uuid} {inputs : List (String × Json)} {draws : Draws}
    {tenantId : Uuid} {db : Database}
    (h : ¬ (StartRequest.execute workflowId inputs).ReachesEnqueue draws tenantId db) :
    (execute workflowId inputs draws tenantId db).1 = db := by
  unfold execute
  split
  · rfl
  · rename_i workflow hfound
    dsimp only
    split
    · rfl
    · rename_i htenant
      split
      · rfl
      · rename_i executions hinsert
        refine absurd ⟨⟨workflow, Table.mem_of_find? hfound, ?_⟩, ?_,
          Table.notMem_of_insert hinsert⟩ h
        · simpa using Table.of_find? hfound
        · simpa using htenant

/-! ## The resume route -/

/-- The row a resume writes. -/
def resumed (ex : WorkflowExecutionORM) : WorkflowExecutionORM :=
  { ex with row := { ex.row with status := .pending, pauseReason := none } }

theorem resume_of_reaches {executionId : Uuid} {draws : Draws} {tenantId : Uuid} {db : Database}
    {ex : WorkflowExecutionORM} (hmem : ex ∈ db.executions.rows) (hid : ex.id = executionId)
    (htenant : ex.tenantId = tenantId) (hpaused : ex.row.status = .paused) :
    controlExecution .resume executionId draws tenantId db =
      ({ db with executions := db.executions.modify ex.id resumed fun _ => rfl },
        if draws.brokerAccepts = false then .serverError
        else ⟨200, .execution (.ofORM (resumed ex))⟩) := by
  have hfound : findExecution executionId tenantId db = some ex := by
    refine Table.find?_eq_some hmem (by simp [hid, htenant]) fun s hs => ?_
    have hs' : s.id = executionId ∧ s.tenantId = tenantId := by simpa using hs
    rw [hs'.1, hid]
  have hresume : (ExecutionFSM.mk ex.row.status).transition RequestKind.resume.route.trigger =
      .ok ⟨.pending⟩ := by
    rw [hpaused]
    rfl
  simp only [controlExecution, hfound, hresume]
  cases draws.brokerAccepts <;> rfl

theorem resume_of_refused {executionId : Uuid} {draws : Draws} {tenantId : Uuid} {db : Database}
    (h : ¬ (StartRequest.resume executionId).ReachesEnqueue draws tenantId db) :
    (controlExecution .resume executionId draws tenantId db).1 = db := by
  unfold controlExecution
  split
  · rfl
  · rename_i ex hfound
    split
    · rfl
    · rename_i fsm hfsm
      have hs : ex.id = executionId ∧ ex.tenantId = tenantId := by
        simpa using Table.of_find? hfound
      refine absurd ⟨ex, Table.mem_of_find? hfound, hs.1, hs.2, ?_⟩ h
      cases hstatus : ex.row.status <;> rw [hstatus] at hfsm <;> first | rfl | cases hfsm

/-! ## When the failure is atomic -/

/-- Past the commit the stored state is another one. -/
theorem StartRequest.respond_ne {req : StartRequest} {draws : Draws} {tenantId : Uuid}
    {db : Database} (h : req.ReachesEnqueue draws tenantId db) :
    (req.respond draws tenantId db).1 ≠ db := by
  cases req with
  | execute workflowId inputs =>
    obtain ⟨workflow, executions, -, hinsert, hrespond⟩ := execute_of_reaches h
    intro heq
    have hrows : executions.rows = db.executions.rows := by
      rw [← heq]
      simp [StartRequest.respond, hrespond]
    have hlength := congrArg List.length hrows
    rw [Table.insert_eq_some hinsert, List.length_append, List.length_singleton] at hlength
    omega
  | resume executionId =>
    obtain ⟨ex, hmem, hid, htenant, hpaused⟩ := h
    intro heq
    have hmem' : resumed ex ∈ (db.executions.modify ex.id resumed fun _ => rfl).rows :=
      List.mem_map.mpr ⟨ex, hmem, by simp⟩
    have hstored : resumed ex ∈ db.executions.rows := by
      rw [← heq]
      simpa [StartRequest.respond, resume_of_reaches hmem hid htenant hpaused] using hmem'
    -- One row has the id, and it is paused.
    have hsame : resumed ex = ex := Table.eq_of_key_eq hstored hmem rfl
    rw [← hsame] at hpaused
    cases hpaused

theorem StartRequest.serverError_of_reaches {req : StartRequest} {draws : Draws}
    {tenantId : Uuid} {db : Database} (h : req.ReachesEnqueue draws tenantId db)
    (hbroker : draws.brokerAccepts = false) :
    (req.respond draws tenantId db).2 = .serverError := by
  cases req with
  | execute workflowId inputs =>
    obtain ⟨workflow, executions, -, -, hrespond⟩ := execute_of_reaches h
    simp [StartRequest.respond, hrespond, hbroker]
  | resume executionId =>
    obtain ⟨ex, hmem, hid, htenant, hpaused⟩ := h
    simp [StartRequest.respond, resume_of_reaches hmem hid htenant hpaused, hbroker]

/-- The failure is atomic exactly when the request does not come as far as the broker
that refuses it. -/
theorem fails_atomically_iff (req : StartRequest) (draws : Draws) (tenantId : Uuid)
    (db : Database) : req.FailsAtomically draws tenantId db ↔
      (draws.brokerAccepts = false → ¬ req.ReachesEnqueue draws tenantId db) := by
  constructor
  · intro hatomic hbroker hreaches
    exact StartRequest.respond_ne hreaches
      (hatomic hbroker (StartRequest.serverError_of_reaches hreaches hbroker))
  · intro hrefused hbroker _
    cases req with
    | execute workflowId inputs => exact execute_of_refused (hrefused hbroker)
    | resume executionId => exact resume_of_refused (hrefused hbroker)

/-! ### A broker that is down, and a repetition when it is up -/

def theTenant : Uuid := .repdigit 10

/-- A workflow and a paused execution of it. -/
def pausedDb : Database where
  tenants := [theTenant]
  workflows := ⟨[⟨.repdigit 1, theTenant, "nightly", "", .dict [], 1⟩], by decide⟩
  executions := ⟨[⟨.repdigit 2, theTenant, .repdigit 1,
    { status := .paused, pauseReason := some "manual_pause" }, some (.dict [])⟩], by decide⟩

def drawing (uuid : Uuid) (brokerAccepts : Bool) : Draws := ⟨uuid, "secret", "nonce", brokerAccepts⟩

/-- Both routes answer 500 and leave a PENDING row.  The repeated resume is a conflict,
and the repeated execute leaves two executions for one request. -/
theorem broker_failure_keeps_row :
    ¬ (StartRequest.resume (.repdigit 2)).FailsAtomically (drawing .nil false) theTenant pausedDb ∧
      ¬ (StartRequest.execute (.repdigit 1) []).FailsAtomically (drawing (.repdigit 3) false)
        theTenant pausedDb ∧
      ((StartRequest.resume (.repdigit 2)).respond (drawing .nil true) theTenant
        ((StartRequest.resume (.repdigit 2)).respond (drawing .nil false) theTenant
          pausedDb).1).2.statusCode = 409 ∧
      (((StartRequest.execute (.repdigit 1) []).respond (drawing (.repdigit 4) true) theTenant
        ((StartRequest.execute (.repdigit 1) []).respond (drawing (.repdigit 3) false) theTenant
          pausedDb).1).1.executions.rows.map fun ex => (ex.id, ex.row.status)) =
        [(.repdigit 2, .paused), (.repdigit 3, .pending), (.repdigit 4, .pending)] := by
  refine ⟨?_, ?_, by decide +kernel, by decide +kernel⟩
  · intro hatomic
    have hrows := congrArg (fun db : Database => db.executions.rows.map fun ex => ex.row.status)
      (hatomic rfl (by decide +kernel))
    revert hrows
    decide +kernel
  · intro hatomic
    have hrows := congrArg (fun db : Database => db.executions.rows.length)
      (hatomic rfl (by decide +kernel))
    revert hrows
    decide +kernel

/-! ## Repeating the request -/

/-- The resumed execution stands in PENDING: another resume is a conflict. -/
theorem resume_again_conflicts {executionId : Uuid} {draws draws' : Draws} {tenantId : Uuid}
    {db : Database} (h : (StartRequest.resume executionId).ReachesEnqueue draws tenantId db) :
    (controlExecution .resume executionId draws' tenantId
      (controlExecution .resume executionId draws tenantId db).1).2 =
        ⟨409, .detail (ExecutionFSM.invalid .pending .resume).message⟩ := by
  obtain ⟨ex, hmem, hid, htenant, hpaused⟩ := h
  rw [resume_of_reaches hmem hid htenant hpaused]
  have hmem' : resumed ex ∈ (db.executions.modify ex.id resumed fun _ => rfl).rows :=
    List.mem_map.mpr ⟨ex, hmem, by simp⟩
  have hfound : findExecution executionId tenantId
      { db with executions := db.executions.modify ex.id resumed fun _ => rfl } =
        some (resumed ex) := by
    refine Table.find?_eq_some hmem' (by simp [resumed, hid, htenant]) fun s hs => ?_
    have hs' : s.id = executionId ∧ s.tenantId = tenantId := by simpa using hs
    rw [hs'.1, ← hid]
    rfl
  simp only [controlExecution, hfound]
  rfl

/-- A repeated execute starts a second execution beside the first. -/
theorem execute_again_inserts {workflowId : Uuid} {inputs : List (String × Json)}
    {draws draws' : Draws} {tenantId : Uuid} {db : Database}
    (h : (StartRequest.execute workflowId inputs).ReachesEnqueue draws tenantId db)
    (hfresh : draws'.uuid ∉ db.executions.rows.map (·.id)) (hne : draws'.uuid ≠ draws.uuid) :
    (execute workflowId inputs draws' tenantId
      (execute workflowId inputs draws tenantId db).1).1.executions.rows.length =
        db.executions.rows.length + 2 := by
  obtain ⟨workflow, executions, -, hinsert, hrespond⟩ := execute_of_reaches h
  have hrows := Table.insert_eq_some hinsert
  have hreaches : (StartRequest.execute workflowId inputs).ReachesEnqueue draws' tenantId
      { db with executions } := by
    refine ⟨h.1, h.2.1, ?_⟩
    rw [hrows, List.map_append, List.mem_append]
    rintro (hold | hnew)
    · exact hfresh hold
    · exact hne (by simpa [newExecution] using hnew)
  obtain ⟨workflow', executions', -, hinsert', hrespond'⟩ := execute_of_reaches hreaches
  rw [hrespond, hrespond']
  simp [Table.insert_eq_some hinsert', hrows]

/-! ## A row without a task -/

/-- PENDING is committed, nothing is in the queue and nobody is at work. -/
structure Orphaned (w : World) : Prop where
  pending : w.row.committed.status = .pending
  settled : w.row.uncommitted = none
  tasks : w.tasks = 0
  lock : w.lock = none
  workers : ∀ i, (w.workers i).pc = .idle
  requests : ∀ r, (w.requests r).phase = .idle
  pods : ∀ p, w.pods p = .idle

/-- No request, no worker and no recovery pod gets hold of such a row. -/
theorem orphaned_step {cfg : Config} {w w' : World} {a : Action} (hI : Orphaned w)
    (ha : a ≠ .redeliver) (h : step cfg w a = some w') :
    Orphaned w' ∧ w'.log = w.log := by
  obtain ⟨hpending, hsettled, htasks, hlock, hworkers, hrequests, hpods⟩ := hI
  cases a <;> simp only [step] at h
  case take i => simp [takeTask, htasks] at h
  case run i => simp [runWorker, hworkers i] at h
  case fail i message => simp [failWorker, hworkers i] at h
  case crash i => simp [crashWorker, hworkers i] at h
  case request r kind =>
    have hrefused : ∃ e, (ExecutionFSM.mk .pending).transition kind.route.trigger = .error e := by
      cases kind <;> exact ⟨_, rfl⟩
    obtain ⟨e, he⟩ := hrefused
    simp only [startRequest, hrequests r, if_true, hpending, he] at h
    cases h
    exact ⟨⟨hpending, hsettled, htasks, hlock, hworkers, hrequests, hpods⟩, rfl⟩
  case flush r => simp [flushRequest, hrequests r] at h
  case commit r => simp [commitRequest, hrequests r] at h
  case enqueue r => simp [enqueueRequest, hrequests r] at h
  case enqueueFails r => simp [failEnqueue, hrequests r] at h
  case abort r => simp [abortRequest, hrequests r] at h
  case scan p =>
    have hfresh : isStale cfg w.clock w.row.committed = false := by
      unfold isStale
      split <;> simp [hpending]
    simp only [scanPod, hpods p, if_true, hfresh, Bool.false_eq_true, if_false] at h
    cases h
    exact ⟨⟨hpending, hsettled, htasks, hlock, hworkers, hrequests, hpods⟩, rfl⟩
  case pod p => simp [runPod, hpods p] at h
  case podCrash p => simp [crashPod, hpods p] at h
  case redeliver => exact absurd rfl ha
  case expire => simp [expireLock, hlock] at h
  case tick =>
    cases h
    exact ⟨⟨hpending, hsettled, htasks, hlock, hworkers, hrequests, hpods⟩, rfl⟩

/-- Once the broker has refused the task of a new execution, the execution never runs:
no request resumes or cancels it and recovery does not see it. -/
theorem orphaned_run {cfg : Config} {inputs : List (String × Json)} {as : List Action}
    {w : World} (has : ∀ a ∈ as, a ≠ .redeliver)
    (hrun : run (step cfg) (World.initial inputs) (.enqueueFails 0 :: as) = some w) :
    Orphaned w ∧ w.log = [] := by
  obtain ⟨u, hu, hrest⟩ := run_cons_eq_some hrun
  have hstart : Orphaned u ∧ u.log = [] := by
    cases hu
    refine ⟨⟨rfl, rfl, rfl, rfl, fun _ => rfl, fun r => ?_, fun _ => rfl⟩, rfl⟩
    simp [World.initial]
  refine invariant_run (I := fun u => Orphaned u ∧ u.log = []) (G := fun _ a => a ≠ .redeliver)
    ?_ hstart (along_of_mem has u) hrest
  intro u a u' hI ha h
  obtain ⟨hI', hlog⟩ := orphaned_step hI.1 ha h
  exact ⟨hI', by rw [hlog, hI.2]⟩

end Sutram.Workflow
