/-
The service of one execution inside the service of all.

`of` is the part of the shared state that names one execution: its row, checkpoints,
lock key, tasks, requests and events, the workers that have its task, and what each
recovery pod will still do with it.  An operation of the service that names an
execution does to this part what the one-execution service does, and leaves the parts of
all others alone.
-/
import Sutram.Library.Simulation
import Sutram.Workflow.Engine

namespace Sutram.Workflow

open Sutram.Core Runs

/-! ## The part of an execution -/

section Own

variable {α : Type} {id other : Uuid}

@[simp] theorem own_append (entries more : List (Uuid × α)) :
    own id (entries ++ more) = own id entries ++ own id more := by
  simp [own]

@[simp] theorem own_single (a : α) : own id [(id, a)] = [a] := by simp [own]

theorem own_single_of_ne (h : id ≠ other) (a : α) : own other [(id, a)] = [] := by
  simp [own, h]

@[simp] theorem own_map (as : List α) : own id (as.map fun a => (id, a)) = as := by
  simp [own, List.filter_map, List.map_map, Function.comp_def]

theorem own_map_of_ne (h : id ≠ other) (as : List α) :
    own other (as.map fun a => (id, a)) = [] := by
  simp [own, List.filter_map, Function.comp_def, h]

end Own

theorem lockKey_injective {id other : Uuid} (h : lockKey id = lockKey other) : id = other := by
  have hchars := congrArg String.toList h
  simp only [lockKey, String.toList_append, List.append_assoc] at hchars
  have hlength : id.str.toList.length = other.str.toList.length := by
    rw [Uuid.length_str, Uuid.length_str]
  have hstr := (List.append_inj (List.append_cancel_left hchars) hlength).1
  exact Uuid.str_injective (String.toList_inj.mp hstr)

/-- What a pod has still to do with one execution. -/
def Sweep.of (sweep : Sweep) (id : Uuid) : Pod :=
  if sweep.stale.head? = some id then sweep.stage
  else if id ∈ sweep.stale then .stale
  else .idle

/-- The worker of a process that has a task of the execution, and otherwise an idle one. -/
def workerOf (id : Uuid) : Option Process → Worker
  | some p => if p.executionId = id then p.worker else {}
  | none => {}

namespace Engine

/-- The service as one execution sees it. -/
def of (s : Engine) (id : Uuid) : World where
  row := s.rows id
  checkpoints := own id s.checkpoints
  lock := s.locks (lockKey id)
  tasks := s.tasks.count id.str
  workers i := workerOf id (s.workers i)
  requests := s.requests id
  pods p := (s.pods p).of id
  log := own id s.log
  ended := own id s.ended
  answers := own id s.answers
  clock := s.clock

variable {s s' : Engine} {id other : Uuid} {i p r : Nat}

/-! ## What an operation does to the part it names -/

section Named

@[simp] theorem of_setRow (row : Versioned Writer ExecutionRow) :
    (s.setRow id row).of id = { s.of id with row := row } := by
  simp [of, setRow]

@[simp] theorem of_addCheckpoints (added : List CheckpointRow) :
    (s.addCheckpoints id added).of id =
      { s.of id with checkpoints := (s.of id).checkpoints ++ added } := by
  simp [of, addCheckpoints]

@[simp] theorem of_setLock (holder : Option Holder) :
    (s.setLock id holder).of id = { s.of id with lock := holder } := by
  simp [of, setLock]

@[simp] theorem of_releaseLock (holder : Holder) :
    (s.releaseLock id holder).of id =
      { s.of id with lock := if (s.of id).lock = some holder then none else (s.of id).lock } := by
  rw [releaseLock, of_setLock]
  rfl

@[simp] theorem of_addTask :
    (s.addTask id).of id = { s.of id with tasks := (s.of id).tasks + 1 } := by
  simp [of, addTask]

@[simp] theorem of_record (e : Effect) : (s.record id e).of id = (s.of id).record e := by
  simp [of, record, World.record]

@[simp] theorem of_answer (a : Answer) : (s.answer id r a).of id = (s.of id).answer r a := by
  simp [of, answer, World.answer]

@[simp] theorem of_setRequest (q : Request) :
    (s.setRequest id r q).of id = (s.of id).setRequest r q := by
  simp [of, setRequest, World.setRequest]

theorem workers_update (x : Option Process) :
    (fun j => workerOf id (Function.update s.workers i x j)) =
      Function.update (fun j => workerOf id (s.workers j)) i (workerOf id x) := by
  funext j
  by_cases hj : j = i
  · subst hj
    simp
  · simp [Function.update_of_ne hj]

theorem of_set (x : Option Process) :
    (s.set i x).of id = (s.of id).set i (workerOf id x) := by
  simp only [of, set, World.set, workers_update]

@[simp] theorem of_setWorker (process : Process) (k : Worker) :
    (s.setWorker i process k).of process.executionId =
      (s.of process.executionId).set i k := by
  rw [setWorker, of_set, workerOf, if_pos rfl]

@[simp] theorem of_goto (process : Process) (pc : Pc) :
    (s.goto i process pc).of process.executionId =
      (s.of process.executionId).set i (process.worker.goto pc) :=
  of_setWorker process _

@[simp] theorem of_finish (o : Outcome) : (s.finish i id o).of id = (s.of id).finish i o := by
  have hended : own id (s.ended ++ [(id, i, o)]) = own id s.ended ++ [(i, o)] := by simp
  simp only [of, finish, set, World.finish, World.set, workers_update, hended]
  rfl

end Named

@[simp] theorem of_row : (s.of id).row = s.rows id := rfl

@[simp] theorem of_checkpoints : (s.of id).checkpoints = own id s.checkpoints := rfl

@[simp] theorem of_lock : (s.of id).lock = s.locks (lockKey id) := rfl

@[simp] theorem of_requests : (s.of id).requests = s.requests id := rfl

@[simp] theorem of_pods : (s.of id).pods p = (s.pods p).of id := rfl

@[simp] theorem of_clock : (s.of id).clock = s.clock := rfl

theorem of_workers {process : Process} (h : s.workers i = some process) :
    (s.of process.executionId).workers i = process.worker := by
  simp [of, h, workerOf]

/-! ## The operations of the execution, seen by it -/

/-- After the read, a worker does to its execution what it does in the one-execution
service. -/
theorem runProcess_of (cfg : Settings) {process : Process} (h : s.workers i = some process)
    (hread : process.worker.pc ≠ .read) :
    runWorker (cfg.config process.definition) (s.of process.executionId) i =
      (s.runProcess cfg i process).map fun s' => s'.of process.executionId := by
  simp only [runWorker, of_workers h, runProcess]
  cases hpc : process.worker.pc with
  | idle => rfl
  | read => exact absurd hpc hread
  | acquire =>
    simp only [of_lock]
    cases s.locks (lockKey process.executionId) <;> simp
  | setup =>
    simp only [of_checkpoints]
    cases (ExecutionFSM.mk process.worker.execution.current.status).transition .submit with
    | error e => simp
    | ok fsm =>
      simp only [Option.map_some, of_setWorker]
      rfl
  | flushRunning start =>
    simp only [of_row, of_clock]
    cases flushRow (s.rows process.executionId) (.worker i)
      (updateStatus .running s.clock process.worker.execution) <;> simp
  | publishStarted start stream => cases stream <;> simp
  | commitRunning start => simp
  | refresh n =>
    simp only [of_row]
    by_cases hstop : ((s.rows process.executionId).view (.worker i)).status = .paused ∨
        ((s.rows process.executionId).view (.worker i)).status = .cancelled
    · simp [hstop]
    · simp [hstop]
  | writeCheckpoint n => simp
  | commitCheckpoint n => simp
  | execute n =>
    simp only [Settings.config]
    cases process.worker.costTracker.add (cfg.stepCost n) <;> simp
  | publishStep n stream =>
    cases stream <;> simp only [Option.map_some, of_goto, of_record] <;> rfl
  | flushStep n =>
    simp only [of_row]
    cases flushRow (s.rows process.executionId) (.worker i) process.worker.execution <;> simp
  | flushCompleted =>
    simp only [of_row, of_clock]
    cases process.worker.fsm.transition .allStepsDone with
    | error e => simp
    | ok fsm =>
      simp only
      cases flushRow (s.rows process.executionId) (.worker i)
        (updateStatus .completed s.clock process.worker.execution) <;> simp
  | publishCompleted stream => cases stream <;> simp
  | commitCompleted => simp
  | flushPaused why =>
    simp only [of_row, of_clock]
    cases process.worker.fsm.transition why.trigger with
    | error e => simp
    | ok fsm =>
      by_cases hrejects : process.worker.rejects
      · simp [hrejects]
      · simp only [hrejects, Bool.false_eq_true, if_false]
        cases flushRow (s.rows process.executionId) (.worker i)
          (why.updateStatus s.clock process.worker.execution) <;> simp
  | publishPaused why stream => cases stream <;> simp
  | commitPaused => simp
  | release o =>
    simp only [Option.map_some, of_releaseLock, of_goto]
    rfl
  | close o => cases o <;> simp

theorem failProcess_of {process : Process} (h : s.workers i = some process) (message : String) :
    failWorker (s.of process.executionId) i message =
      (s.failProcess i process message).map fun s' => s'.of process.executionId := by
  simp only [failWorker, of_workers h, failProcess, of_row]
  cases process.worker.pc <;> simp [Pc.onFail, Pc.usesDatabase]

theorem crashProcess_of {process : Process} (h : s.workers i = some process) :
    crashWorker (s.of process.executionId) i =
      (s.crashProcess i process).map fun s' => s'.of process.executionId := by
  simp only [crashWorker, of_workers h, crashProcess, of_row]
  by_cases hidle : process.worker.pc = .idle
  · simp [hidle]
  · simp [hidle, of_set, workerOf, World.set]

theorem takeTask_of (h : s.takeTask i id.str = some s') :
    Workflow.takeTask (s.of id) i = some (s'.of id) := by
  simp only [takeTask, Uuid.parse_str] at h
  split at h
  · rename_i hfree
    cases h
    have hidle : ((s.of id).workers i).pc = .idle := by simp [of, hfree.1, workerOf]
    have hcount : 0 < (s.of id).tasks := List.count_pos_iff.mpr hfree.2
    rw [Workflow.takeTask, if_pos ⟨hidle, hcount⟩, of_set, workerOf, if_pos rfl]
    simp [of, World.set]
  · cases h

/-- A request for an execution that the tenant does not have changes nothing. -/
theorem startRequest_of {tenantId : Uuid} {kind : RequestKind}
    (h : s.startRequest tenantId id r kind = some s') :
    s' = s ∨ Workflow.startRequest (s.of id) r kind = some (s'.of id) := by
  simp only [startRequest] at h
  split at h
  · rename_i hidle
    rw [Workflow.startRequest, if_pos (show ((s.of id).requests r).phase = .idle from hidle)]
    simp only [of_row]
    cases hfind : s.executions.find? fun ex => ex.id = id && ex.tenantId = tenantId with
    | none =>
      rw [hfind] at h
      cases h
      exact .inl rfl
    | some ex =>
      rw [hfind] at h
      refine .inr ?_
      cases htransition : (ExecutionFSM.mk (s.rows id).committed.status).transition
          kind.route.trigger with
      | error e =>
        simp only [htransition] at h
        cases h
        simp
      | ok fsm =>
        simp only [htransition] at h
        cases h
        simp
  · cases h

theorem flushRequest_of :
    Workflow.flushRequest (s.of id) r = (s.flushRequest id r).map fun s' => s'.of id := by
  simp only [Workflow.flushRequest, flushRequest, of_requests, of_row]
  cases (s.requests id r).phase with
  | flush kind =>
    simp only
    cases flushRow (s.rows id) (.request r)
      ((s.requests id r).execution.assign
        (kind.route.assign (s.requests id r).fsm.status)) <;> simp
  | _ => rfl

theorem commitRequest_of :
    Workflow.commitRequest (s.of id) r = (s.commitRequest id r).map fun s' => s'.of id := by
  simp only [Workflow.commitRequest, commitRequest, of_requests, of_row]
  cases (s.requests id r).phase with
  | commit kind => by_cases henqueues : kind.route.enqueues <;> simp [henqueues]
  | _ => rfl

theorem enqueueRequest_of :
    Workflow.enqueueRequest (s.of id) r = (s.enqueueRequest id r).map fun s' => s'.of id := by
  simp only [Workflow.enqueueRequest, enqueueRequest]
  by_cases hphase : (s.requests id r).phase = .enqueue
  · rw [if_pos hphase, if_pos (show ((s.of id).requests r).phase = .enqueue from hphase)]
    simp
  · rw [if_neg hphase, if_neg (show ((s.of id).requests r).phase ≠ .enqueue from hphase)]
    rfl

theorem failEnqueue_of :
    Workflow.failEnqueue (s.of id) r = (s.failEnqueue id r).map fun s' => s'.of id := by
  simp only [Workflow.failEnqueue, failEnqueue]
  by_cases hphase : (s.requests id r).phase = .enqueue
  · rw [if_pos hphase, if_pos (show ((s.of id).requests r).phase = .enqueue from hphase)]
    simp
  · rw [if_neg hphase, if_neg (show ((s.of id).requests r).phase ≠ .enqueue from hphase)]
    rfl

theorem abortRequest_of :
    Workflow.abortRequest (s.of id) r = (s.abortRequest id r).map fun s' => s'.of id := by
  simp only [Workflow.abortRequest, abortRequest, of_requests, of_row]
  cases (s.requests id r).phase <;> simp

theorem holderInside_of (holder : Holder) :
    Workflow.holderInside (s.of id) holder = s.holderInside id holder := by
  cases holder with
  | worker i =>
    cases hworker : s.workers i with
    | none => simp [Workflow.holderInside, holderInside, of, hworker, workerOf, Pc.inLock]
    | some process =>
      by_cases hid : process.executionId = id
      · simp [Workflow.holderInside, holderInside, of, hworker, workerOf, hid]
      · simp [Workflow.holderInside, holderInside, of, hworker, workerOf, hid, Pc.inLock]
  | pod p =>
    simp only [Workflow.holderInside, holderInside, of_pods, Sweep.of]
    by_cases hhead : (s.pods p).stale.head? = some id
    · simp [hhead]
    · by_cases hmem : id ∈ (s.pods p).stale <;> simp [hhead, hmem]

theorem expireLock_of :
    Workflow.expireLock (s.of id) = (s.expireLock id).map fun s' => s'.of id := by
  simp only [Workflow.expireLock, expireLock, of_lock]
  cases s.locks (lockKey id) with
  | none => rfl
  | some holder =>
    simp only [holderInside_of]
    split <;> simp

/-! ## The sweeps -/

theorem setPod_of (sweep : Sweep) :
    (s.setPod p sweep).of id = (s.of id).setPod p (sweep.of id) := by
  have hpods : (fun q => (Function.update s.pods p sweep q).of id) =
      Function.update (fun q => (s.pods q).of id) p (sweep.of id) := by
    funext q
    by_cases hq : q = p
    · subst hq
      simp
    · simp [Function.update_of_ne hq]
  simp only [of, setPod, World.setPod, hpods]

theorem nextSweep_of {rest : List Uuid} (h : id ∉ rest) : (nextSweep rest).of id = .idle := by
  have hhead : rest.head? ≠ some id := fun hhead => h (List.mem_of_head? hhead)
  simp [Sweep.of, nextSweep, hhead, h]

theorem nextSweep_of_ne {rest : List Uuid} {stage : Pod} (h : id ≠ other) :
    (nextSweep rest).of other = (Sweep.mk (id :: rest) stage).of other := by
  simp only [Sweep.of, nextSweep, List.head?_cons, Option.some.injEq, h, if_false, List.mem_cons,
    Ne.symm h, false_or]
  cases rest with
  | nil => simp
  | cons next rest =>
    by_cases hnext : next = other
    · simp [hnext]
    · simp [hnext]

/-- The pod performs its next operation on the first of its ids. -/
theorem runPod_of (hnodup : (s.pods p).stale.Nodup) (h : s.runPod p = some s') :
    ∃ id rest, (s.pods p).stale = id :: rest ∧
      Workflow.runPod (s.of id) p = some (s'.of id) := by
  cases hstale : (s.pods p).stale with
  | nil => simp [runPod, hstale] at h
  | cons id rest =>
    refine ⟨id, rest, rfl, ?_⟩
    have hrest : id ∉ rest := by
      rw [hstale] at hnodup
      exact (List.nodup_cons.mp hnodup).1
    have hpod : (s.of id).pods p = (s.pods p).stage := by simp [Sweep.of, hstale]
    rw [Workflow.runPod, hpod]
    cases hstage : (s.pods p).stage with
    | idle => simp [runPod, hstale, hstage] at h
    | stale =>
      simp only [runPod, hstale, hstage] at h
      simp only [of_lock]
      cases hlock : s.locks (lockKey id) with
      | some holder =>
        rw [hlock] at h
        cases h
        rw [setPod_of, nextSweep_of hrest]
      | none =>
        rw [hlock] at h
        cases h
        rw [of_setLock, setPod_of]
        simp [Sweep.of]
    | enqueue =>
      simp only [runPod, hstale, hstage] at h
      cases h
      rw [setPod_of, of_addTask]
      simp [Sweep.of]
    | release =>
      simp only [runPod, hstale, hstage] at h
      cases h
      rw [of_releaseLock, setPod_of, nextSweep_of hrest]
      rfl

/-- A pod that drops its list stops, in the service of each execution. -/
theorem drop_of (config : Config) (s : Engine) (p : Nat) (id : Uuid) :
    Reaches (Workflow.step config) (s.of id) ((s.setPod p {}).of id) := by
  have hidle : ({} : Sweep).of id = .idle := by simp [Sweep.of]
  rw [setPod_of, hidle]
  by_cases hpod : (s.of id).pods p = .idle
  · have hsame : (s.of id).setPod p .idle = s.of id := by
      rw [World.setPod, ← hpod, Function.update_eq_self]
    rw [hsame]
    exact .refl _
  · refine Reaches.single (a := .podCrash p) ?_
    simp only [Workflow.step, Workflow.crashPod, if_neg hpod]

/-- Its lock, if it still has it, can expire then. -/
theorem releaseDropped_of (config : Config) (s : Engine) (p : Nat) (id : Uuid) :
    Reaches (Workflow.step config) ((s.setPod p {}).of id)
      (((s.setPod p {}).releaseLock id (.pod p)).of id) := by
  have hidle : ((s.setPod p {}).of id).pods p = .idle := by simp [setPod, Sweep.of]
  rw [of_releaseLock]
  by_cases hlock : ((s.setPod p {}).of id).lock = some (.pod p)
  · refine Reaches.single (a := .expire) ?_
    have hinside : Workflow.holderInside ((s.setPod p {}).of id) (.pod p) = false := by
      simp only [Workflow.holderInside, hidle]
      rfl
    simp only [Workflow.step, Workflow.expireLock, hlock, hinside, Bool.false_eq_true, if_false,
      if_true]
  · rw [if_neg hlock]
    exact .refl _

/-- A scan finds the execution or does not, as it is stale or not. -/
theorem scanPod_of {cfg : Settings} {ids : List Uuid} (d : WorkflowDefinition)
    (hknown : id ∈ s.executions.rows.map Execution.id) (h : s.scanPod cfg p ids = some s') :
    Workflow.scanPod (cfg.config d) (s.of id) p = some (s'.of id) := by
  unfold scanPod at h
  split at h
  · rename_i hfree
    cases h
    have hpod : (s.of id).pods p = .idle := by simp [Sweep.of, hfree.1]
    have hmem : id ∈ ids ↔ isStale (cfg.config d) (s.of id).clock (s.of id).row.committed := by
      rw [hfree.2.mem_iff, getStaleExecutions, List.mem_filter, and_iff_right hknown]
      rfl
    rw [Workflow.scanPod, if_pos hpod, setPod_of]
    by_cases hstale : isStale (cfg.config d) (s.of id).clock (s.of id).row.committed
    · have hne : ids ≠ [] := List.ne_nil_of_mem (hmem.mpr hstale)
      rw [if_pos hstale]
      simp [Sweep.of, hne, hmem.mpr hstale]
    · have hnot : id ∉ ids := fun hin => hstale (hmem.mp hin)
      have hhead : ids.head? ≠ some id := fun hhead => hnot (List.mem_of_head? hhead)
      have hidle : (⟨ids, if ids = [] then .idle else .stale⟩ : Sweep).of id = .idle := by
        simp [Sweep.of, hhead, hnot]
      rw [if_neg hstale, hidle, World.setPod, ← hpod, Function.update_eq_self]
  · cases h

end Engine

end Sutram.Workflow
