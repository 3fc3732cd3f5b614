/-
The gauge of running executions.

The workflow service announces a start, a completion and the pause of a handler; the
observability service counts a start up and a completion down.  The gauge is compared with
the number of RUNNING executions over the whole life of any number of them.
-/
import Sutram.Observability.Handler
import Sutram.Workflow.System

namespace Sutram.Observability.ActiveExecutions

open Sutram.Core Sutram.Workflow Runs

variable {F D : Type}

/-! ## The gauge -/

/-- `ACTIVE_EXECUTIONS`, by its label. -/
abbrev Gauge := Uuid → Int

def recordExecutionStarted (tenantId : Uuid) (g : Gauge) : Gauge :=
  Function.update g tenantId (g tenantId + 1)

def recordExecutionCompleted (tenantId : Uuid) (status : ExecutionStatus) (g : Gauge) : Gauge :=
  if status = .completed ∨ status = .failed ∨ status = .cancelled then
    Function.update g tenantId (g tenantId - 1)
  else g

def observe (g : Gauge) : Metric F → Gauge
  | .executionStarted tenantId => recordExecutionStarted tenantId g
  | .executionCompleted tenantId status _ _ => recordExecutionCompleted tenantId status g
  | .stepCompleted _ _ _ | .memorySearched _ => g

def gauge (recorded : List (Metric F)) : Gauge := recorded.foldl observe fun _ => 0

/-- What the handler of an event records. -/
def metrics : Event F D → List (Metric F)
  | .executionStarted e => [.executionStarted e.tenantId]
  | .stepCompleted e => [.stepCompleted e.workflowId e.stepName e.durationMs]
  | .executionCompleted e => [completedMetric e]
  | .memorySearched e => [.memorySearched e.latencyMs]
  | .stepFailed _ | .executionPaused _ | .memoryWritten _ => []

/-! ### The samples of one message -/

section Records

variable {n : Nat} {cfg : Config F D} {w w' : World F D n} {r : Fin n} {env : Env}

/-- A replica that nobody disturbs comes to acknowledge message `i`, and has recorded these
samples by then. -/
def Records (cfg : Config F D) (env : Env) (r : Fin n) (i : Nat) (w : World F D n)
    (samples : List (Metric F)) : Prop :=
  ∃ k w', run (Observability.step cfg) w (List.replicate k (.advance r env)) = some w' ∧
    (w'.replicas r).recorded = (w.replicas r).recorded ++ samples ∧ i ∈ w'.acked

/-- One stage, and then the others. -/
theorem Records.stage {i : Nat} {data : Data} {event : Event F D} {stage : Stage F}
    (first rest : List (Metric F))
    (hstage : advanceHandler cfg (w.setWork r (some (.handle i data event stage))) r env i data
      event stage = some w')
    (hrecorded : (w'.replicas r).recorded = (w.replicas r).recorded ++ first)
    (h : Records cfg env r i w' rest) :
    Records cfg env r i (w.setWork r (some (.handle i data event stage))) (first ++ rest) := by
  obtain ⟨k, w'', hrun, hrest, hacked⟩ := h
  refine ⟨k + 1, w'', ?_, ?_, hacked⟩
  · rw [List.replicate_succ, run_cons_some (t := w')]
    · exact hrun
    · simp only [Observability.step, World.setWork_work_self]
      exact hstage
  · rw [hrest, hrecorded]
    simp [World.setWork]

theorem Records.silent {i : Nat} {data : Data} {event : Event F D} {stage : Stage F}
    {rest : List (Metric F)}
    (hstage : advanceHandler cfg (w.setWork r (some (.handle i data event stage))) r env i data
      event stage = some w')
    (hrecorded : (w'.replicas r).recorded = (w.replicas r).recorded)
    (h : Records cfg env r i w' rest) :
    Records cfg env r i (w.setWork r (some (.handle i data event stage))) rest :=
  .stage [] rest hstage (by rw [hrecorded, List.append_nil]) h

theorem records_commit {i : Nat} {data : Data} {event : Event F D}
    {traces : List (ExecutionTraceORM F)} {audit : List AuditLogORM} :
    Records cfg env r i (w.setWork r (some (.handle i data event (.commit traces audit)))) [] := by
  refine .silent rfl (by simp [World.setWork, World.commit]) ?_
  exact ⟨1, _, by simp [run, Observability.step]; rfl, by simp [World.setWork, World.ack],
    by simp [World.setWork, World.ack]⟩

theorem records_sample {i : Nat} {data : Data} {event : Event F D} {stage : Stage F}
    {m : Metric F} {traces : List (ExecutionTraceORM F)} {audit : List AuditLogORM}
    (hstage : advanceHandler cfg (w.setWork r (some (.handle i data event stage))) r env i data
      event stage = some ((w'.record r m).setWork r
        (some (.handle i data event (.commit traces audit)))))
    (hrecorded : (w'.replicas r).recorded = (w.replicas r).recorded) :
    Records cfg env r i (w.setWork r (some (.handle i data event stage))) [m] :=
  .stage [m] [] hstage (by simp [World.setWork, World.record, hrecorded]) records_commit

/-- A kept execution has only spans that convert. -/
def Converts (cfg : Config F D) (w : World F D n) (env : Env) (e : ExecutionCompletedEvent F D) :
    Prop :=
  shouldKeep cfg w e env.draw →
    writeSpans cfg.builtins env.ids e.tenantId e.workflowId (w.buffer.values e.executionId) ≠ none

theorem records_clear {i : Nat} {data : Data} {e : ExecutionCompletedEvent F D} {keep : Bool}
    {spans : List Data} (hconverts : keep → writeSpans cfg.builtins env.ids e.tenantId e.workflowId
      spans ≠ none) :
    Records cfg env r i
      (w.setWork r (some (.handle i data (.executionCompleted e) (.clear keep spans))))
      [completedMetric e] := by
  cases keep with
  | false => exact records_sample rfl (by simp [World.setWork, World.onBuffer])
  | true =>
    refine .silent rfl (by simp [World.setWork, World.onBuffer]) ?_
    cases hrows : writeSpans cfg.builtins env.ids e.tenantId e.workflowId spans with
    | none => exact absurd hrows (hconverts rfl)
    | some rows =>
      exact records_sample (by simp only [advanceHandler, hrows]; rfl) (by simp [World.setWork])

/-- The samples a replica records for a message that it handles to the end. -/
theorem exists_run_metrics {i : Nat} {fresh : Fresh D} {data : Data} {event : Event F D}
    (hmessage : cfg.stream[i]? = some data)
    (hparse : parseEvent cfg.scalars fresh data = .ok event)
    (hidle : (w.replicas r).work = none) (hacked : i ∉ w.acked)
    (hconverts : ∀ e, event = .executionCompleted e → Converts cfg w env e) :
    ∃ k w', run (Observability.step cfg) w
        (.deliver r i fresh :: List.replicate k (.advance r env)) = some w' ∧
      (w'.replicas r).recorded = (w.replicas r).recorded ++ metrics event ∧ i ∈ w'.acked := by
  have hdeliver : Observability.step cfg w (.deliver r i fresh) =
      some (begin cfg w r i data fresh) := by
    simp [Observability.step, hmessage, hidle, hacked]
  simp only [run_cons_some hdeliver]
  suffices h : ∃ first rest, metrics event = first ++ rest ∧
      ((begin cfg w r i data fresh).replicas r).recorded = (w.replicas r).recorded ++ first ∧
      Records cfg env r i (begin cfg w r i data fresh) rest by
    obtain ⟨first, rest, hmetrics, hfirst, k, w', hrun, hrest, hdone⟩ := h
    exact ⟨k, w', hrun, by rw [hrest, hfirst, hmetrics, List.append_assoc], hdone⟩
  simp only [begin, hparse]
  cases event with
  | executionStarted e | stepCompleted e =>
    refine ⟨[], _, rfl, by simp [World.setWork], ?_⟩
    exact .silent rfl (by simp [World.setWork, World.onBuffer, noteBuffered, World.markBuffered])
      (records_sample rfl (by simp [World.setWork]))
  | stepFailed e =>
    refine ⟨[], _, rfl, by simp [World.setWork], ?_⟩
    refine .silent rfl (by simp [World.setWork, World.onBuffer, noteBuffered]) ?_
    refine .silent rfl (by simp [World.setWork]) ?_
    exact .silent rfl (by simp [World.setWork, World.onBuffer, World.markBuffered]) records_commit
  | executionCompleted e =>
    refine ⟨[], _, rfl, by simp [World.setWork], ?_⟩
    refine .silent rfl (by simp [World.setWork]) ?_
    exact .silent rfl (by simp [World.setWork]) (records_clear (hconverts e rfl))
  | executionPaused e | memoryWritten e =>
    exact ⟨[], _, rfl, by simp [World.setWork], records_commit⟩
  | memorySearched e =>
    exact ⟨[_], [], rfl, by simp [World.setWork, World.record], records_commit⟩

end Records

/-! ## The executions -/

structure Execution where
  tenantId : Uuid
  executionId : Uuid
  workflowId : Uuid
  status : ExecutionStatus := .pending
deriving DecidableEq

/-- The executions of all tenants, and the events announced so far. -/
structure Fleet (F D : Type) where
  executions : List Execution := []
  events : List (Event F D) := []

/-- What is fresh in every event. -/
structure Stamp (D : Type) where
  traceId : Uuid
  timestamp : D

/-- What the executor and the routes do to the status of an execution. -/
inductive Change (F : Type) where
  | start
  | finish (totalDurationMs : Int) (totalCostUsd : F) (totalSteps : Int)
  | stop (why : Stop) (pausedAtStep : String)
  | request (kind : RequestKind)

namespace Change

def trigger : Change F → Trigger
  | start => .submit
  | finish _ _ _ => .allStepsDone
  | stop why _ => why.trigger
  | request kind => kind.route.trigger

/-- The event that goes with it.  The routes announce nothing. -/
def event (x : Execution) (stamp : Stamp D) : Change F → Option (Event F D)
  | start =>
    some (.executionStarted
      { traceId := stamp.traceId, tenantId := x.tenantId, timestamp := stamp.timestamp
        executionId := x.executionId, workflowId := x.workflowId })
  | finish totalDurationMs totalCostUsd totalSteps =>
    some (.executionCompleted
      { traceId := stamp.traceId, tenantId := x.tenantId, timestamp := stamp.timestamp
        executionId := x.executionId, workflowId := x.workflowId, status := .completed
        totalDurationMs, totalCostUsd, totalSteps })
  | stop why pausedAtStep =>
    some (.executionPaused
      { traceId := stamp.traceId, tenantId := x.tenantId, timestamp := stamp.timestamp
        executionId := x.executionId, workflowId := x.workflowId
        pauseReason := why.pauseReason, pausedAtStep })
  | request _ => none

def isFinish : Change F → Bool
  | finish _ _ _ => true
  | _ => false

end Change

inductive Action (F D : Type) where
  | create (tenantId executionId workflowId : Uuid)
  | change (i : Nat) (c : Change F) (stamp : Stamp D)
  /-- a step of a running execution is announced -/
  | completeStep (i : Nat) (stepName : String) (stepIndex durationMs : Int) (costUsd : F)
      (outputs : List (String × Json)) (stamp : Stamp D)

def step (s : Fleet F D) : Action F D → Option (Fleet F D)
  | .create tenantId executionId workflowId =>
    some { s with executions := s.executions ++ [{ tenantId, executionId, workflowId }] }
  | .change i c stamp =>
    match s.executions[i]? with
    | none => none
    | some x =>
      match (ExecutionFSM.mk x.status).transition c.trigger with
      | .error _ => none
      | .ok fsm =>
        some
          { executions := s.executions.set i { x with status := fsm.status }
            events := s.events ++ (c.event x stamp).toList }
  | .completeStep i stepName stepIndex durationMs costUsd outputs stamp =>
    match s.executions[i]? with
    | none => none
    | some x =>
      if x.status = .running then
        some { s with events := s.events ++ [.stepCompleted
          { traceId := stamp.traceId, tenantId := x.tenantId, timestamp := stamp.timestamp
            executionId := x.executionId, workflowId := x.workflowId
            stepName, stepIndex, durationMs, costUsd, outputs }] }
      else none

def isRunning (tenantId : Uuid) (x : Execution) : Bool :=
  x.tenantId = tenantId ∧ x.status = .running

namespace Fleet

def running (s : Fleet F D) (tenantId : Uuid) : Nat := s.executions.countP (isRunning tenantId)

/-- The gauge once every event has been handled, in order and once. -/
def active (s : Fleet F D) : Gauge := gauge (s.events.flatMap metrics)

/-- What the gauge shows too much. -/
def drift (s : Fleet F D) (tenantId : Uuid) : Int := s.active tenantId - s.running tenantId

end Fleet

/-- An execution that leaves RUNNING does so by completing. -/
def StopsByCompleting (s : Fleet F D) : Action F D → Prop
  | .change i c _ => ∀ x ∈ s.executions[i]?, x.status = .running → c.isFinish
  | .create _ _ _ | .completeStep _ _ _ _ _ _ _ => True

instance (s : Fleet F D) : ∀ a, Decidable (StopsByCompleting s a)
  | .change _ _ _ => inferInstanceAs (Decidable (∀ x ∈ _, _))
  | .create _ _ _ | .completeStep _ _ _ _ _ _ _ => isTrue trivial

/-! ## What one step does -/

section Step

variable {s t : Fleet F D} {i : Nat} {x y : Execution} {tenantId : Uuid}

theorem active_append {events : List (Event F D)} (h : t.events = s.events ++ events) :
    t.active = (events.flatMap metrics).foldl observe s.active := by
  rw [Fleet.active, h, List.flatMap_append, gauge, List.foldl_append]
  rfl

theorem countP_set (p : Execution → Bool) {l : List Execution} (h : l[i]? = some x) :
    (l.set i y).countP p + (if p x then 1 else 0) = l.countP p + if p y then 1 else 0 := by
  obtain ⟨hi, hx⟩ := List.getElem?_eq_some_iff.mp h
  have hpos : p x → 0 < l.countP p := fun hp =>
    List.countP_pos_iff.mpr ⟨x, hx ▸ List.getElem_mem hi, hp⟩
  rw [List.countP_set hi, hx]
  split
  · rename_i hp
    have := hpos hp
    omega
  · omega

/-- A start makes an execution RUNNING, and nothing else does; only a RUNNING one finishes. -/
theorem change_status {c : Change F} {status : ExecutionStatus} {fsm : ExecutionFSM}
    (h : (ExecutionFSM.mk status).transition c.trigger = .ok fsm) :
    (fsm.status = .running ↔ c = .start) ∧ (c = .start → status = .pending) ∧
      (c.isFinish → status = .running) := by
  cases c with
  | start | finish =>
    cases status <;> cases h
    simp [Change.isFinish]
  | stop why =>
    cases why <;> cases status <;> cases h <;> simp [Change.isFinish]
  | request kind =>
    cases kind <;> cases status <;> cases h <;> simp [Change.isFinish]

/-- What a change announces moves the gauge of the execution's tenant by this much. -/
def moved : Change F → Int
  | .start => 1
  | .finish _ _ _ => -1
  | .stop _ _ | .request _ => 0

theorem active_change {c : Change F} {stamp : Stamp D}
    (h : t.events = s.events ++ (c.event x stamp).toList) :
    t.active tenantId = s.active tenantId + if x.tenantId = tenantId then moved c else 0 := by
  rw [active_append h]
  cases c with
  | start =>
    by_cases hx : x.tenantId = tenantId
    · subst hx
      simp [Change.event, metrics, observe, recordExecutionStarted, moved]
    · simp [Change.event, metrics, observe, recordExecutionStarted, hx, Ne.symm hx]
  | finish =>
    by_cases hx : x.tenantId = tenantId
    · subst hx
      simp [Change.event, metrics, observe, completedMetric, recordExecutionCompleted, moved,
        Int.sub_eq_add_neg]
    · simp [Change.event, metrics, observe, completedMetric, recordExecutionCompleted, hx,
        Ne.symm hx]
  | stop => simp [Change.event, metrics, moved]
  | request => simp [Change.event, moved]

/-- An execution of the tenant leaves RUNNING and does not complete. -/
def exits (s : Fleet F D) (tenantId : Uuid) : Action F D → Bool
  | .change i c _ => s.executions[i]?.any fun x => isRunning tenantId x ∧ ¬ c.isFinish
  | .create _ _ _ | .completeStep _ _ _ _ _ _ _ => false

/-- The count, the announcement and the exit of one change are in balance. -/
theorem drift_change {c : Change F} {fsm : ExecutionFSM} {active : Int} {running running' : Nat}
    (hstatus : (fsm.status = .running ↔ c = .start) ∧ (c = .start → x.status = .pending) ∧
      (c.isFinish → x.status = .running))
    (hset : running' + (if isRunning tenantId x then 1 else 0) =
      running + if isRunning tenantId { x with status := fsm.status } then 1 else 0) :
    (active + if x.tenantId = tenantId then moved c else 0) - running' =
      active - running + if isRunning tenantId x && !c.isFinish then 1 else 0 := by
  obtain ⟨hstart, hpending, hfinish⟩ := hstatus
  by_cases hx : x.tenantId = tenantId
  · cases c with
    | start =>
      have hs := hpending rfl
      have hs' := hstart.mpr rfl
      simp [isRunning, hx, hs, hs', moved, Change.isFinish] at hset ⊢
      omega
    | finish =>
      have hs := hfinish rfl
      have hs' : fsm.status ≠ .running := fun h => by cases hstart.mp h
      simp [isRunning, hx, hs, hs', moved, Change.isFinish] at hset ⊢
      omega
    | stop why | request kind =>
      have hs' : fsm.status ≠ .running := fun h => by cases hstart.mp h
      by_cases hs : x.status = .running <;>
        simp [isRunning, hx, hs, hs', moved, Change.isFinish] at hset ⊢ <;> omega
  · simp [isRunning, hx] at hset ⊢
    omega

theorem drift_step {a : Action F D} (h : step s a = some t) (tenantId : Uuid) :
    t.drift tenantId = s.drift tenantId + if exits s tenantId a then 1 else 0 := by
  cases a with
  | create =>
    cases h
    simp [Fleet.drift, Fleet.running, Fleet.active, isRunning, exits]
  | completeStep =>
    simp only [step] at h
    split at h
    · cases h
    · split at h <;> cases h
      rw [Fleet.drift, active_append (s := s) rfl]
      simp [Fleet.drift, Fleet.running, exits, metrics, observe]
  | change i c stamp =>
    simp only [step] at h
    split at h
    · cases h
    · rename_i x hx
      split at h
      · cases h
      · rename_i fsm hfsm
        cases h
        rw [Fleet.drift, active_change (s := s) rfl]
        have hset := countP_set (isRunning tenantId) (y := { x with status := fsm.status }) hx
        have hexits : exits s tenantId (.change i c stamp) =
            (isRunning tenantId x && !c.isFinish) := by
          simp [exits, hx]
        rw [hexits]
        exact drift_change (change_status hfsm) hset

theorem stopsByCompleting_iff {a : Action F D} :
    StopsByCompleting s a ↔ ∀ tenantId, exits s tenantId a = false := by
  cases a with
  | change i c stamp =>
    cases hx : s.executions[i]? with
    | none => simp [StopsByCompleting, exits, hx]
    | some x =>
      simp only [StopsByCompleting, exits, hx, Option.mem_def, Option.some.injEq, Option.any_some]
      constructor
      · intro h tenantId
        by_cases hrunning : x.status = .running
        · simp [h x rfl hrunning]
        · simp [isRunning, hrunning]
      · rintro h _ rfl hrunning
        simpa [isRunning, hrunning] using h x.tenantId
  | _ => simp [StopsByCompleting, exits]

end Step

/-! ## Runs -/

/-- The gauge never loses what it shows too much, and stays where every exit is a
completion. -/
theorem drift_run {s t : Fleet F D} {as : List (Action F D)} (hrun : run step s as = some t) :
    (∀ tenantId, s.drift tenantId ≤ t.drift tenantId) ∧
      ((∀ tenantId, t.drift tenantId = s.drift tenantId) ↔
        Along step (fun s a _ => StopsByCompleting s a) s as) := by
  induction as generalizing s with
  | nil =>
    obtain rfl : s = t := by simpa using hrun
    simp
  | cons a as ih =>
    obtain ⟨u, hu, hrest⟩ := run_cons_eq_some hrun
    obtain ⟨hle, hiff⟩ := ih hrest
    have hstep := drift_step hu
    rw [along_cons_some hu, ← hiff, stopsByCompleting_iff]
    refine ⟨fun tenantId => ?_, fun h => ⟨fun tenantId => ?_, fun tenantId => ?_⟩, ?_⟩
    · have hone := hstep tenantId
      have hmore := hle tenantId
      split at hone <;> omega
    · have hone := hstep tenantId
      have hmore := hle tenantId
      have hsame := h tenantId
      cases hexits : exits s tenantId a with
      | false => rfl
      | true =>
        rw [hexits, if_pos rfl] at hone
        omega
    · have hone := hstep tenantId
      have hmore := hle tenantId
      have hsame := h tenantId
      split at hone <;> omega
    · rintro ⟨hexits, hsame⟩ tenantId
      rw [hsame tenantId, hstep tenantId, hexits tenantId]
      simp

/-- The gauge of every tenant is the number of its RUNNING executions exactly when no
execution has left RUNNING other than by completing. -/
theorem gauge_eq_running_iff {as : List (Action F D)} {t : Fleet F D}
    (hrun : run step {} as = some t) :
    (∀ tenantId, t.active tenantId = t.running tenantId) ↔
      Along step (fun s a _ => StopsByCompleting s a) {} as := by
  rw [← (drift_run hrun).2]
  have hzero : ∀ tenantId, ({} : Fleet F D).drift tenantId = 0 := fun _ => rfl
  refine forall_congr' fun tenantId => ?_
  rw [hzero tenantId, Fleet.drift, Int.sub_eq_zero]

section Example

/-- An execution of tenant `d`. -/
def submitted (d : Fin 16) : Action Unit Unit :=
  .create (Uuid.repdigit d) (Uuid.repdigit 3) (Uuid.repdigit 4)

def change (i : Nat) (c : Change Unit) : Action Unit Unit :=
  .change i c ⟨Uuid.repdigit 1, ()⟩

/-- Two executions run to their ends. -/
def bothFinish : List (Action Unit Unit) :=
  [submitted 1, submitted 2, change 0 .start, change 1 .start, change 1 (.finish 10 () 0),
    change 0 (.finish 10 () 0)]

theorem gauge_eq_running_of_completed :
    ∃ t, run step {} bothFinish = some t ∧ ∀ tenantId, t.active tenantId = t.running tenantId := by
  refine ⟨_, rfl, ?_⟩
  exact (gauge_eq_running_iff (rfl : run step {} bothFinish = some _)).mpr (by decide)

/-- An error pauses the only execution: none is running, and the gauge stays at one. -/
theorem gauge_after_error :
    ∃ t, run step {} [submitted 1, change 0 .start, change 0 (.stop (.error "refused") "fetch")] =
        some t ∧ t.running (Uuid.repdigit 1) = 0 ∧ t.active (Uuid.repdigit 1) = 1 :=
  ⟨_, rfl, by decide, by decide⟩

end Example

end Sutram.Observability.ActiveExecutions
