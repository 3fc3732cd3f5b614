/-
What each step can do.

`Ran` lists the moves of a worker, one constructor for each branch of
`runWorker`, and the lemmas after it invert the remaining operations.  Every
invariant of the service is proved from these and does not unfold the step
function again.
-/
import Sutram.Workflow.System

namespace Sutram.Workflow

open Sutram.Core

attribute [simp] World.set World.setRequest World.setPod World.record World.answer World.finish
  Worker.goto

/-! ## Flushes -/

theorem flushRow_eq_some {row row' : Versioned Writer ExecutionRow} {wr : Writer} {o : Orm}
    (h : flushRow row wr o = some row') :
    row'.committed = row.committed ∧
      (row' = row ∨ row'.uncommitted = some (wr, o.patch (row.view wr)) ∧
        ∀ wr' r, row.uncommitted = some (wr', r) → wr' = wr) := by
  unfold flushRow at h
  split at h
  · cases h
    exact ⟨rfl, .inl rfl⟩
  · obtain ⟨hc, hu, hown⟩ := Versioned.update_eq_some h
    exact ⟨hc, .inr ⟨hu, hown⟩⟩

theorem flushRow_moves {row row' : Versioned Writer ExecutionRow} {wr : Writer} {o : Orm}
    (h : flushRow row wr o = some row') : row.Moves wr row' := by
  unfold flushRow at h
  split at h
  · cases h
    exact .stay
  · exact .update h

/-- After a flush the session reads what its object holds. -/
theorem flushRow_view {row row' : Versioned Writer ExecutionRow} {wr : Writer} {o : Orm}
    (hloaded : o.loaded = row.view wr) (h : flushRow row wr o = some row') :
    row'.committed = row.committed ∧ row'.view wr = o.current := by
  unfold flushRow at h
  split at h
  · rename_i hclean
    cases h
    exact ⟨rfl, by rw [← hloaded, hclean]⟩
  · obtain ⟨hc, hu, -⟩ := Versioned.update_eq_some h
    refine ⟨hc, ?_⟩
    rw [Versioned.view_own hu, ← hloaded, Orm.patch_loaded]

theorem route_assign_status (kind : RequestKind) (s : ExecutionStatus) (row : ExecutionRow) :
    (kind.route.assign s row).status = s := by
  cases kind <;> rfl

/-! ## The worker's moves -/

inductive Ran (cfg : Config) (w : World) (i : Nat) : World → Prop
  | readTerminal (hpc : (w.workers i).pc = .read) (ht : Terminal w.row.committed.status) :
      Ran cfg w i (w.set i ((w.workers i).goto (.close .returned)))
  | read (hpc : (w.workers i).pc = .read) (ht : ¬ Terminal w.row.committed.status) :
      Ran cfg w i (w.set i
        { w.workers i with execution := .ofRow w.row.committed, pc := .acquire })
  | refused (hpc : (w.workers i).pc = .acquire) {h : Holder} (hlock : w.lock = some h) :
      Ran cfg w i (w.set i ((w.workers i).goto (.close .returned)))
  | acquired (hpc : (w.workers i).pc = .acquire) (hlock : w.lock = none) :
      Ran cfg w i { w.set i ((w.workers i).goto .setup) with lock := some (.worker i) }
  | setupRaises (hpc : (w.workers i).pc = .setup)
      (hs : (w.workers i).execution.current.status ≠ .pending) :
      Ran cfg w i (w.set i ((w.workers i).goto (.release .raised)))
  | setup (hpc : (w.workers i).pc = .setup)
      (hs : (w.workers i).execution.current.status = .pending) :
      Ran cfg w i (w.set i { w.workers i with
        ctx := resumeContext (w.workers i).execution.current.context
          (CheckpointManager.getLatest w.checkpoints)
        costTracker := ⟨cfg.maxPerExecutionUsd, cfg.maxPerDayUsd, 0, 0⟩
        fsm := ⟨.running⟩
        pc := .flushRunning (startIndex (CheckpointManager.getLatest w.checkpoints)) })
  | flushRunning {start : Nat} (hpc : (w.workers i).pc = .flushRunning start)
      {row : Versioned Writer ExecutionRow}
      (hrow : flushRow w.row (.worker i)
        (updateStatus .running w.clock (w.workers i).execution) = some row) :
      Ran cfg w i (World.set { w with row := row } i { w.workers i with
        execution := (updateStatus .running w.clock (w.workers i).execution).flushed
        pc := .publishStarted start .global })
  | publishStarted {start : Nat} {s : Stream} {pc : Pc}
      (hpc : (w.workers i).pc = .publishStarted start s)
      (hnext : pc = .publishStarted start .sse ∨ pc = .commitRunning start) :
      Ran cfg w i ((w.record (.published s .started)).set i ((w.workers i).goto pc))
  | commitRunning {start : Nat} (hpc : (w.workers i).pc = .commitRunning start) :
      Ran cfg w i (World.set { w with row := w.row.commit (.worker i) } i
        ((w.workers i).goto (cfg.next start)))
  | refreshStops {n : Nat} (hpc : (w.workers i).pc = .refresh n)
      (hs : (w.row.view (.worker i)).status = .paused ∨
        (w.row.view (.worker i)).status = .cancelled) :
      Ran cfg w i (w.set i { w.workers i with
        execution := .ofRow (w.row.view (.worker i)), pc := .release .returned })
  | refresh {n : Nat} (hpc : (w.workers i).pc = .refresh n)
      (hs : ¬ ((w.row.view (.worker i)).status = .paused ∨
        (w.row.view (.worker i)).status = .cancelled)) :
      Ran cfg w i ((w.record (.stepStarted i n)).set i { w.workers i with
        execution := .ofRow (w.row.view (.worker i))
        currentStepName := (cfg.stepConfig n).name
        pc := if CheckpointManager.shouldCheckpoint (cfg.stepConfig n) then .writeCheckpoint n
          else .execute n })
  | writeCheckpoint {n : Nat} (hpc : (w.workers i).pc = .writeCheckpoint n) :
      Ran cfg w i ((w.record (.checkpointWritten i n)).set i { w.workers i with
        added := (w.workers i).added ++
          [CheckpointManager.write (cfg.stepConfig n).name n (w.workers i).ctx.contextVariables]
        pc := .commitCheckpoint n })
  | commitCheckpoint {n : Nat} (hpc : (w.workers i).pc = .commitCheckpoint n) :
      Ran cfg w i (World.set
        { w with
          row := w.row.commit (.worker i), checkpoints := w.checkpoints ++ (w.workers i).added } i
        { w.workers i with added := [], pc := .execute n })
  | costExceeded {n : Nat} {e : CostLimitExceeded} (hpc : (w.workers i).pc = .execute n)
      (hcost : (w.workers i).costTracker.add (cfg.stepCost n) = .error e) :
      Ran cfg w i (w.set i ((w.workers i).goto (.flushPaused .costExceeded)))
  | execute {n : Nat} {t : CostTracker} {ctx : ExecutionContext}
      (hpc : (w.workers i).pc = .execute n)
      (hcost : (w.workers i).costTracker.add (cfg.stepCost n) = .ok t) :
      Ran cfg w i (w.set i { w.workers i with
        costTracker := t
        ctx := ctx
        execution := (w.workers i).execution.assign fun row => { row with context := ctx }
        pc := .publishStep n .global })
  | publishStep {n : Nat} {s : Stream} {pc : Pc} (hpc : (w.workers i).pc = .publishStep n s)
      (hnext : pc = .publishStep n .sse ∨ pc = .flushStep n) :
      Ran cfg w i ((w.record (.published s (.stepCompleted (cfg.stepConfig n).name n
        (cfg.stepCost n) (stepOutputs (cfg.stepConfig n).name)))).set i ((w.workers i).goto pc))
  | flushStep {n : Nat} (hpc : (w.workers i).pc = .flushStep n)
      {row : Versioned Writer ExecutionRow}
      (hrow : flushRow w.row (.worker i) (w.workers i).execution = some row) :
      Ran cfg w i (World.set { w with row := row } i { w.workers i with
        execution := (w.workers i).execution.flushed, pc := cfg.next (n + 1) })
  | doneRaises (hpc : (w.workers i).pc = .flushCompleted) :
      Ran cfg w i (w.set i ((w.workers i).goto (.release .raised)))
  | flushCompleted {fsm : ExecutionFSM} (hpc : (w.workers i).pc = .flushCompleted)
      {row : Versioned Writer ExecutionRow}
      (hrow : flushRow w.row (.worker i)
        (updateStatus .completed w.clock (w.workers i).execution) = some row) :
      Ran cfg w i (World.set { w with row := row } i { w.workers i with
        fsm := fsm
        execution := (updateStatus .completed w.clock (w.workers i).execution).flushed
        pc := .publishCompleted .global })
  | publishCompleted {s : Stream} {pc : Pc} (hpc : (w.workers i).pc = .publishCompleted s)
      (hnext : pc = .publishCompleted .sse ∨ pc = .commitCompleted) :
      Ran cfg w i ((w.record (.published s (.completed .completed
        (w.workers i).costTracker.total cfg.steps.length))).set i ((w.workers i).goto pc))
  | commitCompleted (hpc : (w.workers i).pc = .commitCompleted) :
      Ran cfg w i (World.set
        { w with
          row := w.row.commit (.worker i), checkpoints := w.checkpoints ++ (w.workers i).added } i
        { w.workers i with added := [], pc := .release .returned })
  | pausedRaises {why : Stop} {fsm : ExecutionFSM} (hpc : (w.workers i).pc = .flushPaused why) :
      Ran cfg w i (w.set i { w.workers i with fsm := fsm, pc := .release .raised })
  | flushPaused {why : Stop} {fsm : ExecutionFSM} (hpc : (w.workers i).pc = .flushPaused why)
      {row : Versioned Writer ExecutionRow}
      (hrow : flushRow w.row (.worker i)
        (why.updateStatus w.clock (w.workers i).execution) = some row) :
      Ran cfg w i (World.set { w with row := row } i { w.workers i with
        fsm := fsm
        execution := (why.updateStatus w.clock (w.workers i).execution).flushed
        pc := .publishPaused why .global })
  | publishPaused {why : Stop} {s : Stream} {pc : Pc}
      (hpc : (w.workers i).pc = .publishPaused why s)
      (hnext : pc = .publishPaused why .sse ∨ pc = .commitPaused) :
      Ran cfg w i ((w.record (.published s (.paused why.pauseReason
        (w.workers i).currentStepName))).set i ((w.workers i).goto pc))
  | commitPaused (hpc : (w.workers i).pc = .commitPaused) :
      Ran cfg w i (World.set
        { w with
          row := w.row.commit (.worker i), checkpoints := w.checkpoints ++ (w.workers i).added } i
        { w.workers i with added := [], pc := .release .returned })
  | release {o : Outcome} (hpc : (w.workers i).pc = .release o) :
      Ran cfg w i { w.set i ((w.workers i).goto (.close o)) with
        lock := if w.lock = some (.worker i) then none else w.lock }
  | closeReturned (hpc : (w.workers i).pc = .close .returned) :
      Ran cfg w i (World.finish
        { w with
          row := w.row.commit (.worker i), checkpoints := w.checkpoints ++ (w.workers i).added }
        i .returned)
  | closeRaised (hpc : (w.workers i).pc = .close .raised) :
      Ran cfg w i (World.finish { w with row := w.row.rollback (.worker i) } i .raised)

theorem runWorker_ran {cfg : Config} {w w' : World} {i : Nat}
    (h : runWorker cfg w i = some w') : Ran cfg w i w' := by
  cases hpc : (w.workers i).pc <;> simp only [runWorker, hpc] at h
  case idle => cases h
  case read =>
    split at h <;> cases h
    · exact .readTerminal hpc ‹_›
    · exact .read hpc ‹_›
  case acquire =>
    split at h <;> cases h
    · exact .refused hpc ‹_›
    · exact .acquired hpc ‹_›
  case setup =>
    split at h
    · rename_i e he
      cases h
      refine .setupRaises hpc fun hs => ?_
      rw [hs] at he
      cases he
    · rename_i fsm hfsm
      obtain ⟨hs, hrunning⟩ := transition_submit hfsm
      cases h
      obtain ⟨s⟩ := fsm
      obtain rfl : s = .running := hrunning
      exact .setup hpc hs
  case flushRunning =>
    split at h <;> cases h
    exact .flushRunning hpc ‹_›
  case publishStarted start s =>
    cases s <;> cases h
    · exact .publishStarted hpc (.inl rfl)
    · exact .publishStarted hpc (.inr rfl)
  case commitRunning =>
    cases h
    exact .commitRunning hpc
  case refresh =>
    split at h <;> cases h
    · exact .refreshStops hpc ‹_›
    · exact .refresh hpc ‹_›
  case writeCheckpoint =>
    cases h
    exact .writeCheckpoint hpc
  case commitCheckpoint =>
    cases h
    exact .commitCheckpoint hpc
  case execute =>
    split at h <;> cases h
    · exact .costExceeded hpc ‹_›
    · exact .execute hpc ‹_›
  case publishStep n s =>
    cases s <;> cases h
    · exact .publishStep hpc (.inl rfl)
    · exact .publishStep hpc (.inr rfl)
  case flushStep =>
    split at h <;> cases h
    exact .flushStep hpc ‹_›
  case flushCompleted =>
    split at h
    · cases h
      exact .doneRaises hpc
    · split at h <;> cases h
      exact .flushCompleted hpc ‹_›
  case publishCompleted s =>
    cases s <;> cases h
    · exact .publishCompleted hpc (.inl rfl)
    · exact .publishCompleted hpc (.inr rfl)
  case commitCompleted =>
    cases h
    exact .commitCompleted hpc
  case flushPaused =>
    split at h
    · cases h
      exact .pausedRaises hpc
    · split at h
      · cases h
        exact .pausedRaises hpc
      · split at h <;> cases h
        exact .flushPaused hpc ‹_›
  case publishPaused why s =>
    cases s <;> cases h
    · exact .publishPaused hpc (.inl rfl)
    · exact .publishPaused hpc (.inr rfl)
  case commitPaused =>
    cases h
    exact .commitPaused hpc
  case release =>
    cases h
    exact .release hpc
  case close o =>
    cases o <;> cases h
    · exact .closeReturned hpc
    · exact .closeRaised hpc

/-! ## The moves of the other parties -/

/-- A move that is none of a worker's and none of a request's.  It can free the
lock of a holder that is gone, but not that of a worker inside. -/
structure Bystander (w w' : World) : Prop where
  row : w'.row = w.row
  checkpoints : w'.checkpoints = w.checkpoints
  workers : w'.workers = w.workers
  requests : w'.requests = w.requests
  log : w'.log = w.log
  ended : w'.ended = w.ended
  tasks : w.tasks ≤ w'.tasks
  lock : ∀ i, w.lock = some (.worker i) → (w.workers i).pc.inLock → w'.lock = w.lock

theorem Bystander.of_lock_eq {w w' : World} (row : w'.row = w.row)
    (checkpoints : w'.checkpoints = w.checkpoints) (workers : w'.workers = w.workers)
    (requests : w'.requests = w.requests) (log : w'.log = w.log) (ended : w'.ended = w.ended)
    (tasks : w.tasks ≤ w'.tasks) (lock : w'.lock = w.lock) : Bystander w w' :=
  ⟨row, checkpoints, workers, requests, log, ended, tasks, fun _ _ _ => lock⟩

theorem scanPod_bystander {cfg : Config} {w w' : World} {p : Nat}
    (h : scanPod cfg w p = some w') : Bystander w w' := by
  unfold scanPod at h
  split at h
  · split at h <;> cases h <;> exact .of_lock_eq rfl rfl rfl rfl rfl rfl le_rfl rfl
  · cases h

theorem runPod_bystander {w w' : World} {p : Nat} (h : runPod w p = some w') :
    Bystander w w' := by
  unfold runPod at h
  split at h
  · cases h
  · split at h
    · cases h
      exact .of_lock_eq rfl rfl rfl rfl rfl rfl le_rfl rfl
    · rename_i hlock
      cases h
      refine ⟨rfl, rfl, rfl, rfl, rfl, rfl, le_rfl, fun i hi _ => ?_⟩
      rw [hlock] at hi
      cases hi
  · cases h
    exact .of_lock_eq rfl rfl rfl rfl rfl rfl (Nat.le_succ _) rfl
  · cases h
    refine ⟨rfl, rfl, rfl, rfl, rfl, rfl, le_rfl, fun i hi _ => ?_⟩
    rw [hi]
    rfl

theorem expireLock_bystander {w w' : World} (h : expireLock w = some w') : Bystander w w' := by
  unfold expireLock at h
  split at h
  · rename_i holder hlock
    split at h
    · cases h
    · rename_i hgone
      cases h
      refine ⟨rfl, rfl, rfl, rfl, rfl, rfl, le_rfl, fun i hi hin => ?_⟩
      rw [hlock] at hi
      cases hi
      exact absurd hin hgone
  · cases h

/-- The worker an action belongs to. -/
def actor : Action → Option Nat
  | .take i | .run i | .fail i _ | .crash i => some i
  | _ => none

/-- The session an action belongs to. -/
def writer : Action → Option Writer
  | .take i | .run i | .fail i _ | .crash i => some (.worker i)
  | .request r _ | .flush r | .commit r | .enqueue r | .enqueueFails r | .abort r =>
    some (.request r)
  | _ => none

theorem writer_of_actor {a : Action} {i : Nat} (h : actor a = some i) :
    writer a = some (.worker i) := by
  cases a <;> cases h <;> rfl

/-- Every step, by the party that takes it. -/
inductive Moved (cfg : Config) (w : World) : Action → World → Prop
  | take {i : Nat} (hpc : (w.workers i).pc = .idle) (htasks : 0 < w.tasks) :
      Moved cfg w (.take i) (World.set { w with tasks := w.tasks - 1 } i { pc := .read })
  | run {i : Nat} {w' : World} (h : Ran cfg w i w') : Moved cfg w (.run i) w'
  | failClose {i : Nat} {message : String} {o : Outcome} (hpc : (w.workers i).pc = .close o) :
      Moved cfg w (.fail i message)
        (World.finish { w with row := w.row.rollback (.worker i) } i .raised)
  | failDatabase {i : Nat} {message : String} (hdb : (w.workers i).pc.usesDatabase) :
      Moved cfg w (.fail i message) (World.set { w with row := w.row.rollback (.worker i) } i
        { w.workers i with
          pc := (w.workers i).pc.onFail message, added := [], rejects := true })
  | fail {i : Nat} {message : String} (hidle : (w.workers i).pc ≠ .idle)
      (hclose : ∀ o, (w.workers i).pc ≠ .close o) (hdb : (w.workers i).pc.usesDatabase = false) :
      Moved cfg w (.fail i message)
        (w.set i ((w.workers i).goto ((w.workers i).pc.onFail message)))
  | crash {i : Nat} (hpc : (w.workers i).pc ≠ .idle) :
      Moved cfg w (.crash i) (World.set
        { w with row := w.row.rollback (.worker i), tasks := w.tasks + 1 } i {})
  | conflict {r : Nat} {kind : RequestKind} {detail : String} :
      Moved cfg w (.request r kind) (w.answer r (.conflict detail))
  | request {r : Nat} {kind : RequestKind} {fsm : ExecutionFSM}
      (hphase : (w.requests r).phase = .idle)
      (hfsm : (ExecutionFSM.mk w.row.committed.status).transition kind.route.trigger = .ok fsm) :
      Moved cfg w (.request r kind)
        (w.setRequest r ⟨.flush kind, .ofRow w.row.committed, fsm⟩)
  | flush {r : Nat} {kind : RequestKind} (hphase : (w.requests r).phase = .flush kind)
      {row : Versioned Writer ExecutionRow}
      (hrow : flushRow w.row (.request r) ((w.requests r).execution.assign
        (kind.route.assign (w.requests r).fsm.status)) = some row) :
      Moved cfg w (.flush r) (World.setRequest { w with row := row } r ⟨.commit kind,
        ((w.requests r).execution.assign (kind.route.assign (w.requests r).fsm.status)).flushed,
        (w.requests r).fsm⟩)
  | commitResume {r : Nat} (hphase : (w.requests r).phase = .commit .resume) :
      Moved cfg w (.commit r) (World.setRequest { w with row := w.row.commit (.request r) } r
        { w.requests r with phase := .enqueue })
  | commit {r : Nat} {kind : RequestKind} (hphase : (w.requests r).phase = .commit kind)
      (hkind : kind ≠ .resume) :
      Moved cfg w (.commit r) ((World.setRequest { w with row := w.row.commit (.request r) } r
        {}).answer r .ok)
  | enqueue {r : Nat} (hphase : (w.requests r).phase = .enqueue) :
      Moved cfg w (.enqueue r)
        (World.answer (World.setRequest { w with tasks := w.tasks + 1 } r {}) r .ok)
  | enqueueFails {r : Nat} (hphase : (w.requests r).phase = .enqueue) :
      Moved cfg w (.enqueueFails r) ((w.setRequest r {}).answer r .serverError)
  | abort {r : Nat} (hphase : (w.requests r).phase ≠ .enqueue) :
      Moved cfg w (.abort r) (World.answer
        (World.setRequest { w with row := w.row.rollback (.request r) } r {}) r .serverError)
  | bystander {a : Action} {w' : World} (ha : writer a = none) (h : Bystander w w') :
      Moved cfg w a w'

theorem failWorker_moved {cfg : Config} {w w' : World} {i : Nat} {message : String}
    (h : failWorker w i message = some w') : Moved cfg w (.fail i message) w' := by
  unfold failWorker at h
  dsimp only at h
  split at h
  · cases h
  · rename_i o hpc
    cases h
    exact .failClose hpc
  · rename_i hidle hclose
    split at h <;> cases h
    · exact .failDatabase ‹_›
    · exact .fail hidle hclose (Bool.eq_false_iff.mpr ‹_›)

theorem startRequest_moved {cfg : Config} {w w' : World} {r : Nat} {kind : RequestKind}
    (h : startRequest w r kind = some w') : Moved cfg w (.request r kind) w' := by
  unfold startRequest at h
  split at h
  · rename_i hphase
    dsimp only at h
    split at h <;> cases h
    · exact .conflict
    · exact .request hphase ‹_›
  · cases h

theorem flushRequest_moved {cfg : Config} {w w' : World} {r : Nat}
    (h : flushRequest w r = some w') : Moved cfg w (.flush r) w' := by
  cases hphase : (w.requests r).phase <;> simp only [flushRequest, hphase] at h
  case flush kind =>
    split at h <;> cases h
    exact .flush hphase ‹_›
  all_goals cases h

theorem commitRequest_moved {cfg : Config} {w w' : World} {r : Nat}
    (h : commitRequest w r = some w') : Moved cfg w (.commit r) w' := by
  cases hphase : (w.requests r).phase <;> simp only [commitRequest, hphase] at h
  case commit kind =>
    cases kind <;> cases h
    · exact .commit hphase (by decide)
    · exact .commitResume hphase
    · exact .commit hphase (by decide)
  all_goals cases h

theorem abortRequest_moved {cfg : Config} {w w' : World} {r : Nat}
    (h : abortRequest w r = some w') : Moved cfg w (.abort r) w' := by
  unfold abortRequest at h
  split at h <;> cases h
  · exact .abort (by simp [*])
  · exact .abort (by simp [*])

theorem step_moved {cfg : Config} {w w' : World} {a : Action} (h : step cfg w a = some w') :
    Moved cfg w a w' := by
  cases a <;> dsimp only [step] at h
  case take i =>
    unfold takeTask at h
    split at h <;> cases h
    rename_i hi
    exact .take hi.1 hi.2
  case run i => exact .run (runWorker_ran h)
  case fail i message => exact failWorker_moved h
  case crash i =>
    unfold crashWorker at h
    split at h <;> cases h
    exact .crash ‹_›
  case request r kind => exact startRequest_moved h
  case flush r => exact flushRequest_moved h
  case commit r => exact commitRequest_moved h
  case enqueue r =>
    unfold enqueueRequest at h
    split at h <;> cases h
    exact .enqueue ‹_›
  case enqueueFails r =>
    unfold failEnqueue at h
    split at h <;> cases h
    exact .enqueueFails ‹_›
  case abort r => exact abortRequest_moved h
  case scan p => exact .bystander rfl (scanPod_bystander h)
  case pod p => exact .bystander rfl (runPod_bystander h)
  case podCrash p =>
    unfold crashPod at h
    split at h <;> cases h
    exact .bystander rfl (.of_lock_eq rfl rfl rfl rfl rfl rfl le_rfl rfl)
  case redeliver =>
    cases h
    exact .bystander rfl (.of_lock_eq rfl rfl rfl rfl rfl rfl (Nat.le_succ _) rfl)
  case expire => exact .bystander rfl (expireLock_bystander h)
  case tick =>
    cases h
    exact .bystander rfl (.of_lock_eq rfl rfl rfl rfl rfl rfl le_rfl rfl)

/-! ## Who writes the row -/

theorem ran_moves {cfg : Config} {w w' : World} {i : Nat} (h : Ran cfg w i w') :
    w.row.Moves (.worker i) w'.row := by
  cases h with
  | flushRunning hpc hrow | flushStep hpc hrow | flushCompleted hpc hrow | flushPaused hpc hrow =>
    exact flushRow_moves hrow
  | commitRunning | commitCheckpoint | commitCompleted | commitPaused | closeReturned =>
    exact .commit
  | closeRaised => exact .rollback
  | _ => exact .stay

theorem moved_moves {cfg : Config} {w w' : World} {a : Action} (h : Moved cfg w a w') :
    w'.row = w.row ∨ ∃ wr, writer a = some wr ∧ w.row.Moves wr w'.row := by
  cases h with
  | run h => exact .inr ⟨_, rfl, ran_moves h⟩
  | flush hphase hrow => exact .inr ⟨_, rfl, flushRow_moves hrow⟩
  | failClose | failDatabase | crash | abort => exact .inr ⟨_, rfl, .rollback⟩
  | commitResume | commit => exact .inr ⟨_, rfl, .commit⟩
  | bystander _ h => exact .inl h.row
  | _ => exact .inl rfl

/-- Seen from a session that does not act, the row is moved by another writer. -/
theorem moved_moves_other {cfg : Config} {w w' : World} {a : Action} {o : Writer}
    (h : Moved cfg w a w') (ho : writer a ≠ some o) :
    ∃ wr, wr ≠ o ∧ w.row.Moves wr w'.row := by
  rcases moved_moves h with hrow | ⟨wr, hwr, hmoves⟩
  · rw [hrow]
    cases o with
    | worker i => exact ⟨.request 0, by simp, .stay⟩
    | request r => exact ⟨.worker 0, by simp, .stay⟩
  · exact ⟨wr, fun heq => ho (by rw [hwr, heq]), hmoves⟩

theorem ran_requests {cfg : Config} {w w' : World} {i : Nat} (h : Ran cfg w i w') :
    w'.requests = w.requests := by
  cases h <;> rfl

theorem moved_requests_other {cfg : Config} {w w' : World} {a : Action} {r : Nat}
    (h : Moved cfg w a w') (hr : writer a ≠ some (.request r)) :
    w'.requests r = w.requests r := by
  cases h with
  | run h => rw [ran_requests h]
  | bystander _ h => rw [h.requests]
  | @request r' | @flush r' | @commitResume r' | @commit r' | @enqueue r' | @enqueueFails r'
  | @abort r' =>
    have hne : r ≠ r' := fun heq => hr (by rw [heq]; rfl)
    simp [hne]
  | _ => rfl

/-! ## The log grows -/

theorem ran_log {cfg : Config} {w w' : World} {i : Nat} (h : Ran cfg w i w') :
    ∃ l, w'.log = w.log ++ l := by
  cases h with
  | publishStarted | refresh | writeCheckpoint | publishStep | publishCompleted | publishPaused =>
    exact ⟨_, rfl⟩
  | _ => exact ⟨[], (List.append_nil _).symm⟩

theorem moved_log_other {cfg : Config} {w w' : World} {a : Action} (h : Moved cfg w a w')
    (ha : actor a = none) : w'.log = w.log ∧ w'.checkpoints = w.checkpoints := by
  cases h with
  | bystander _ h => exact ⟨h.log, h.checkpoints⟩
  | run | take | failClose | failDatabase | fail | crash => cases ha
  | _ => exact ⟨rfl, rfl⟩

theorem moved_log {cfg : Config} {w w' : World} {a : Action} (h : Moved cfg w a w') :
    ∃ l, w'.log = w.log ++ l := by
  cases h with
  | run h => exact ran_log h
  | bystander _ h => exact ⟨[], by rw [h.log, List.append_nil]⟩
  | _ => exact ⟨[], (List.append_nil _).symm⟩

end Sutram.Workflow
