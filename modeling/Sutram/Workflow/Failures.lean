/-
An exception in the step loop.

The handler of the step loop works on the session the exception came through and
publishes before it commits.  It gets to its commit when the session still accepts
work and neither stream refuses the paused event; otherwise the exception it raises
leaves `Executor.run`, the session rolls the pause back, and RUNNING stays committed.
-/
import Sutram.Workflow.Invariants

namespace Sutram.Workflow

open Sutram.Core Runs

namespace Pc

/-- The operations inside the `try` of the step loop. -/
def inLoop : Pc → Bool
  | .refresh _ | .writeCheckpoint _ | .commitCheckpoint _ | .execute _ | .publishStep _ _
  | .flushStep _ => true
  | _ => false

/-- Between the FSM's `submit` and the end of the step loop. -/
def isRunning : Pc → Bool
  | .flushRunning _ | .publishStarted _ _ | .commitRunning _ => true
  | pc => pc.inLoop

/-- RUNNING has been flushed, and the loop has not ended. -/
def hasFlushed : Pc → Bool
  | .publishStarted _ _ | .commitRunning _ => true
  | pc => pc.inLoop

/-- The task has read the row and not left the lock. -/
def hasRead : Pc → Bool
  | .acquire => true
  | pc => pc.inLock

end Pc

/-- The execution is paused with the error on it, and the lock is not the worker's. -/
structure PausedWith (w : World) (i : Nat) (message : String) : Prop where
  status : w.row.committed.status = .paused
  errorMessage : w.row.committed.errorMessage = some message
  lock : w.lock ≠ some (.worker i)

/-! ## A worker on its own -/

/-- Worker `i` has taken a task, nobody else has moved since, and nothing has raised:
what the session object was loaded with is what the session reads. -/
structure Alone (w : World) (i : Nat) : Prop where
  accepts : (w.workers i).rejects = false
  lock : (w.workers i).pc.inLock → w.lock = some (.worker i)
  unwritten : (w.workers i).pc = .read → ∀ r, w.row.uncommitted ≠ some (.worker i, r)
  loaded : (w.workers i).pc.hasRead → (w.workers i).execution.loaded = w.row.view (.worker i)
  clean : (w.workers i).execution.current.status = (w.workers i).execution.loaded.status
  fsm : (w.workers i).pc.isRunning → (w.workers i).fsm = ⟨.running⟩
  running : (w.workers i).pc.hasFlushed → (w.workers i).execution.loaded.status = .running
  committed : (w.workers i).pc.inLoop → w.row.committed.status = .running

@[simp] theorem stop_updateStatus_loaded (why : Stop) (now : Nat) (o : Orm) :
    (why.updateStatus now o).loaded = o.loaded := by
  cases why <;> rfl

theorem alone_take {cfg : Config} {w w' : World} {i : Nat} (hfree : w.row.uncommitted = none)
    (h : step cfg w (.take i) = some w') : Alone w' i := by
  have hmoved := step_moved h
  cases hmoved with
  | take hpc htasks =>
    constructor <;> simp [Pc.inLock, Pc.hasRead, Pc.isRunning, Pc.hasFlushed, Pc.inLoop, hfree]
  | bystander hnone _ => cases hnone

/-- The worker goes on with its object as it is and as it was loaded. -/
theorem Alone.next {w w' : World} {i : Nat} (hI : Alone w i)
    (hexecution : (w'.workers i).execution = (w.workers i).execution)
    (hrejects : (w'.workers i).rejects = (w.workers i).rejects)
    (hview : w'.row.view (.worker i) = w.row.view (.worker i))
    (hread : (w'.workers i).pc ≠ .read)
    (hlock : (w'.workers i).pc.inLock → w'.lock = some (.worker i))
    (hhasRead : (w'.workers i).pc.hasRead → (w.workers i).pc.hasRead)
    (hfsm : (w'.workers i).pc.isRunning → (w'.workers i).fsm = ⟨.running⟩)
    (hhasFlushed : (w'.workers i).pc.hasFlushed → (w.workers i).pc.hasFlushed)
    (hcommitted : (w'.workers i).pc.inLoop → w'.row.committed.status = .running) :
    Alone w' i := by
  constructor
  · rw [hrejects, hI.accepts]
  · exact hlock
  · exact fun hat => absurd hat hread
  · intro hin
    rw [hexecution, hview]
    exact hI.loaded (hhasRead hin)
  · rw [hexecution]
    exact hI.clean
  · exact hfsm
  · intro hin
    rw [hexecution]
    exact hI.running (hhasFlushed hin)
  · exact hcommitted

/-- The worker goes on to `pc` and touches neither the row nor the lock: it keeps what it
has, and is no further than it was. -/
theorem Alone.goto {w w' : World} {i : Nat} {pc : Pc} (hI : Alone w i) (hrow : w'.row = w.row)
    (hlock : w'.lock = w.lock) (hworker : w'.workers i = (w.workers i).goto pc)
    (hread : pc ≠ .read) (hinLock : pc.inLock → (w.workers i).pc.inLock)
    (hhasRead : pc.hasRead → (w.workers i).pc.hasRead)
    (hisRunning : pc.isRunning → (w.workers i).pc.isRunning)
    (hhasFlushed : pc.hasFlushed → (w.workers i).pc.hasFlushed)
    (hinLoop : pc.inLoop → (w.workers i).pc.inLoop) : Alone w' i := by
  have hpc : (w'.workers i).pc = pc := by rw [hworker]; rfl
  refine hI.next (by rw [hworker]; rfl) (by rw [hworker]; rfl) (by rw [hrow]) ?_ ?_ ?_ ?_ ?_ ?_
    <;> rw [hpc]
  · exact hread
  · rw [hlock]
    exact fun hin => hI.lock (hinLock hin)
  · exact hhasRead
  · rw [hworker]
    exact fun hin => hI.fsm (hisRunning hin)
  · exact hhasFlushed
  · rw [hrow]
    exact fun hin => hI.committed (hinLoop hin)

/-- After the flush of RUNNING the session reads a running execution. -/
theorem Alone.view_status {w : World} {i : Nat} (hI : Alone w i)
    (hhasRead : (w.workers i).pc.hasRead) (hhasFlushed : (w.workers i).pc.hasFlushed) :
    (w.row.view (.worker i)).status = .running := by
  rw [← hI.loaded hhasRead, hI.running hhasFlushed]

theorem alone_ran {cfg : Config} {w w' : World} {i : Nat} (hI : Alone w i)
    (h : Ran cfg w i w') : Alone w' i := by
  cases h with
  | readTerminal hpc | refused hpc | setupRaises hpc | costExceeded hpc | doneRaises hpc =>
    refine hI.goto rfl rfl (Function.update_self ..) (by simp) ?_ ?_ ?_ ?_ ?_ <;>
      simp [hpc, Pc.inLock, Pc.hasRead, Pc.isRunning, Pc.hasFlushed, Pc.inLoop]
  | publishStarted hpc hnext | publishStep hpc hnext | publishCompleted hpc hnext
  | publishPaused hpc hnext =>
    rcases hnext with rfl | rfl <;>
      refine hI.goto rfl rfl (Function.update_self ..) (by simp) ?_ ?_ ?_ ?_ ?_ <;>
      simp [hpc, Pc.inLock, Pc.hasRead, Pc.isRunning, Pc.hasFlushed, Pc.inLoop]
  | acquired hpc | release hpc =>
    refine hI.next (by simp) (by simp) rfl ?_ ?_ ?_ ?_ ?_ ?_ <;>
      simp [hpc, Pc.inLock, Pc.hasRead, Pc.isRunning, Pc.hasFlushed, Pc.inLoop]
  | setup hpc | pausedRaises hpc | commitCompleted hpc | commitPaused hpc =>
    have hlock := hI.lock (by rw [hpc]; rfl)
    refine hI.next (by simp) (by simp) (by simp) ?_ ?_ ?_ ?_ ?_ ?_ <;>
      simp [hpc, hlock, Pc.inLock, Pc.hasRead, Pc.isRunning, Pc.hasFlushed, Pc.inLoop]
  | writeCheckpoint hpc =>
    have hlock := hI.lock (by rw [hpc]; rfl)
    have hfsm := hI.fsm (by rw [hpc]; rfl)
    have hcommitted := hI.committed (by rw [hpc]; rfl)
    refine hI.next (by simp) (by simp) rfl ?_ ?_ ?_ ?_ ?_ ?_ <;>
      simp [hpc, hlock, hfsm, hcommitted, Pc.hasRead, Pc.inLock, Pc.hasFlushed, Pc.inLoop]
  | commitCheckpoint hpc =>
    have hlock := hI.lock (by rw [hpc]; rfl)
    have hfsm := hI.fsm (by rw [hpc]; rfl)
    have hview := hI.view_status (by rw [hpc]; rfl) (by rw [hpc]; rfl)
    refine hI.next (by simp) (by simp) (by simp) ?_ ?_ ?_ ?_ ?_ ?_ <;>
      simp [hpc, hlock, hfsm, hview, Versioned.commit_committed, Pc.hasRead, Pc.inLock,
        Pc.hasFlushed, Pc.inLoop]
  | @commitRunning start hpc =>
    have hlock := hI.lock (by rw [hpc]; rfl)
    have hfsm := hI.fsm (by rw [hpc]; rfl)
    have hview := hI.view_status (by rw [hpc]; rfl) (by rw [hpc]; rfl)
    rcases next_cases cfg start with hn | hn <;>
      refine hI.next (by simp) (by simp) (by simp) ?_ ?_ ?_ ?_ ?_ ?_ <;>
      simp [hpc, hn, hlock, hfsm, hview, Versioned.commit_committed, Pc.hasRead, Pc.inLock,
        Pc.hasFlushed, Pc.inLoop]
  | read hpc =>
    have hview := Versioned.view_eq_committed (hI.unwritten hpc)
    constructor <;>
      simp [hI.accepts, hview, Pc.inLock, Pc.hasRead, Pc.isRunning, Pc.hasFlushed, Pc.inLoop]
  | refreshStops hpc =>
    have hlock := hI.lock (by rw [hpc]; rfl)
    constructor <;>
      simp [hI.accepts, hlock, Pc.inLock, Pc.hasRead, Pc.isRunning, Pc.hasFlushed, Pc.inLoop]
  | refresh hpc =>
    have hlock := hI.lock (by rw [hpc]; rfl)
    have hfsm := hI.fsm (by rw [hpc]; rfl)
    have hview := hI.view_status (by rw [hpc]; rfl) (by rw [hpc]; rfl)
    have hcommitted := hI.committed (by rw [hpc]; rfl)
    split <;> constructor <;>
      simp [hI.accepts, hlock, hfsm, hview, hcommitted, Pc.inLock, Pc.hasRead, Pc.isRunning,
        Pc.hasFlushed, Pc.inLoop]
  | execute hpc =>
    have hlock := hI.lock (by rw [hpc]; rfl)
    have hfsm := hI.fsm (by rw [hpc]; rfl)
    have hloaded := hI.loaded (by rw [hpc]; rfl)
    have hview := hI.view_status (by rw [hpc]; rfl) (by rw [hpc]; rfl)
    have hcommitted := hI.committed (by rw [hpc]; rfl)
    constructor <;>
      simp [hI.accepts, hI.clean, hlock, hfsm, hloaded, hview, hcommitted, Pc.inLock, Pc.hasRead,
        Pc.isRunning, Pc.hasFlushed, Pc.inLoop]
  | closeReturned hpc | closeRaised hpc =>
    constructor <;> simp [Pc.inLock, Pc.hasRead, Pc.isRunning, Pc.hasFlushed, Pc.inLoop]
  | flushRunning hpc hrow =>
    have hlock := hI.lock (by rw [hpc]; rfl)
    have hfsm := hI.fsm (by rw [hpc]; rfl)
    have hloaded := hI.loaded (by rw [hpc]; rfl)
    obtain ⟨-, hview⟩ := flushRow_view (by simpa using hloaded) hrow
    constructor <;> simp [hI.accepts, hlock, hfsm, hview, Pc.inLoop]
  | flushCompleted hpc hrow | flushPaused hpc hrow =>
    have hlock := hI.lock (by rw [hpc]; rfl)
    have hloaded := hI.loaded (by rw [hpc]; rfl)
    obtain ⟨-, hview⟩ := flushRow_view (by simpa using hloaded) hrow
    constructor <;>
      simp [hI.accepts, hlock, hview, Pc.isRunning, Pc.hasFlushed, Pc.inLoop]
  | @flushStep n hpc row hrow =>
    have hlock := hI.lock (by rw [hpc]; rfl)
    have hfsm := hI.fsm (by rw [hpc]; rfl)
    have hloaded := hI.loaded (by rw [hpc]; rfl)
    have hrunning := hI.running (by rw [hpc]; rfl)
    have hcommitted := hI.committed (by rw [hpc]; rfl)
    obtain ⟨hc, hview⟩ := flushRow_view (by simpa using hloaded) hrow
    rcases next_cases cfg (n + 1) with hn | hn <;> constructor <;>
      simp [hI.accepts, hI.clean, hn, hlock, hfsm, hview, hc, hrunning, hcommitted, Pc.inLock,
        Pc.hasRead, Pc.isRunning, Pc.hasFlushed, Pc.inLoop]

theorem alone_run {cfg : Config} {w w' : World} {i : Nat} (hI : Alone w i) (k : Nat)
    (h : run (step cfg) w (List.replicate k (.run i)) = some w') : Alone w' i := by
  refine invariant_run (I := fun u => Alone u i) (G := fun _ a => a = .run i) ?_ hI
    (along_of_mem (fun a ha => List.eq_of_mem_replicate ha) w) h
  rintro u a u' hu rfl hstep
  exact alone_ran hu (runWorker_ran hstep)

/-! ## The handler -/

/-- An operation of worker `i`, which succeeds or raises. -/
def Action.isOf (i : Nat) (a : Action) : Prop := a = .run i ∨ ∃ message, a = .fail i message

/-- The pause is flushed and not yet committed. -/
structure Flushed (w : World) (i : Nat) (message : String) : Prop where
  lock : w.lock = some (.worker i)
  running : w.row.committed.status = .running
  status : (w.row.view (.worker i)).status = .paused
  errorMessage : (w.row.view (.worker i)).errorMessage = some message

/-- The handler in good order, with so many operations to do before the execution is
paused and the lock released. -/
inductive Pausing (w : World) (i : Nat) (message : String) : Nat → Prop
  | flush (hpc : (w.workers i).pc = .flushPaused (.error message))
      (hlock : w.lock = some (.worker i)) (hrunning : w.row.committed.status = .running)
      (haccepts : (w.workers i).rejects = false) (hfsm : (w.workers i).fsm = ⟨.running⟩)
      (hloaded : (w.workers i).execution.loaded = w.row.view (.worker i)) :
      Pausing w i message 5
  | publishGlobal (hpc : (w.workers i).pc = .publishPaused (.error message) .global)
      (h : Flushed w i message) : Pausing w i message 4
  | publishSse (hpc : (w.workers i).pc = .publishPaused (.error message) .sse)
      (h : Flushed w i message) : Pausing w i message 3
  | commit (hpc : (w.workers i).pc = .commitPaused) (h : Flushed w i message) :
      Pausing w i message 2
  | release (hpc : (w.workers i).pc = .release .returned)
      (hlock : w.lock = some (.worker i)) (hstatus : w.row.committed.status = .paused)
      (herror : w.row.committed.errorMessage = some message)
      (hown : w.row.view (.worker i) = w.row.committed) : Pausing w i message 1
  | close (hpc : (w.workers i).pc = .close .returned) (h : PausedWith w i message)
      (hown : w.row.view (.worker i) = w.row.committed) : Pausing w i message 0

/-- The handler has raised, or cannot but raise: RUNNING stays committed, or the lock
stays taken. -/
inductive Lost (w : World) (i : Nat) : Prop
  | rejected {message : String} (hpc : (w.workers i).pc = .flushPaused (.error message))
      (hrejects : (w.workers i).rejects) (hrunning : w.row.committed.status = .running)
  | running (hpc : (w.workers i).pc = .release .raised ∨ (w.workers i).pc = .close .raised ∨
      (w.workers i).pc = .idle) (hrunning : w.row.committed.status = .running)
  | locked (hpc : (w.workers i).pc = .close .raised ∨ (w.workers i).pc = .idle)
      (hlock : w.lock = some (.worker i))

theorem Lost.not_pausedWith {w : World} {i : Nat} {message : String} (h : Lost w i) :
    ¬ PausedWith w i message := by
  intro hp
  cases h with
  | rejected _ _ hrunning | running _ hrunning =>
    rw [hp.status] at hrunning
    cases hrunning
  | locked _ hlock => exact hp.lock hlock

theorem lost_step {cfg : Config} {w w' : World} {i : Nat} {a : Action} (hI : Lost w i)
    (ha : a.isOf i) (h : step cfg w a = some w') : Lost w' i := by
  rcases ha with rfl | ⟨message, rfl⟩
  · cases hI with
    | rejected hpc hrejects hrunning =>
      simp only [step, runWorker, hpc, hrejects] at h
      split at h <;> cases h <;> exact .running (.inl (by simp)) hrunning
    | running hpc hrunning =>
      rcases hpc with hpc | hpc | hpc <;> simp only [step, runWorker, hpc] at h <;> cases h
      · exact .running (.inr (.inl (by simp))) hrunning
      · exact .running (.inr (.inr (by simp))) (by simpa using hrunning)
    | locked hpc hlock =>
      rcases hpc with hpc | hpc <;> simp only [step, runWorker, hpc] at h <;> cases h
      exact .locked (.inr (by simp)) (by simpa using hlock)
  · cases hI with
    | rejected hpc hrejects hrunning =>
      simp only [step, failWorker, hpc, Pc.usesDatabase, if_pos] at h
      cases h
      exact .running (.inl (by simp [Pc.onFail])) (by simpa using hrunning)
    | running hpc hrunning =>
      rcases hpc with hpc | hpc | hpc <;>
        simp only [step, failWorker, hpc, Pc.usesDatabase] at h <;> cases h
      · exact .running (.inr (.inl (by simp [Pc.onFail]))) hrunning
      · exact .running (.inr (.inr (by simp))) (by simpa using hrunning)
    | locked hpc hlock =>
      rcases hpc with hpc | hpc <;> simp only [step, failWorker, hpc] at h <;> cases h
      exact .locked (.inr (by simp)) (by simpa using hlock)

/-- An operation of the handler that succeeds. -/
theorem pausing_run {cfg : Config} {w w' : World} {i n : Nat} {message : String}
    (hI : Pausing w i message (n + 1)) (h : step cfg w (.run i) = some w') :
    Pausing w' i message n := by
  cases hI with
  | flush hpc hlock hrunning haccepts hfsm hloaded =>
    have htransition : (w.workers i).fsm.transition .error = .ok ⟨.paused⟩ := by
      rw [hfsm]
      rfl
    simp only [step, runWorker, hpc, Stop.trigger, htransition, haccepts, Bool.false_eq_true,
      if_false] at h
    split at h <;> cases h
    rename_i row hrow
    obtain ⟨hc, hview⟩ := flushRow_view (by simpa using hloaded) hrow
    refine .publishGlobal (by simp) ⟨hlock, ?_, ?_, ?_⟩ <;> simp [hc, hrunning, hview]
    rfl
  | publishGlobal hpc hf =>
    simp only [step, runWorker, hpc] at h
    cases h
    exact .publishSse (by simp) ⟨hf.lock, hf.running, hf.status, hf.errorMessage⟩
  | publishSse hpc hf =>
    simp only [step, runWorker, hpc] at h
    cases h
    exact .commit (by simp) ⟨hf.lock, hf.running, hf.status, hf.errorMessage⟩
  | commit hpc hf =>
    simp only [step, runWorker, hpc] at h
    cases h
    refine .release (by simp) hf.lock ?_ ?_ ?_ <;>
      simp [Versioned.commit_committed, hf.status, hf.errorMessage]
  | release hpc hlock hstatus herror hown =>
    simp only [step, runWorker, hpc] at h
    cases h
    exact .close (by simp) ⟨hstatus, herror, by simp [hlock]⟩ hown

/-- An operation of the handler that raises. -/
theorem pausing_fail {cfg : Config} {w w' : World} {i n : Nat} {message message' : String}
    (hI : Pausing w i message (n + 1)) (h : step cfg w (.fail i message') = some w') :
    Lost w' i := by
  cases hI with
  | flush hpc hlock hrunning =>
    simp only [step, failWorker, hpc, Pc.usesDatabase, if_pos] at h
    cases h
    exact .running (.inl (by simp [Pc.onFail])) (by simpa using hrunning)
  | publishGlobal hpc hf | publishSse hpc hf | commit hpc hf =>
    simp only [step, failWorker, hpc, Pc.usesDatabase] at h
    cases h
    exact .running (.inl (by simp [Pc.onFail])) (by simpa using hf.running)
  | release hpc hlock =>
    simp only [step, failWorker, hpc, Pc.usesDatabase] at h
    cases h
    exact .locked (.inl (by simp [Pc.onFail])) hlock

/-- The exception enters the handler, with a session that accepts work exactly when no
database operation raised. -/
theorem fail_in_loop {cfg : Config} {w w' : World} {i : Nat} {message : String}
    (hI : Alone w i) (hloop : (w.workers i).pc.inLoop)
    (h : step cfg w (.fail i message) = some w') :
    if (w.workers i).pc.usesDatabase then Lost w' i else Pausing w' i message 5 := by
  have hmoved := step_moved h
  have hpc : (w.workers i).pc.onFail message = .flushPaused (.error message) := by
    cases hpc : (w.workers i).pc <;> simp_all [Pc.inLoop, Pc.onFail]
  have hin : (w.workers i).pc.inLock ∧ (w.workers i).pc.hasRead ∧ (w.workers i).pc.isRunning := by
    cases hpc : (w.workers i).pc <;>
      simp_all [Pc.inLoop, Pc.inLock, Pc.hasRead, Pc.isRunning]
  cases hmoved with
  | failClose hclose =>
    rw [hclose] at hloop
    cases hloop
  | failDatabase hdb =>
    rw [if_pos hdb]
    have hrunning := hI.committed hloop
    exact .rejected (show _ = Pc.flushPaused (.error message) by simp [hpc]) (by simp)
      (by simpa using hrunning)
  | fail hidle hclose hdb =>
    rw [hdb]
    refine .flush (by simp [hpc]) (hI.lock hin.1) (hI.committed hloop) ?_ ?_ ?_
    · simpa using hI.accepts
    · simpa using hI.fsm hin.2.2
    · simpa using hI.loaded hin.2.1
  | bystander hnone _ => cases hnone

/-! ## To the end of the task -/

theorem idle_step {cfg : Config} {w : World} {i : Nat} {a : Action}
    (hidle : (w.workers i).pc = .idle) (ha : a.isOf i) : step cfg w a = none := by
  rcases ha with rfl | ⟨message, rfl⟩ <;> simp [step, runWorker, failWorker, hidle]

theorem lost_run {cfg : Config} {w w' : World} {i : Nat} {as : List Action} (hI : Lost w i)
    (has : ∀ a ∈ as, a.isOf i) (h : run (step cfg) w as = some w') : Lost w' i :=
  invariant_run (I := fun u => Lost u i) (G := fun _ a => a.isOf i)
    (fun _ _ _ hu ha hstep => lost_step hu ha hstep) hI (along_of_mem has w) h

/-- Leaving the session changes nothing any more. -/
theorem close_run {cfg : Config} {w w' : World} {i : Nat} {message : String} {as : List Action}
    (hI : Pausing w i message 0) (has : ∀ a ∈ as, a.isOf i)
    (h : run (step cfg) w as = some w') : PausedWith w' i message := by
  cases hI with
  | close hpc hp hown =>
    cases as with
    | nil =>
      obtain rfl : w = w' := by simpa using h
      exact hp
    | cons a as =>
      rw [List.forall_mem_cons] at has
      obtain ⟨u, hu, hrun⟩ := run_cons_eq_some h
      have hend : PausedWith u i message ∧ (u.workers i).pc = .idle := by
        rcases has.1 with rfl | ⟨message', rfl⟩
        · simp only [step, runWorker, hpc] at hu
          cases hu
          refine ⟨⟨?_, ?_, hp.lock⟩, by simp⟩ <;>
            simp [Versioned.commit_committed, hown, hp.status, hp.errorMessage]
        · simp only [step, failWorker, hpc] at hu
          cases hu
          refine ⟨⟨?_, ?_, hp.lock⟩, by simp⟩ <;> simp [hp.status, hp.errorMessage]
      cases as with
      | nil =>
        obtain rfl : u = w' := by simpa using hrun
        exact hend.1
      | cons b bs =>
        obtain ⟨v, hv, -⟩ := run_cons_eq_some hrun
        rw [idle_step hend.2 (has.2 b (by simp))] at hv
        cases hv

/-- The handler ends with the pause in place when each of its operations up to the
release of the lock succeeds. -/
theorem pausing_run_iff {cfg : Config} {w w' : World} {i n : Nat} {message : String}
    {handler : List Action} (hI : Pausing w i message n) (hhandler : ∀ a ∈ handler, a.isOf i)
    (h : run (step cfg) w handler = some w') (hdone : (w'.workers i).pc = .idle) :
    PausedWith w' i message ↔ ∀ a ∈ handler.take n, a = .run i := by
  induction n generalizing w handler with
  | zero => simpa using close_run hI hhandler h
  | succ n ih =>
    cases handler with
    | nil =>
      obtain rfl : w = w' := by simpa using h
      cases hI <;> simp_all
    | cons a as =>
      rw [List.forall_mem_cons] at hhandler
      obtain ⟨u, hu, hrun⟩ := run_cons_eq_some h
      rw [List.take_succ_cons, List.forall_mem_cons]
      rcases hhandler.1 with rfl | ⟨message', rfl⟩
      · simpa using ih (pausing_run hI hu) hhandler.2 hrun
      · have hlost := lost_run (pausing_fail hI hu) hhandler.2 hrun
        simpa using hlost.not_pausedWith

/-- Worker `i` runs alone and one of the operations of the step loop raises.  The task
ends with the execution paused, the message committed and the lock released exactly
when the operation was none of the database and the handler's flush, its two
publishes, its commit and the release of the lock all succeed. -/
theorem paused_iff_handler_succeeds (cfg : Config) (w₀ w w₁ w₂ : World) (i k : Nat)
    (message : String) (handler : List Action) (hfree : w₀.row.uncommitted = none)
    (hrun : run (step cfg) w₀ (.take i :: List.replicate k (.run i)) = some w)
    (hloop : (w.workers i).pc.inLoop) (hfail : step cfg w (.fail i message) = some w₁)
    (hhandler : ∀ a ∈ handler, a.isOf i) (hend : run (step cfg) w₁ handler = some w₂)
    (hdone : (w₂.workers i).pc = .idle) :
    PausedWith w₂ i message ↔
      (w.workers i).pc.usesDatabase = false ∧ ∀ a ∈ handler.take 5, a = .run i := by
  obtain ⟨u, htake, hreplicate⟩ := run_cons_eq_some hrun
  have hstage := fail_in_loop (alone_run (alone_take hfree htake) k hreplicate) hloop hfail
  cases hdb : (w.workers i).pc.usesDatabase with
  | true =>
    rw [hdb] at hstage
    simpa using (lost_run hstage hhandler hend).not_pausedWith
  | false =>
    rw [hdb] at hstage
    simpa using pausing_run_iff hstage hhandler hend hdone

/-! ## One refresh that raises, and one publish -/

/-- A fresh execution with its task in the queue. -/
def enqueued : World where
  row := .settled {}
  tasks := 1

/-- The first refresh raises and nothing else does: the handler's flush is rejected. -/
theorem refresh_error_keeps_running :
    ∃ w w₁ w₂, run (step oneStep) enqueued (.take 0 :: List.replicate 7 (.run 0)) = some w ∧
      (w.workers 0).pc = .refresh 0 ∧ step oneStep w (.fail 0 "connection lost") = some w₁ ∧
      run (step oneStep) w₁ (List.replicate 3 (.run 0)) = some w₂ ∧ (w₂.workers 0).pc = .idle ∧
      w₂.row.committed.status = .running ∧ ¬ PausedWith w₂ 0 "connection lost" := by
  have hend : (run (step oneStep) enqueued (.take 0 :: List.replicate 7 (.run 0))).any fun w =>
      (w.workers 0).pc = .refresh 0 ∧ (step oneStep w (.fail 0 "connection lost")).any fun w₁ =>
        (run (step oneStep) w₁ (List.replicate 3 (.run 0))).any fun w₂ =>
          (w₂.workers 0).pc = .idle ∧ w₂.row.committed.status = .running := by
    decide +kernel
  obtain ⟨w, hrun, hpc, hw⟩ := exists_of_any hend
  obtain ⟨w₁, hfail, hw₁⟩ := (Option.any_eq_true _ _).mp hw
  obtain ⟨w₂, hhandler, hidle, hrunning⟩ := exists_of_any hw₁
  refine ⟨w, w₁, w₂, hrun, hpc, hfail, hhandler, hidle, hrunning, fun hp => ?_⟩
  rw [hp.status] at hrunning
  cases hrunning

/-- The stream refuses the step event once. -/
theorem paused_iff_handler_succeeds_once :
    ∃ w w₁ w₂, run (step oneStep) enqueued (.take 0 :: List.replicate 9 (.run 0)) = some w ∧
      (w.workers 0).pc = .publishStep 0 .global ∧
      step oneStep w (.fail 0 "stream unavailable") = some w₁ ∧
      run (step oneStep) w₁ (List.replicate 6 (.run 0)) = some w₂ ∧ (w₂.workers 0).pc = .idle ∧
      PausedWith w₂ 0 "stream unavailable" := by
  have hend : (run (step oneStep) enqueued (.take 0 :: List.replicate 9 (.run 0))).any fun w =>
      (w.workers 0).pc = .publishStep 0 .global ∧
        (step oneStep w (.fail 0 "stream unavailable")).any fun w₁ =>
          (run (step oneStep) w₁ (List.replicate 6 (.run 0))).any fun w₂ =>
            (w₂.workers 0).pc = .idle := by
    decide +kernel
  obtain ⟨w, hrun, hpc, hw⟩ := exists_of_any hend
  obtain ⟨w₁, hfail, hw₁⟩ := (Option.any_eq_true _ _).mp hw
  obtain ⟨w₂, hhandler, hidle⟩ := exists_of_any hw₁
  have hiff := paused_iff_handler_succeeds oneStep enqueued w w₁ w₂ 0 9 "stream unavailable"
    (List.replicate 6 (.run 0)) rfl hrun (by rw [hpc]; rfl) hfail
    (fun a ha => .inl (List.eq_of_mem_replicate ha)) hhandler hidle
  refine ⟨w, w₁, w₂, hrun, hpc, hfail, hhandler, hidle, hiff.mpr ⟨by rw [hpc]; rfl, ?_⟩⟩
  exact fun a ha => List.eq_of_mem_replicate (List.mem_of_mem_take ha)

end Sutram.Workflow
