/-
Why an execution is paused.

`status`, `pause_reason` and `error_message` are three columns, and each code path that
changes the status decides for itself which of the other two to set, to clear or to leave.
Runs and requests come one at a time here, so that what is at stake is what the paths
write, not how they interleave.
-/
import Sutram.Library.Ghost
import Sutram.Workflow.Failures
import Sutram.Workflow.Sessions

namespace Sutram.Workflow

open Sutram.Core Runs

/-! ## One at a time -/

/-- The service, with the party whose session is open. -/
structure Serial where
  world : World
  turn : Option Writer := none

/-- A worker between its delivery and the end of its task, a request between its SELECT and
its commit. -/
def busy (w : World) : Writer → Bool
  | .worker i => (w.workers i).pc ≠ .idle
  | .request r =>
    match (w.requests r).phase with
    | .flush _ | .commit _ => true
    | .idle | .enqueue => false

/-- A party begins when no other is at work, and keeps the turn until it is done. -/
def serially (cfg : Config) (s : Serial) (a : Action) : Option Serial :=
  match writer a with
  | none => (step cfg s.world a).map fun w => { s with world := w }
  | some wr =>
    if s.turn = none ∨ s.turn = some wr then
      (step cfg s.world a).map fun w => ⟨w, if busy w wr then some wr else none⟩
    else none

/-! ## What is announced -/

/-- The reason in the paused event of the run in progress, and the one announced for the
pause that is committed. -/
structure LastReasons where
  published : Option String := none
  pause : Option String := none
deriving DecidableEq, Repr

/-- An operation of the worker at this point. -/
def LastReasons.observe (g : LastReasons) : Pc → LastReasons
  | .publishPaused why .global => { g with published := some why.pauseReason }
  | .commitPaused => { g with pause := g.published }
  | _ => g

def noteReasons (s : Serial) (a : Action) (_ : Serial) (g : LastReasons) : LastReasons :=
  match a with
  | .take _ => { g with published := none }
  | .run i => g.observe (s.world.workers i).pc
  | .commit _ => { g with pause := none }
  | _ => g

def announcedStep (cfg : Config) :
    Ghosted Serial LastReasons → Action → Option (Ghosted Serial LastReasons) :=
  ghostStep (serially cfg) noteReasons

/-- A paused execution says why, and says what was announced; a running or completed one
has no reason and no error. -/
structure Reasons (row : ExecutionRow) (announced : Option String) : Prop where
  paused : row.status = .paused →
    row.pauseReason.isSome ∧ (announced = none ∨ announced = row.pauseReason)
  cleared : row.status = .running ∨ row.status = .completed →
    row.pauseReason = none ∧ row.errorMessage = none

instance (row : ExecutionRow) (announced : Option String) : Decidable (Reasons row announced) :=
  decidable_of_iff
    ((row.status = .paused →
        row.pauseReason.isSome ∧ (announced = none ∨ announced = row.pauseReason)) ∧
      (row.status = .running ∨ row.status = .completed →
        row.pauseReason = none ∧ row.errorMessage = none))
    ⟨fun h => ⟨h.1, h.2⟩, fun h => ⟨h.1, h.2⟩⟩

/-- The next operation is the commit of a pause announced with the reason "error". -/
def CommitsError (s : Ghosted Serial LastReasons) : Action → Prop
  | .run i => (s.state.world.workers i).pc = .commitPaused ∧ s.ghost.published = some "error"
  | _ => False

instance (s : Ghosted Serial LastReasons) : ∀ a, Decidable (CommitsError s a)
  | .run _ => inferInstanceAs (Decidable (_ ∧ _))
  | .take _ | .fail _ _ | .crash _ | .request _ _ | .flush _ | .commit _ | .enqueue _
  | .enqueueFails _ | .abort _ | .scan _ | .pod _ | .podCrash _ | .redeliver | .expire
  | .tick => isFalse id

/-! ## The three columns -/

abbrev Columns : Type := ExecutionStatus × Option String × Option String

def ExecutionRow.columns (row : ExecutionRow) : Columns :=
  (row.status, row.pauseReason, row.errorMessage)

/-- What every committed row satisfies as long as no error has been committed. -/
structure Clean (row : ExecutionRow) : Prop where
  errorMessage : row.errorMessage = none
  paused : row.status = .paused → row.pauseReason.isSome
  unpaused : row.status ≠ .paused → row.status ≠ .cancelled → row.pauseReason = none

/-- The columns a handler of the step loop writes on a running execution. -/
def Stop.columns : Stop → Columns
  | costExceeded => (.paused, some "cost_limit_exceeded", none)
  | error message => (.paused, none, some message)

def runningColumns : Columns := (.running, none, none)

def completedColumns : Columns := (.completed, none, none)

theorem clean_of_columns {row row' : ExecutionRow} (h : row.columns = row'.columns)
    (hclean : Clean row') : Clean row := by
  simp only [ExecutionRow.columns, Prod.mk.injEq] at h
  obtain ⟨hs, hp, he⟩ := h
  exact ⟨by rw [he, hclean.errorMessage], by rw [hs, hp]; exact hclean.paused,
    by rw [hs, hp]; exact hclean.unpaused⟩

theorem clean_running {row : ExecutionRow} (h : row.columns = runningColumns) : Clean row := by
  simp only [ExecutionRow.columns, runningColumns, Prod.mk.injEq] at h
  obtain ⟨hs, hp, he⟩ := h
  exact ⟨he, by simp [hs], fun _ _ => hp⟩

theorem clean_completed {row : ExecutionRow} (h : row.columns = completedColumns) : Clean row := by
  simp only [ExecutionRow.columns, completedColumns, Prod.mk.injEq] at h
  obtain ⟨hs, hp, he⟩ := h
  exact ⟨he, by simp [hs], fun _ _ => hp⟩

/-- On columns that are still the ones the object was loaded with, an UPDATE gives the
object's. -/
theorem patch_columns {o : Orm} {row : ExecutionRow} (h : o.loaded.columns = row.columns) :
    (o.patch row).columns = o.current.columns := by
  simp only [ExecutionRow.columns, Prod.mk.injEq] at h
  simp [ExecutionRow.columns, Orm.patch, h.1, h.2.1, h.2.2]

/-- After a flush the session's version has the object's columns. -/
theorem flushRow_columns {row row' : Versioned Writer ExecutionRow} {wr : Writer} {o : Orm}
    (hloaded : o.loaded.columns = (row.view wr).columns) (h : flushRow row wr o = some row')
    {v : ExecutionRow} (hv : row'.uncommitted = some (wr, v)) :
    v.columns = o.current.columns := by
  unfold flushRow at h
  split at h
  · rename_i hsame
    cases h
    rw [Versioned.view_own hv] at hloaded
    rw [← hloaded, hsame]
  · obtain ⟨-, hu, -⟩ := Versioned.update_eq_some h
    rw [hu] at hv
    cases hv
    exact patch_columns hloaded

/-! ## Where a party stands -/

section

variable (row : Versioned Writer ExecutionRow) (i : Nat) (k : Worker)

def Unwritten (wr : Writer) : Prop := ∀ v, row.uncommitted ≠ some (wr, v)

def Wrote (columns : Columns) : Prop :=
  ∃ v, row.uncommitted = some (.worker i, v) ∧ v.columns = columns

/-- The session's object is the committed row. -/
structure Fresh : Prop where
  loaded : k.execution.loaded = row.committed
  current : k.execution.current = row.committed
  unwritten : Unwritten row (.worker i)

/-- The object of a worker that has flushed RUNNING. -/
structure Holds : Prop where
  loaded : k.execution.loaded.columns = runningColumns
  current : k.execution.current.columns = runningColumns

structure InRun : Prop extends Holds k where
  committed : row.committed.columns = runningColumns
  own : ∀ v, row.uncommitted = some (.worker i, v) → v.columns = runningColumns

/-- What worker `i` holds, by its program counter. -/
def WorkerAt (published : Option String) : Prop :=
  match k.pc with
  | .idle | .read | .release .returned | .close .returned => Unwritten row (.worker i)
  | .acquire | .setup => Fresh row i k
  | .flushRunning _ => Fresh row i k ∧ row.committed.status = .pending
  | .publishStarted _ _ | .commitRunning _ => Holds k ∧ Wrote row i runningColumns
  | .refresh _ | .writeCheckpoint _ | .commitCheckpoint _ | .execute _ | .publishStep _ _
  | .flushStep _ | .flushCompleted | .flushPaused _ => InRun row i k
  | .publishCompleted _ | .commitCompleted => Wrote row i completedColumns
  | .publishPaused why .global => Wrote row i why.columns
  | .publishPaused why .sse => Wrote row i why.columns ∧ published = some why.pauseReason
  | .commitPaused => ∃ why : Stop, Wrote row i why.columns ∧ published = some why.pauseReason
  | .release .raised | .close .raised => True

/-- What request `r` holds. -/
def RequesterAt (r : Nat) (q : Request) : Prop :=
  match q.phase with
  | .flush kind =>
    q.execution = .ofRow row.committed ∧ q.fsm.status = kind.target ∧ Unwritten row (.request r)
  | .commit _ => ∀ v, row.uncommitted = some (.request r, v) → Clean v
  | .idle | .enqueue => Unwritten row (.request r)

end

def PartyAt (w : World) (published : Option String) : Writer → Prop
  | .worker i => WorkerAt w.row i (w.workers i) published
  | .request r => RequesterAt w.row r (w.requests r)

structure ReasonsKept (s : Ghosted Serial LastReasons) : Prop where
  turn : ∀ wr, busy s.state.world wr → s.state.turn = some wr
  party : ∀ wr, PartyAt s.state.world s.ghost.published wr
  clean : Clean s.state.world.row.committed
  pause : s.state.world.row.committed.status = .paused →
    s.ghost.pause = none ∨ s.ghost.pause = s.state.world.row.committed.pauseReason

theorem ReasonsKept.reasons {s : Ghosted Serial LastReasons} (hI : ReasonsKept s) :
    Reasons s.state.world.row.committed s.ghost.pause := by
  refine ⟨fun hs => ⟨hI.clean.paused hs, hI.pause hs⟩, fun hs => ⟨?_, hI.clean.errorMessage⟩⟩
  refine hI.clean.unpaused ?_ ?_ <;> rcases hs with hs | hs <;> simp [hs]

section

variable {row row' : Versioned Writer ExecutionRow} {i : Nat} {k k' : Worker}

theorem InRun.view (h : InRun row i k) : (row.view (.worker i)).columns = runningColumns := by
  by_cases hown : ∃ v, row.uncommitted = some (.worker i, v)
  · obtain ⟨v, hv⟩ := hown
    rw [Versioned.view_own hv]
    exact h.own v hv
  · rw [Versioned.view_eq_committed fun v hv => hown ⟨v, hv⟩]
    exact h.committed

/-- The commit of a worker in its run. -/
theorem InRun.commit (h : InRun row i k) :
    (row.commit (.worker i)).committed.columns = runningColumns := by
  rw [Versioned.commit_committed]
  exact h.view

theorem Wrote.commit {columns : Columns} (h : Wrote row i columns) :
    (row.commit (.worker i)).committed.columns = columns := by
  obtain ⟨v, hv, hcolumns⟩ := h
  rw [Versioned.commit_own hv]
  exact hcolumns

theorem InRun.stay (h : InRun row i k) (hexecution : k'.execution = k.execution) :
    InRun row i k' := by
  refine ⟨⟨?_, ?_⟩, h.committed, h.own⟩
  · rw [hexecution, h.loaded]
  · rw [hexecution, h.current]

/-- After a commit or a rollback nothing of the worker is uncommitted. -/
theorem InRun.settled (h : InRun row i k) (hexecution : k'.execution = k.execution)
    (hrow : row' = row.commit (.worker i) ∨ row' = row.rollback (.worker i)) :
    InRun row' i k' := by
  refine ⟨⟨?_, ?_⟩, ?_, ?_⟩
  · rw [hexecution, h.loaded]
  · rw [hexecution, h.current]
  · rcases hrow with hrow | hrow
    · rw [hrow, h.commit]
    · rw [hrow, Versioned.rollback_committed, h.committed]
  · intro v hv
    rcases hrow with hrow | hrow
    · rw [hrow] at hv
      exact absurd hv (Versioned.commit_uncommitted _ _ v)
    · rw [hrow] at hv
      exact absurd hv (Versioned.rollback_uncommitted _ _ v)

/-- A flush on a running execution that changes the status. -/
theorem InRun.flush {o : Orm} (h : InRun row i k) (hloaded : o.loaded = k.execution.loaded)
    (hdirty : o.current.status ≠ .running) (hrow : flushRow row (.worker i) o = some row') :
    Wrote row' i o.current.columns := by
  have hrunning : o.loaded.status = .running := by
    rw [hloaded]
    exact congrArg Prod.fst h.loaded
  obtain ⟨-, v, hv, -⟩ := flushRow_dirty (by rwa [hrunning]) hrow
  exact ⟨v, hv, flushRow_columns (by rw [hloaded, h.loaded, h.view]) hrow hv⟩

end

theorem updateStatus_columns {s : ExecutionStatus} {now : Nat} {o : Orm}
    {e p : Option (Option String)} :
    (updateStatus s now o e p).current.columns =
      (s, setUnlessUnset p o.current.pauseReason, setUnlessUnset e o.current.errorMessage) := rfl

theorem stop_updateStatus_columns {why : Stop} {now : Nat} {o : Orm}
    (h : o.current.columns = runningColumns) :
    (why.updateStatus now o).current.columns = why.columns := by
  simp only [ExecutionRow.columns, runningColumns, Prod.mk.injEq] at h
  obtain ⟨-, hp, he⟩ := h
  cases why with
  | costExceeded => simp [Stop.updateStatus, updateStatus_columns, Stop.columns, setUnlessUnset, he]
  | error => simp [Stop.updateStatus, updateStatus_columns, Stop.columns, setUnlessUnset, hp]

/-! ## The worker's operations -/

/-- Between the commit of RUNNING and the flush of the next status. -/
def Pc.inRun : Pc → Bool
  | .flushCompleted | .flushPaused _ => true
  | pc => pc.inLoop

theorem inRun_next (cfg : Config) (n : Nat) : (cfg.next n).inRun := by
  rcases next_cases cfg n with hn | hn <;> rw [hn] <;> rfl

theorem workerAt_inRun {row : Versioned Writer ExecutionRow} {i : Nat} {k : Worker}
    {published : Option String} (hpc : k.pc.inRun) :
    WorkerAt row i k published ↔ InRun row i k := by
  unfold WorkerAt
  cases h : k.pc <;> first | rfl | (rw [h] at hpc; cases hpc)

theorem WorkerAt.inRun {row : Versioned Writer ExecutionRow} {i : Nat} {k : Worker}
    {published : Option String} {pc : Pc} (h : WorkerAt row i k published) (hpc : k.pc = pc)
    (hin : pc.inRun) : InRun row i k :=
  (workerAt_inRun (by rw [hpc, hin])).mp h

theorem workerAt_ran {cfg : Config} {w w' : World} {i : Nat} {g : LastReasons}
    (hI : WorkerAt w.row i (w.workers i) g.published) (hclean : Clean w.row.committed)
    (h : Ran cfg w i w') :
    WorkerAt w'.row i (w'.workers i) (g.observe (w.workers i).pc).published := by
  cases h with
  | readTerminal hpc =>
    simp only [WorkerAt, hpc] at hI
    simpa [WorkerAt] using hI
  | refused hpc =>
    simp only [WorkerAt, hpc] at hI
    simpa [WorkerAt] using hI.unwritten
  | read hpc =>
    simp only [WorkerAt, hpc] at hI
    simp only [WorkerAt, World.set, Function.update_self]
    exact ⟨rfl, rfl, hI⟩
  | acquired hpc =>
    simp only [WorkerAt, hpc] at hI
    simp only [WorkerAt, World.set, Worker.goto, Function.update_self]
    exact ⟨hI.loaded, hI.current, hI.unwritten⟩
  | setup hpc hs =>
    simp only [WorkerAt, hpc] at hI
    simp only [WorkerAt, World.set, Function.update_self]
    refine ⟨⟨hI.loaded, hI.current, hI.unwritten⟩, ?_⟩
    rw [← hs, hI.current]
  | @flushRunning start hpc row hrow =>
    simp only [WorkerAt, hpc] at hI
    obtain ⟨⟨hloaded, hcurrent, hunwritten⟩, hpending⟩ := hI
    have hcolumns : (updateStatus .running w.clock (w.workers i).execution).current.columns =
        runningColumns := by
      rw [updateStatus_columns, hcurrent]
      simp [setUnlessUnset, runningColumns, hclean.errorMessage,
        hclean.unpaused (by simp [hpending]) (by simp [hpending])]
    obtain ⟨-, v, hv, -⟩ := flushRow_dirty (by simp [hloaded, hpending]) hrow
    simp only [WorkerAt, World.set, Function.update_self]
    refine ⟨⟨hcolumns, hcolumns⟩, v, hv, ?_⟩
    rw [flushRow_columns ?_ hrow hv, hcolumns]
    rw [updateStatus_loaded, hloaded, Versioned.view_eq_committed hunwritten]
  | publishStarted hpc hnext =>
    simp only [WorkerAt, hpc] at hI
    rcases hnext with rfl | rfl <;>
      simp only [WorkerAt, World.set, World.record, Worker.goto, Function.update_self] <;>
      exact ⟨⟨hI.1.loaded, hI.1.current⟩, hI.2⟩
  | commitRunning hpc =>
    simp only [WorkerAt, hpc] at hI
    refine (workerAt_inRun (by simpa using inRun_next _ _)).mpr ⟨⟨?_, ?_⟩, hI.2.commit, ?_⟩
    · simpa using hI.1.loaded
    · simpa using hI.1.current
    · exact fun v hv => absurd hv (Versioned.commit_uncommitted _ _ v)
  | refreshStops hpc hs =>
    have hview := (hI.inRun hpc rfl).view
    have hrunning : (w.row.view (.worker i)).status = .running := congrArg Prod.fst hview
    simp [hrunning] at hs
  | refresh hpc =>
    have hrun := hI.inRun hpc rfl
    refine (workerAt_inRun (by simp; split <;> rfl)).mpr ⟨⟨?_, ?_⟩, hrun.committed, hrun.own⟩
    · simpa using hrun.view
    · simpa using hrun.view
  | writeCheckpoint hpc | costExceeded hpc =>
    have hrun := hI.inRun hpc rfl
    exact (workerAt_inRun (by simp [Pc.inRun, Pc.inLoop])).mpr (hrun.stay (by simp))
  | publishStep hpc hnext =>
    have hrun := hI.inRun hpc rfl
    refine (workerAt_inRun ?_).mpr (hrun.stay (by simp))
    rcases hnext with rfl | rfl <;> simp [Pc.inRun, Pc.inLoop]
  | execute hpc =>
    have hrun := hI.inRun hpc rfl
    refine (workerAt_inRun (by simp [Pc.inRun, Pc.inLoop])).mpr
      ⟨⟨?_, ?_⟩, hrun.committed, hrun.own⟩
    · simpa using hrun.loaded
    · simpa [ExecutionRow.columns] using hrun.current
  | commitCheckpoint hpc =>
    have hrun := hI.inRun hpc rfl
    exact (workerAt_inRun (by simp [Pc.inRun, Pc.inLoop])).mpr
      (hrun.settled (by simp) (.inl rfl))
  | flushStep hpc hrow =>
    have hrun := hI.inRun hpc rfl
    refine (workerAt_inRun (by simpa using inRun_next _ _)).mpr ⟨⟨?_, ?_⟩, ?_, ?_⟩
    · simpa using hrun.current
    · simpa using hrun.current
    · rw [World.set, (flushRow_eq_some hrow).1, hrun.committed]
    · intro v hv
      rw [flushRow_columns (by rw [hrun.loaded, hrun.view]) hrow hv, hrun.current]
  | flushCompleted hpc hrow =>
    have hrun := hI.inRun hpc rfl
    have hcurrent := hrun.current
    simp only [ExecutionRow.columns, runningColumns, Prod.mk.injEq] at hcurrent
    obtain ⟨v, hv, hcolumns⟩ := hrun.flush (by simp) (by simp) hrow
    simp only [WorkerAt, World.set, Function.update_self]
    refine ⟨v, hv, ?_⟩
    rw [hcolumns, updateStatus_columns]
    simp [setUnlessUnset, completedColumns, hcurrent]
  | flushPaused hpc hrow =>
    have hrun := hI.inRun hpc rfl
    obtain ⟨v, hv, hcolumns⟩ := hrun.flush (by simp) (by simp) hrow
    simp only [WorkerAt, World.set, Function.update_self]
    exact ⟨v, hv, by rw [hcolumns, stop_updateStatus_columns hrun.current]⟩
  | publishCompleted hpc hnext =>
    simp only [WorkerAt, hpc] at hI
    rcases hnext with rfl | rfl <;>
      simpa only [WorkerAt, World.set, World.record, Worker.goto, Function.update_self] using hI
  | @publishPaused why s _ hpc hnext =>
    have hwrote : Wrote w.row i why.columns ∧
        (g.observe (w.workers i).pc).published = some why.pauseReason := by
      rw [hpc]
      cases s with
      | global =>
        simp only [WorkerAt, hpc] at hI
        exact ⟨hI, rfl⟩
      | sse =>
        simp only [WorkerAt, hpc] at hI
        exact hI
    rcases hnext with rfl | rfl <;>
      simp only [WorkerAt, World.set, World.record, Worker.goto, Function.update_self]
    · exact hwrote
    · exact ⟨why, hwrote⟩
  | commitCompleted hpc | commitPaused hpc | closeReturned hpc =>
    simp only [WorkerAt, World.set, World.finish, Function.update_self]
    exact fun v => Versioned.commit_uncommitted _ _ v
  | closeRaised hpc =>
    simp only [WorkerAt, World.set, World.finish, Function.update_self]
    exact fun v => Versioned.rollback_uncommitted _ _ v
  | @release o hpc =>
    simp only [WorkerAt, hpc] at hI
    simp only [WorkerAt, World.set, Worker.goto, Function.update_self]
    cases o with
    | returned => exact hI
    | raised => trivial
  | setupRaises hpc | doneRaises hpc | pausedRaises hpc =>
    simp only [WorkerAt, World.set, Worker.goto, Function.update_self]

/-- What an operation other than the commit of a pause makes of the committed columns. -/
theorem ran_committed {cfg : Config} {w w' : World} {i : Nat} {published : Option String}
    (hI : WorkerAt w.row i (w.workers i) published) (h : Ran cfg w i w')
    (hpc : (w.workers i).pc ≠ .commitPaused) :
    w'.row.committed = w.row.committed ∨ w'.row.committed.columns = runningColumns ∨
      w'.row.committed.columns = completedColumns := by
  cases h with
  | commitRunning hfrom =>
    simp only [WorkerAt, hfrom] at hI
    exact .inr (.inl hI.2.commit)
  | commitCheckpoint hfrom =>
    exact .inr (.inl (hI.inRun hfrom rfl).commit)
  | commitCompleted hfrom =>
    simp only [WorkerAt, hfrom] at hI
    exact .inr (.inr hI.commit)
  | closeReturned hfrom =>
    simp only [WorkerAt, hfrom] at hI
    left
    show (w.row.commit (.worker i)).committed = w.row.committed
    rw [Versioned.commit_of_not_own hI]
  | commitPaused hfrom => exact absurd hfrom hpc
  | flushRunning hfrom hrow | flushStep hfrom hrow | flushCompleted hfrom hrow
  | flushPaused hfrom hrow => exact .inl (flushRow_eq_some hrow).1
  | closeRaised => exact .inl (Versioned.rollback_committed _ _)
  | _ => exact .inl rfl

theorem inRun_of_inLoop {pc : Pc} (h : pc.inLoop) : pc.inRun := by
  cases pc <;> first | rfl | cases h

/-- An exception is handled when it comes from the loop, and leaves the lock when not. -/
theorem onFail_cases (pc : Pc) (message : String) :
    pc.inLoop ∧ pc.onFail message = .flushPaused (.error message) ∨
      pc.onFail message = .release .raised ∨ pc.onFail message = .close .raised := by
  cases pc with
  | refresh | writeCheckpoint | commitCheckpoint | execute | publishStep | flushStep =>
    exact .inl ⟨rfl, rfl⟩
  | read | acquire | release => exact .inr (.inr rfl)
  | _ => exact .inr (.inl rfl)

/-- A worker that takes a task, raises or dies. -/
theorem workerAt_moved {cfg : Config} {w w' : World} {a : Action} {i : Nat}
    {published published' : Option String} (hI : WorkerAt w.row i (w.workers i) published)
    (h : Moved cfg w a w')
    (ha : actor a = some i) (hrun : a ≠ .run i) :
    WorkerAt w'.row i (w'.workers i) published' ∧ w'.row.committed = w.row.committed := by
  cases h with
  | run h =>
    obtain rfl : _ = i := by simpa [actor] using ha
    exact absurd rfl hrun
  | take hpc htasks =>
    obtain rfl : _ = i := by simpa [actor] using ha
    simp only [WorkerAt, hpc] at hI
    refine ⟨?_, rfl⟩
    simpa only [WorkerAt, World.set, Function.update_self] using hI
  | failClose | crash =>
    obtain rfl : _ = i := by simpa [actor] using ha
    refine ⟨?_, Versioned.rollback_committed _ _⟩
    simp only [WorkerAt, World.set, World.finish, Function.update_self]
    exact fun v => Versioned.rollback_uncommitted _ _ v
  | @failDatabase j message hdb =>
    obtain rfl : j = i := by simpa [actor] using ha
    refine ⟨?_, Versioned.rollback_committed _ _⟩
    rcases onFail_cases (w.workers j).pc message with ⟨hloop, hfail⟩ | hfail | hfail
    · have hrun := hI.inRun rfl (inRun_of_inLoop hloop)
      exact (workerAt_inRun (by simp [hfail, Pc.inRun])).mpr (hrun.settled (by simp) (.inr rfl))
    all_goals simp only [WorkerAt, World.set, hfail, Function.update_self]
  | @fail j message hidle hclose hdb =>
    obtain rfl : j = i := by simpa [actor] using ha
    refine ⟨?_, rfl⟩
    rcases onFail_cases (w.workers j).pc message with ⟨hloop, hfail⟩ | hfail | hfail
    · have hrun := hI.inRun rfl (inRun_of_inLoop hloop)
      exact (workerAt_inRun (by simp [hfail, Pc.inRun])).mpr (hrun.stay (by simp))
    all_goals simp only [WorkerAt, World.set, Worker.goto, hfail, Function.update_self]
  | bystander hnone _ =>
    rw [writer_of_actor ha] at hnone
    cases hnone
  | _ => cases ha

/-! ## Requests -/

/-- What a route makes of a clean row is clean. -/
theorem clean_assign {kind : RequestKind} {row : ExecutionRow} (h : Clean row) :
    Clean (kind.route.assign kind.target row) := by
  cases kind with
  | pause => exact ⟨h.errorMessage, fun _ => rfl, fun hne => absurd rfl hne⟩
  | resume => exact ⟨h.errorMessage, fun hs => (by cases hs), fun _ _ => rfl⟩
  | cancel => exact ⟨h.errorMessage, fun hs => (by cases hs), fun _ hne => absurd rfl hne⟩

theorem requesterAt_moved {cfg : Config} {w w' : World} {a : Action} {r : Nat}
    (hI : RequesterAt w.row r (w.requests r)) (hclean : Clean w.row.committed)
    (h : Moved cfg w a w')
    (ha : writer a = some (.request r)) :
    RequesterAt w'.row r (w'.requests r) ∧ Clean w'.row.committed ∧
      ((∀ r, a ≠ .commit r) → w'.row.committed = w.row.committed) := by
  cases h with
  | conflict => exact ⟨hI, hclean, fun _ => rfl⟩
  | @request _ kind fsm hphase hfsm =>
    obtain rfl : _ = r := by simpa [writer] using ha
    simp only [RequesterAt, hphase] at hI
    refine ⟨?_, hclean, fun _ => rfl⟩
    simp only [RequesterAt, World.setRequest, Function.update_self]
    exact ⟨trivial, (transition_target hfsm).1, hI⟩
  | @flush _ kind hphase row hrow =>
    obtain rfl : _ = r := by simpa [writer] using ha
    simp only [RequesterAt, hphase] at hI
    obtain ⟨hexecution, htarget, hunwritten⟩ := hI
    have hcommitted := (flushRow_eq_some hrow).1
    refine ⟨?_, ?_, fun _ => hcommitted⟩
    · simp only [RequesterAt, World.setRequest, Function.update_self]
      intro v hv
      rw [hexecution, htarget] at hrow
      have hcolumns := flushRow_columns (by
        rw [Orm.assign_loaded, Versioned.view_eq_committed hunwritten, Orm.ofRow_loaded]) hrow hv
      exact clean_of_columns hcolumns (clean_assign hclean)
    · show Clean row.committed
      rwa [hcommitted]
  | commitResume hphase | commit hphase =>
    obtain rfl : _ = r := by simpa [writer] using ha
    simp only [RequesterAt, hphase] at hI
    refine ⟨?_, ?_, fun hne => absurd rfl (hne _)⟩
    · simp only [RequesterAt, World.setRequest, World.answer, Function.update_self]
      exact fun v => Versioned.commit_uncommitted _ _ v
    · show Clean (w.row.commit _).committed
      rcases Versioned.commit_cases w.row (.request _) with ⟨v, hv, hc⟩ | ⟨-, hc⟩
      · rw [hc]
        exact hI v hv
      · rwa [hc]
  | enqueue hphase | enqueueFails hphase =>
    obtain rfl : _ = r := by simpa [writer] using ha
    simp only [RequesterAt, hphase] at hI
    refine ⟨?_, hclean, fun _ => rfl⟩
    simpa only [RequesterAt, World.setRequest, World.answer, Function.update_self] using hI
  | abort =>
    obtain rfl : _ = r := by simpa [writer] using ha
    refine ⟨?_, ?_, fun _ => Versioned.rollback_committed _ _⟩
    · simp only [RequesterAt, World.setRequest, World.answer, Function.update_self]
      exact fun v => Versioned.rollback_uncommitted _ _ v
    · show Clean (w.row.rollback _).committed
      rwa [Versioned.rollback_committed]
  | bystander hnone _ =>
    rw [ha] at hnone
    cases hnone
  | _ => cases ha

/-! ## The parties that wait -/

theorem partyAt_idle {w : World} {wr : Writer} {published : Option String}
    (h : busy w wr = false) : PartyAt w published wr ↔ Unwritten w.row wr := by
  cases wr with
  | worker i =>
    have hpc : (w.workers i).pc = .idle := by simpa [busy] using h
    simp only [PartyAt, WorkerAt, hpc]
  | request r =>
    unfold busy at h
    dsimp only at h
    split at h
    · cases h
    · cases h
    · rename_i hphase
      simp only [PartyAt, RequesterAt, hphase]
    · rename_i hphase
      simp only [PartyAt, RequesterAt, hphase]

theorem busy_other {cfg : Config} {w w' : World} {a : Action} {wr : Writer}
    (h : Moved cfg w a w') (hne : writer a ≠ some wr) : busy w' wr = busy w wr := by
  cases wr with
  | worker i =>
    simp only [busy, (moved_frame h fun ha => hne (writer_of_actor ha)).worker]
  | request r => simp only [busy, moved_requests_other h hne]

theorem unwritten_other {cfg : Config} {w w' : World} {a : Action} {wr : Writer}
    (h : Moved cfg w a w') (hne : writer a ≠ some wr) (hI : Unwritten w.row wr) :
    Unwritten w'.row wr := by
  obtain ⟨o, ho, hmoves⟩ := moved_moves_other h hne
  exact fun v hv => hI v ((hmoves.uncommitted_of_ne ho.symm).mp hv)

theorem bystander_of_writer {cfg : Config} {w w' : World} {a : Action} (h : Moved cfg w a w')
    (ha : writer a = none) : Bystander w w' := by
  cases h with
  | bystander _ h => exact h
  | _ => cases ha

theorem partyAt_bystander {w w' : World} {wr : Writer} {published : Option String}
    (h : Bystander w w') (hI : PartyAt w published wr) : PartyAt w' published wr := by
  cases wr with
  | worker i =>
    rw [PartyAt, h.row, h.workers]
    exact hI
  | request r =>
    rw [PartyAt, h.row, h.requests]
    exact hI

/-! ## Runs -/

/-- A step taken with the turn, and the system's step it is. -/
theorem serially_eq_some {cfg : Config} {s t : Serial} {a : Action}
    (h : serially cfg s a = some t) :
    step cfg s.world a = some t.world ∧
      (writer a = none ∧ t.turn = s.turn ∨ ∃ wr, writer a = some wr ∧
        (s.turn = none ∨ s.turn = some wr) ∧
        t.turn = if busy t.world wr then some wr else none) := by
  unfold serially at h
  split at h
  · rename_i hnone
    obtain ⟨w, hw, rfl⟩ := Option.map_eq_some_iff.mp h
    exact ⟨hw, .inl ⟨hnone, rfl⟩⟩
  · rename_i wr hwr
    split at h
    · rename_i hturn
      obtain ⟨w, hw, rfl⟩ := Option.map_eq_some_iff.mp h
      exact ⟨hw, .inr ⟨wr, hwr, hturn, rfl⟩⟩
    · cases h

theorem ran_commitPaused {cfg : Config} {w w' : World} {i : Nat} (h : Ran cfg w i w')
    (hpc : (w.workers i).pc = .commitPaused) :
    w'.row.committed = (w.row.commit (.worker i)).committed := by
  cases h with
  | commitPaused => rfl
  | _ hfrom =>
    rw [hpc] at hfrom
    cases hfrom

/-- What the next operation of a worker makes of the committed row. -/
theorem reasonsKept_ran {cfg : Config} {w w' : World} {i : Nat} {g : LastReasons}
    (hI : WorkerAt w.row i (w.workers i) g.published) (hclean : Clean w.row.committed)
    (hpause : w.row.committed.status = .paused →
      g.pause = none ∨ g.pause = w.row.committed.pauseReason)
    (hok : ¬ ((w.workers i).pc = .commitPaused ∧ g.published = some "error"))
    (h : Ran cfg w i w') :
    Clean w'.row.committed ∧ (w'.row.committed.status = .paused →
      (g.observe (w.workers i).pc).pause = none ∨
        (g.observe (w.workers i).pc).pause = w'.row.committed.pauseReason) := by
  by_cases hpc : (w.workers i).pc = .commitPaused
  · simp only [WorkerAt, hpc] at hI
    obtain ⟨why, hwrote, hpublished⟩ := hI
    have hcolumns := hwrote.commit
    rw [← ran_commitPaused h hpc] at hcolumns
    cases why with
    | error message => exact absurd ⟨hpc, hpublished⟩ hok
    | costExceeded =>
      simp only [ExecutionRow.columns, Stop.columns, Prod.mk.injEq] at hcolumns
      obtain ⟨hs, hp, he⟩ := hcolumns
      refine ⟨⟨he, fun _ => by rw [hp]; rfl, fun hne => absurd hs hne⟩, fun _ => .inr ?_⟩
      rw [hpc, hp]
      exact hpublished
  · have hsame : (g.observe (w.workers i).pc).pause = g.pause := by
      unfold LastReasons.observe
      split
      · rfl
      · exact absurd ‹_› hpc
      · rfl
    rw [hsame]
    rcases ran_committed hI h hpc with heq | hcolumns | hcolumns
    · rw [heq]
      exact ⟨hclean, hpause⟩
    · refine ⟨clean_running hcolumns, fun hs => ?_⟩
      have hrunning : w'.row.committed.status = .running := congrArg Prod.fst hcolumns
      rw [hrunning] at hs
      cases hs
    · refine ⟨clean_completed hcolumns, fun hs => ?_⟩
      have hcompleted : w'.row.committed.status = .completed := congrArg Prod.fst hcolumns
      rw [hcompleted] at hs
      cases hs

theorem noteReasons_pause {s t : Serial} {a : Action} {g : LastReasons} (hrun : ∀ i, a ≠ .run i)
    (hcommit : ∀ r, a ≠ .commit r) : (noteReasons s a t g).pause = g.pause := by
  cases a with
  | run i => exact absurd rfl (hrun i)
  | commit r => exact absurd rfl (hcommit r)
  | _ => rfl

theorem actor_of_writer {a : Action} {i : Nat} (h : writer a = some (.worker i)) :
    actor a = some i := by
  cases a <;> cases h <;> rfl

/-- The party that acts. -/
theorem ReasonsKept.acts {cfg : Config} {s t : Ghosted Serial LastReasons} {a : Action}
    {wr : Writer}
    (hI : ReasonsKept s) (h : Moved cfg s.state.world a t.state.world)
    (hghost : t.ghost = noteReasons s.state a t.state s.ghost) (hok : ¬ CommitsError s a)
    (ha : writer a = some wr) :
    PartyAt t.state.world t.ghost.published wr ∧ Clean t.state.world.row.committed ∧
      (t.state.world.row.committed.status = .paused →
        t.ghost.pause = none ∨ t.ghost.pause = t.state.world.row.committed.pauseReason) := by
  have hparty := hI.party wr
  cases wr with
  | worker i =>
    by_cases hrun : a = .run i
    · subst hrun
      have hran : Ran cfg s.state.world i t.state.world := by
        cases h with
        | run h => exact h
        | bystander hnone _ => cases hnone
      rw [hghost]
      exact ⟨workerAt_ran hparty hI.clean hran, reasonsKept_ran hparty hI.clean hI.pause hok hran⟩
    · have hactor := actor_of_writer ha
      obtain ⟨hworker, hcommitted⟩ := workerAt_moved hparty h hactor hrun
      have hpause : t.ghost.pause = s.ghost.pause := by
        rw [hghost, noteReasons_pause]
        · rintro j rfl
          obtain rfl : j = i := by simpa [actor] using hactor
          exact hrun rfl
        · rintro r rfl
          cases hactor
      rw [hcommitted, hpause]
      exact ⟨hworker, hI.clean, hI.pause⟩
  | request r =>
    obtain ⟨hrequest, hclean, hsame⟩ := requesterAt_moved hparty hI.clean h ha
    refine ⟨hrequest, hclean, ?_⟩
    by_cases hcommit : ∃ r, a = .commit r
    · obtain ⟨r, rfl⟩ := hcommit
      rw [hghost]
      exact fun _ => .inl rfl
    · have hcommit : ∀ r, a ≠ .commit r := fun r hr => hcommit ⟨r, hr⟩
      rw [hsame hcommit, hghost, noteReasons_pause (by rintro i rfl; cases ha) hcommit]
      exact hI.pause

theorem reasonsKept_step {cfg : Config} {s t : Ghosted Serial LastReasons} {a : Action}
    (hI : ReasonsKept s)
    (h : announcedStep cfg s a = some t) (hok : ¬ CommitsError s a) : ReasonsKept t := by
  obtain ⟨hs, hghost⟩ := ghostStep_eq_some h
  obtain ⟨hstep, hturn⟩ := serially_eq_some hs
  have hmoved := step_moved hstep
  rcases hturn with ⟨hnone, hsame⟩ | ⟨wr, hwr, hfree, hturn⟩
  · have hby := bystander_of_writer hmoved hnone
    have hkeep : t.ghost = s.ghost := by
      rw [hghost]
      cases a <;> first | rfl | cases hnone
    refine ⟨fun wr hbusy => ?_, fun wr => ?_, ?_, ?_⟩
    · rw [busy_other hmoved (by rw [hnone]; exact fun h => by cases h)] at hbusy
      rw [hsame, hI.turn wr hbusy]
    · rw [hkeep]
      exact partyAt_bystander hby (hI.party wr)
    · rw [hby.row]
      exact hI.clean
    · rw [hby.row, hkeep]
      exact hI.pause
  · obtain ⟨hparty, hclean, hpause⟩ := hI.acts hmoved hghost hok hwr
    have hother : ∀ o, o ≠ wr → busy s.state.world o = false := by
      intro o ho
      by_contra hbusy
      have hheld := hI.turn o (Bool.eq_true_of_not_eq_false hbusy)
      rcases hfree with hfree | hfree <;> rw [hfree] at hheld
      · cases hheld
      · exact ho (Option.some.inj hheld).symm
    have hne : ∀ o, o ≠ wr → writer a ≠ some o := by
      intro o ho heq
      rw [hwr] at heq
      exact ho (Option.some.inj heq).symm
    refine ⟨fun o hbusy => ?_, fun o => ?_, hclean, hpause⟩
    · by_cases ho : o = wr
      · subst ho
        rw [hturn, if_pos hbusy]
      · rw [busy_other hmoved (hne o ho), hother o ho] at hbusy
        cases hbusy
    · by_cases ho : o = wr
      · subst ho
        exact hparty
      · have hidle := busy_other hmoved (hne o ho)
        rw [hother o ho] at hidle
        refine (partyAt_idle hidle).mpr (unwritten_other hmoved (hne o ho) ?_)
        exact (partyAt_idle (hother o ho)).mp (hI.party o)

/-- The commit of an announced error pauses the execution without a reason. -/
theorem not_reasons_of_commitsError {cfg : Config} {s t : Ghosted Serial LastReasons} {a : Action}
    (hI : ReasonsKept s) (h : announcedStep cfg s a = some t) (herror : CommitsError s a) :
    ¬ Reasons t.state.world.row.committed t.ghost.pause := by
  cases a with
  | run i =>
    obtain ⟨hpc, hpublished⟩ := herror
    have hran := runWorker_ran (serially_eq_some (ghostStep_eq_some h).1).1
    have hparty := hI.party (.worker i)
    simp only [PartyAt, WorkerAt, hpc] at hparty
    obtain ⟨why, hwrote, hwhy⟩ := hparty
    have hcolumns := hwrote.commit
    rw [← ran_commitPaused hran hpc] at hcolumns
    rw [hpublished] at hwhy
    cases why with
    | costExceeded => simp [Stop.pauseReason] at hwhy
    | error message =>
      simp only [ExecutionRow.columns, Stop.columns, Prod.mk.injEq] at hcolumns
      obtain ⟨hs, hp, -⟩ := hcolumns
      intro hreasons
      have hset := (hreasons.paused hs).1
      rw [hp] at hset
      cases hset
  | _ => exact absurd herror id

theorem reasonsKept_initial (inputs : List (String × Json)) :
    ReasonsKept ⟨{ world := World.initial inputs }, {}⟩ := by
  have hbusy : ∀ wr, busy (World.initial inputs) wr = false := by
    intro wr
    cases wr with
    | worker i => rfl
    | request r =>
      by_cases hr : r = 0
      · subst hr
        simp [busy, World.initial]
      · simp [busy, World.initial, hr]
  refine ⟨fun wr h => ?_, fun wr => (partyAt_idle (hbusy wr)).mpr ?_, ?_, fun h => by cases h⟩
  · rw [hbusy wr] at h
    cases h
  · intro v hv
    cases hv
  · exact ⟨rfl, fun h => (by cases h), fun _ _ => rfl⟩

/-- Every committed pause says why, as announced, and nothing is left of it on a running or
completed execution, exactly as long as no run commits the pause of its handler of
unexpected exceptions. -/
theorem reasons_iff (cfg : Config) (inputs : List (String × Json)) (as : List Action) :
    Along (announcedStep cfg)
        (fun _ _ t => Reasons t.state.world.row.committed t.ghost.pause)
        ⟨{ world := World.initial inputs }, {}⟩ as ↔
      Along (announcedStep cfg) (fun s a _ => ¬ CommitsError s a)
        ⟨{ world := World.initial inputs }, {}⟩ as := by
  refine along_iff (I := ReasonsKept) (fun s a t hI h hreasons => ?_) (fun s a t hI h => ?_)
    (reasonsKept_initial inputs)
  · exact reasonsKept_step hI h fun herror => not_reasons_of_commitsError hI h herror hreasons
  · constructor
    · exact fun hreasons herror => not_reasons_of_commitsError hI h herror hreasons
    · exact fun hok => (reasonsKept_step hI h hok).reasons

/-- The only step's event is refused by the broker, the handler pauses the execution, and a
resume takes it back to RUNNING. -/
theorem error_leaves_no_reason :
    ¬ Along (announcedStep oneStep)
        (fun _ _ t => Reasons t.state.world.row.committed t.ghost.pause)
        ⟨{ world := World.initial [] }, {}⟩
        (.enqueue 0 :: deliver 9 ++ [.fail 0 "refused"] ++ List.replicate 4 (.run 0)) ∧
      (run (announcedStep oneStep) ⟨{ world := World.initial [] }, {}⟩
        (.enqueue 0 :: deliver 9 ++ [.fail 0 "refused"] ++ List.replicate 4 (.run 0))).any
        (fun t => t.state.world.row.committed.columns = (.paused, none, some "refused") ∧
          t.ghost.pause = some "error") ∧
      (run (announcedStep oneStep) ⟨{ world := World.initial [] }, {}⟩
        (.enqueue 0 :: deliver 9 ++ [.fail 0 "refused"] ++ List.replicate 6 (.run 0) ++
          [.request 1 .resume, .flush 1, .commit 1, .enqueue 1] ++ deliver 7)).any
        fun t => t.state.world.row.committed.columns = (.running, none, some "refused") := by
  refine ⟨?_, ?_, ?_⟩ <;> decide +kernel

end Sutram.Workflow
