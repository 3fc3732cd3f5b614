/-
What holds of every worker in every reachable state.

A worker inside the lock holds it, its session object has no unflushed status, and
the status of its uncommitted version is the one its program counter says.  Each
fact speaks of one worker, so a step is checked in two halves: the worker that
moves, and the frame of all others.
-/
import Sutram.Workflow.Steps

namespace Sutram.Workflow

open Sutram.Core Runs

/-- What worker `j` keeps while another party moves. -/
structure Frame (j : Nat) (w w' : World) : Prop where
  worker : w'.workers j = w.workers j
  lock : w.lock = some (.worker j) → (w.workers j).pc.inLock → w'.lock = w.lock
  row : ∃ wr, wr ≠ .worker j ∧ w.row.Moves wr w'.row

namespace Pc

/-- The status of an uncommitted version of a worker at this point. -/
def OwnStatus (committed s : ExecutionStatus) : Pc → Prop
  | .publishStarted _ _ | .commitRunning _ => s = .running
  | .publishCompleted _ | .commitCompleted => s = committed ∨ s = .completed
  | .publishPaused _ _ | .commitPaused => s = committed ∨ s = .paused
  | .release .raised | .close .raised => True
  | _ => s = committed

def isStarting : Pc → Bool
  | .flushRunning _ => true
  | _ => false

/-- Between the flush and the commit of RUNNING. -/
def hasStarted : Pc → Bool
  | .publishStarted _ _ | .commitRunning _ => true
  | _ => false

def holdsCheckpoint : Pc → Bool
  | .commitCheckpoint _ => true
  | _ => false

end Pc

structure SoundAt (w : World) (i : Nat) : Prop where
  mutex : (w.workers i).pc.inLock → w.lock = some (.worker i)
  added : (w.workers i).pc.holdsCheckpoint = false → (w.workers i).added = []
  clean : (w.workers i).execution.current.status = (w.workers i).execution.loaded.status
  starting : (w.workers i).pc.isStarting → (w.workers i).execution.loaded.status = .pending
  started : (w.workers i).pc.hasStarted → ∃ r, w.row.uncommitted = some (.worker i, r)
  own : ∀ r, w.row.uncommitted = some (.worker i, r) →
    (w.workers i).pc.OwnStatus w.row.committed.status r.status

def Sound (w : World) : Prop := ∀ i, SoundAt w i

/-! ## The frame of a step -/

theorem ran_workers_other {cfg : Config} {w w' : World} {i j : Nat} (h : Ran cfg w i w')
    (hne : j ≠ i) : w'.workers j = w.workers j := by
  cases h <;> simp [hne]

theorem ran_lock_other {cfg : Config} {w w' : World} {i j : Nat} (h : Ran cfg w i w')
    (hne : j ≠ i) (hlock : w.lock = some (.worker j)) : w'.lock = w.lock := by
  cases h with
  | acquired hpc hfree =>
    rw [hfree] at hlock
    cases hlock
  | release hpc =>
    rw [hlock]
    simp [hne]
  | _ => rfl

theorem moved_frame {cfg : Config} {w w' : World} {a : Action} {j : Nat} (h : Moved cfg w a w')
    (hj : actor a ≠ some j) : Frame j w w' := by
  have hwr : writer a ≠ some (.worker j) := by
    intro hwr
    cases a <;> cases hwr <;> exact hj rfl
  have hother : ∀ i, actor a = some i → j ≠ i := by
    intro i hi hji
    exact hj (by rw [hi, hji])
  refine ⟨?_, ?_, moved_moves_other h hwr⟩
  · cases h with
    | run h => exact ran_workers_other h (hother _ rfl)
    | take | failClose | failDatabase | fail | crash => simp [hother _ rfl]
    | bystander _ h => rw [h.workers]
    | _ => rfl
  · intro hlock hin
    cases h with
    | run h => exact ran_lock_other h (hother _ rfl) hlock
    | bystander _ h => exact h.lock j hlock hin
    | _ => rfl

theorem soundAt_frame {w w' : World} {j : Nat} (hI : SoundAt w j) (h : Frame j w w') :
    SoundAt w' j := by
  obtain ⟨wr, hwr, hmoves⟩ := h.row
  constructor
  · rw [h.worker]
    intro hin
    have hlock := hI.mutex hin
    rw [h.lock hlock hin, hlock]
  · rw [h.worker]
    exact hI.added
  · rw [h.worker]
    exact hI.clean
  · rw [h.worker]
    exact hI.starting
  · rw [h.worker]
    intro hpc
    obtain ⟨r, hr⟩ := hI.started hpc
    exact ⟨r, (hmoves.uncommitted_of_ne hwr.symm).mpr hr⟩
  · intro r hr
    have hr' := (hmoves.uncommitted_of_ne hwr.symm).mp hr
    rw [h.worker, hmoves.committed_of_ne hwr.symm hr']
    exact hI.own r hr'

/-! ## The worker that moves -/

theorem next_cases (cfg : Config) (n : Nat) :
    cfg.next n = .refresh n ∨ cfg.next n = .flushCompleted := by
  unfold Config.next
  split
  · exact .inl rfl
  · exact .inr rfl

/-- A move that leaves the row and the lock alone and starts nothing. -/
theorem SoundAt.stay {w w' : World} {i : Nat} (hI : SoundAt w i) (hrow : w'.row = w.row)
    (hlock : (w'.workers i).pc.inLock → w'.lock = some (.worker i))
    (hadded : (w'.workers i).pc.holdsCheckpoint = false → (w'.workers i).added = [])
    (hclean : (w'.workers i).execution.current.status = (w'.workers i).execution.loaded.status)
    (hstarting : (w'.workers i).pc.isStarting → (w'.workers i).execution.loaded.status = .pending)
    (hstarted : (w'.workers i).pc.hasStarted → (w.workers i).pc.hasStarted)
    (hown : ∀ c s, (w.workers i).pc.OwnStatus c s → (w'.workers i).pc.OwnStatus c s) :
    SoundAt w' i := by
  refine ⟨hlock, hadded, hclean, hstarting, fun h => ?_, fun r hr => ?_⟩
  · rw [hrow]
    exact hI.started (hstarted h)
  · rw [hrow] at hr ⊢
    exact hown _ _ (hI.own r hr)

/-- A move to `pc` that changes nothing else. -/
theorem SoundAt.goto {w w' : World} {i : Nat} {pc : Pc} (hI : SoundAt w i)
    (hrow : w'.row = w.row) (hlock : w'.lock = w.lock)
    (hworker : w'.workers i = (w.workers i).goto pc)
    (hinLock : pc.inLock → (w.workers i).pc.inLock)
    (hcheckpoint : (w.workers i).pc.holdsCheckpoint = false) (hstarting : pc.isStarting = false)
    (hstarted : pc.hasStarted → (w.workers i).pc.hasStarted)
    (hown : ∀ c s, (w.workers i).pc.OwnStatus c s → pc.OwnStatus c s) : SoundAt w' i := by
  have hpc : (w'.workers i).pc = pc := by rw [hworker]; rfl
  have hadded : (w'.workers i).added = (w.workers i).added := by rw [hworker]; rfl
  have hexecution : (w'.workers i).execution = (w.workers i).execution := by rw [hworker]; rfl
  refine hI.stay hrow ?_ ?_ ?_ ?_ ?_ ?_
  · rw [hpc, hlock]
    exact fun hin => hI.mutex (hinLock hin)
  · rw [hadded]
    exact fun _ => hI.added hcheckpoint
  · rw [hexecution]
    exact hI.clean
  · simp [hpc, hstarting]
  · rwa [hpc]
  · rwa [hpc]

/-- A move that ends the worker's transaction. -/
theorem SoundAt.settle {w w' : World} {i : Nat}
    (hrow : w'.row = w.row.commit (.worker i) ∨ w'.row = w.row.rollback (.worker i))
    (hlock : (w'.workers i).pc.inLock → w'.lock = some (.worker i))
    (hadded : (w'.workers i).added = [])
    (hclean : (w'.workers i).execution.current.status = (w'.workers i).execution.loaded.status)
    (hstarting : (w'.workers i).pc.isStarting = false)
    (hstarted : (w'.workers i).pc.hasStarted = false) : SoundAt w' i := by
  refine ⟨hlock, fun _ => hadded, hclean, by simp [hstarting], by simp [hstarted], fun r hr => ?_⟩
  rcases hrow with hrow | hrow
  · rw [hrow] at hr
    exact absurd hr (Versioned.commit_uncommitted _ _ r)
  · rw [hrow] at hr
    exact absurd hr (Versioned.rollback_uncommitted _ _ r)

/-- What a worker reads has the committed status, unless it has written another. -/
theorem SoundAt.view_status {w : World} {i : Nat}
    (hown : ∀ r, w.row.uncommitted = some (.worker i, r) → r.status = w.row.committed.status) :
    (w.row.view (.worker i)).status = w.row.committed.status := by
  by_cases h : ∃ r, w.row.uncommitted = some (.worker i, r)
  · obtain ⟨r, hr⟩ := h
    rw [Versioned.view_own hr]
    exact hown r hr
  · rw [Versioned.view_eq_committed fun r hr => h ⟨r, hr⟩]

/-- A flush leaves the worker's version with the status it had or the object's. -/
theorem SoundAt.flush_status {w : World} {i : Nat} {o : Orm} {row : Versioned Writer ExecutionRow}
    (hown : ∀ r, w.row.uncommitted = some (.worker i, r) → r.status = w.row.committed.status)
    (hrow : flushRow w.row (.worker i) o = some row) {r : ExecutionRow}
    (hr : row.uncommitted = some (.worker i, r)) :
    row.committed = w.row.committed ∧ (r.status = w.row.committed.status ∨
      r.status = o.current.status ∧ o.current.status ≠ o.loaded.status) := by
  obtain ⟨hc, hsame | ⟨hu, -⟩⟩ := flushRow_eq_some hrow
  · rw [hsame] at hr
    exact ⟨hc, .inl (hown r hr)⟩
  · rw [hu] at hr
    cases hr
    refine ⟨hc, ?_⟩
    by_cases hstatus : o.current.status = o.loaded.status
    · rw [Orm.patch_status_of_clean hstatus, SoundAt.view_status hown]
      exact .inl rfl
    · rw [Orm.patch_status_of_dirty hstatus]
      exact .inr ⟨rfl, hstatus⟩

theorem flushRow_dirty {row row' : Versioned Writer ExecutionRow} {wr : Writer} {o : Orm}
    (hdirty : o.current.status ≠ o.loaded.status) (h : flushRow row wr o = some row') :
    row'.committed = row.committed ∧
      ∃ r, row'.uncommitted = some (wr, r) ∧ r.status = o.current.status := by
  unfold flushRow at h
  rw [if_neg fun heq => hdirty (by rw [heq])] at h
  obtain ⟨hc, hu, -⟩ := Versioned.update_eq_some h
  exact ⟨hc, _, hu, Orm.patch_status_of_dirty hdirty _⟩

@[simp] theorem stop_updateStatus_status (why : Stop) (now : Nat) (o : Orm) :
    (why.updateStatus now o).current.status = .paused := by
  cases why <;> rfl

@[simp] theorem default_clean :
    (default : Orm).current.status = (default : Orm).loaded.status := rfl

theorem soundAt_ran {cfg : Config} {w w' : World} {i : Nat} (hI : SoundAt w i)
    (h : Ran cfg w i w') : SoundAt w' i := by
  have hmutex := hI.mutex
  have hadded := hI.added
  have hclean := hI.clean
  have hown := hI.own
  cases h with
  | readTerminal hpc | refused hpc | setupRaises hpc | costExceeded hpc | doneRaises hpc =>
    refine hI.goto rfl rfl (Function.update_self ..) ?_ ?_ ?_ ?_ ?_ <;>
      simp [hpc, Pc.inLock, Pc.holdsCheckpoint, Pc.isStarting, Pc.hasStarted, Pc.OwnStatus]
  | publishStarted hpc hnext | publishStep hpc hnext | publishCompleted hpc hnext
  | publishPaused hpc hnext =>
    rcases hnext with rfl | rfl <;>
      refine hI.goto rfl rfl (Function.update_self ..) ?_ ?_ ?_ ?_ ?_ <;>
      simp [hpc, Pc.inLock, Pc.holdsCheckpoint, Pc.isStarting, Pc.hasStarted, Pc.OwnStatus]
  | read hpc | acquired hpc | setup hpc | refreshStops hpc | execute hpc | writeCheckpoint hpc
  | pausedRaises hpc =>
    rw [hpc] at hmutex hadded
    refine hI.stay rfl ?_ ?_ ?_ ?_ ?_ ?_ <;>
      simp_all [Pc.inLock, Pc.holdsCheckpoint, Pc.isStarting, Pc.hasStarted, Pc.OwnStatus]
  | @release o hpc =>
    rw [hpc] at hmutex hadded
    refine hI.stay rfl ?_ ?_ ?_ ?_ ?_ ?_ <;>
      simp_all [Pc.inLock, Pc.holdsCheckpoint, Pc.isStarting, Pc.hasStarted]
    cases o <;> simp [Pc.OwnStatus]
  | refresh hpc =>
    rw [hpc] at hmutex hadded
    split <;> refine hI.stay rfl ?_ ?_ ?_ ?_ ?_ ?_ <;>
      simp_all [Pc.inLock, Pc.holdsCheckpoint, Pc.isStarting, Pc.hasStarted, Pc.OwnStatus]
  | @commitRunning start hpc =>
    rw [hpc] at hmutex hadded
    rcases next_cases cfg start with hn | hn <;> refine .settle (.inl rfl) ?_ ?_ ?_ ?_ ?_ <;>
      simp_all [Pc.inLock, Pc.holdsCheckpoint, Pc.isStarting, Pc.hasStarted]
  | commitCheckpoint hpc | commitCompleted hpc | commitPaused hpc | closeReturned hpc =>
    rw [hpc] at hmutex hadded
    refine .settle (.inl rfl) ?_ ?_ ?_ ?_ ?_ <;>
      simp_all [Pc.inLock, Pc.holdsCheckpoint, Pc.isStarting, Pc.hasStarted]
  | closeRaised hpc =>
    refine .settle (.inr rfl) ?_ ?_ ?_ ?_ ?_ <;>
      simp [Pc.inLock, Pc.isStarting, Pc.hasStarted]
  | flushRunning hpc hrow =>
    have hpending := hI.starting (by rw [hpc]; rfl)
    obtain ⟨hc, r, hr, hstatus⟩ := flushRow_dirty (by simp [hpending]) hrow
    rw [hpc] at hmutex hadded
    refine ⟨?_, ?_, ?_, ?_, fun _ => ⟨r, hr⟩, fun r' hr' => ?_⟩
    · exact fun _ => hmutex rfl
    · exact fun _ => by simpa using hadded rfl
    · simp
    · simp [Pc.isStarting]
    · have heq : r = r' := by simpa [hr] using hr'
      simp [Pc.OwnStatus, ← heq, hstatus]
  | @flushStep n hpc row hrow =>
    rw [hpc] at hmutex hadded
    have hown' : ∀ r, w.row.uncommitted = some (.worker i, r) →
        r.status = w.row.committed.status := by
      intro r hr
      simpa [hpc, Pc.OwnStatus] using hown r hr
    refine ⟨?_, ?_, ?_, ?_, ?_, fun r hr => ?_⟩
    · exact fun _ => hmutex rfl
    · simpa using fun _ => hadded rfl
    · simp
    · rcases next_cases cfg (n + 1) with hn | hn <;> simp [hn, Pc.isStarting]
    · rcases next_cases cfg (n + 1) with hn | hn <;> simp [hn, Pc.hasStarted]
    · obtain ⟨hc, hr' | ⟨-, hdirty⟩⟩ := SoundAt.flush_status hown' hrow hr
      · rcases next_cases cfg (n + 1) with hn | hn <;> simp [hn, Pc.OwnStatus, hc, hr']
      · exact absurd hclean hdirty
  | flushCompleted hpc hrow | flushPaused hpc hrow =>
    rw [hpc] at hmutex hadded
    have hown' : ∀ r, w.row.uncommitted = some (.worker i, r) →
        r.status = w.row.committed.status := by
      intro r hr
      simpa [hpc, Pc.OwnStatus] using hown r hr
    refine ⟨?_, ?_, ?_, ?_, ?_, fun r hr => ?_⟩
    · exact fun _ => hmutex rfl
    · simpa using fun _ => hadded rfl
    · simp
    · simp [Pc.isStarting]
    · simp [Pc.hasStarted]
    · obtain ⟨hc, hr' | ⟨hr', -⟩⟩ := SoundAt.flush_status hown' hrow hr <;>
        simp [Pc.OwnStatus, hc, hr']

/-! ### A worker that raises -/

section OnFail

variable {pc : Pc} {message : String}

theorem inLock_of_onFail (hidle : pc ≠ .idle) (hclose : ∀ o, pc ≠ .close o)
    (h : (pc.onFail message).inLock) : pc.inLock := by
  cases pc with
  | idle => exact absurd rfl hidle
  | close o => exact absurd rfl (hclose o)
  | read | acquire => cases h
  | _ => rfl

theorem onFail_isStarting : (pc.onFail message).isStarting = false := by
  cases pc <;> rfl

theorem onFail_hasStarted : (pc.onFail message).hasStarted = false := by
  cases pc <;> rfl

theorem holdsCheckpoint_of_usesDatabase (h : pc.usesDatabase = false) :
    pc.holdsCheckpoint = false := by
  cases pc <;> first | rfl | cases h

/-- A version that stays where the exception leads to has a status it may have there. -/
theorem onFail_own {committed s : ExecutionStatus} (h : pc.OwnStatus committed s) :
    (pc.onFail message).OwnStatus committed s := by
  cases pc <;> first | exact h | trivial

end OnFail

theorem soundAt_moved {cfg : Config} {w w' : World} {a : Action} {i : Nat} (hI : SoundAt w i)
    (h : Moved cfg w a w') (hi : actor a = some i) : SoundAt w' i := by
  have hmutex := hI.mutex
  have hadded := hI.added
  have hclean := hI.clean
  have hown := hI.own
  cases h with
  | @run j _ h =>
    obtain rfl : j = i := by simpa [actor] using hi
    exact soundAt_ran hI h
  | @take j hpc htasks =>
    obtain rfl : j = i := by simpa [actor] using hi
    rw [hpc] at hmutex
    refine hI.stay rfl ?_ ?_ ?_ ?_ ?_ ?_ <;>
      simp_all [Pc.inLock, Pc.isStarting, Pc.hasStarted, Pc.OwnStatus]
  | @failClose j _ _ hpc | @crash j hpc =>
    obtain rfl : j = i := by simpa [actor] using hi
    refine .settle (.inr rfl) ?_ ?_ ?_ ?_ ?_ <;>
      simp [Pc.inLock, Pc.isStarting, Pc.hasStarted]
  | @failDatabase j message hdb =>
    obtain rfl : j = i := by simpa [actor] using hi
    refine .settle (.inr rfl) ?_ ?_ ?_ ?_ ?_
    · have hidle : (w.workers j).pc ≠ .idle := fun hpc => by
        rw [hpc] at hdb
        cases hdb
      have hclose : ∀ o, (w.workers j).pc ≠ .close o := fun o hpc => by
        rw [hpc] at hdb
        cases hdb
      simpa using fun hin => hmutex (inLock_of_onFail hidle hclose hin)
    · simp
    · simpa using hclean
    · simp [onFail_isStarting]
    · simp [onFail_hasStarted]
  | @fail j message hidle hclose hdb =>
    obtain rfl : j = i := by simpa [actor] using hi
    refine hI.goto rfl rfl (Function.update_self ..) (inLock_of_onFail hidle hclose)
      (holdsCheckpoint_of_usesDatabase hdb) onFail_isStarting ?_ fun _ _ => onFail_own
    simp [onFail_hasStarted]
  | bystander hnone _ =>
    rw [writer_of_actor hi] at hnone
    cases hnone
  | _ => cases hi

theorem sound_step {cfg : Config} {w w' : World} {a : Action} (hI : Sound w)
    (h : step cfg w a = some w') : Sound w' := by
  intro j
  have hmoved := step_moved h
  by_cases hj : actor a = some j
  · exact soundAt_moved (hI j) hmoved hj
  · exact soundAt_frame (hI j) (moved_frame hmoved hj)

theorem sound_initial (inputs : List (String × Core.Json)) : Sound (World.initial inputs) := by
  intro i
  constructor <;> simp [World.initial, Pc.inLock, Pc.isStarting, Pc.hasStarted]

theorem sound_run {cfg : Config} {inputs : List (String × Core.Json)} {as : List Action}
    {w : World} (h : run (step cfg) (World.initial inputs) as = some w) : Sound w :=
  invariant_run (G := fun _ _ => True) (fun _ _ _ hI _ hs => sound_step hI hs)
    (sound_initial inputs) (along_of_mem (fun _ _ => trivial) _) h

/-! ## What a worker commits -/

theorem commit_status {w : World} {i : Nat} {s : ExecutionStatus}
    (hown : ∀ r, w.row.uncommitted = some (.worker i, r) →
      r.status = w.row.committed.status ∨ r.status = s) :
    (w.row.commit (.worker i)).committed.status = w.row.committed.status ∨
      (w.row.commit (.worker i)).committed.status = s := by
  rcases Versioned.commit_cases w.row (.worker i) with ⟨r, hr, hcommit⟩ | ⟨-, hcommit⟩
  · rw [hcommit]
    exact hown r hr
  · rw [hcommit]
    exact .inl rfl

/-- A worker changes the committed status at its three commits only. -/
theorem ran_status_change {cfg : Config} {w w' : World} {i : Nat} (hI : SoundAt w i)
    (h : Ran cfg w i w') (hne : w'.row.committed.status ≠ w.row.committed.status) :
    w'.row.committed.status = .running ∨
      w'.row.committed.status = .completed ∧ (w.workers i).pc = .commitCompleted ∨
      w'.row.committed.status = .paused := by
  have hown := hI.own
  cases h with
  | commitRunning hpc =>
    rw [hpc] at hown
    exact .inl ((commit_status fun r hr => .inr (hown r hr)).resolve_left hne)
  | commitCompleted hpc =>
    rw [hpc] at hown
    exact .inr (.inl ⟨(commit_status hown).resolve_left hne, hpc⟩)
  | commitPaused hpc =>
    rw [hpc] at hown
    exact .inr (.inr ((commit_status hown).resolve_left hne))
  | commitCheckpoint hpc | closeReturned hpc =>
    rw [hpc] at hown
    exact .inl ((commit_status fun r hr => .inl (hown r hr)).resolve_left hne)
  | flushRunning hpc hrow | flushStep hpc hrow | flushCompleted hpc hrow | flushPaused hpc hrow =>
    exact absurd (congrArg ExecutionRow.status (flushRow_eq_some hrow).1) hne
  | closeRaised hpc => exact absurd (by simp) hne
  | _ => exact absurd rfl hne

/-! ## Parties that do not act -/

theorem run_workers_other {cfg : Config} {w w' : World} {as : List Action} {j : Nat}
    (hrun : run (step cfg) w as = some w') (hj : ∀ a ∈ as, actor a ≠ some j) :
    w'.workers j = w.workers j := by
  refine invariant_run (I := fun u => u.workers j = w.workers j) ?_ rfl (along_of_mem hj w) hrun
  intro u a u' hu ha hstep
  rw [(moved_frame (step_moved hstep) ha).worker, hu]

theorem run_requests_other {cfg : Config} {w w' : World} {as : List Action} {r : Nat}
    (hrun : run (step cfg) w as = some w') (hr : ∀ a ∈ as, writer a ≠ some (.request r)) :
    w'.requests r = w.requests r := by
  refine invariant_run (I := fun u => u.requests r = w.requests r) ?_ rfl (along_of_mem hr w) hrun
  intro u a u' hu ha hstep
  rw [moved_requests_other (step_moved hstep) ha, hu]

end Sutram.Workflow
