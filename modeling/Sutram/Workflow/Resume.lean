/-
Serial runs of one execution and the steps they execute.

The checkpoint of step `n` is committed before the step and the next run starts at
`n + 1`, so the stretch between that commit and the step's event is the only one a
run must not stop in.
-/
import Sutram.Workflow.Transitions
import Sutram.Workflow.Invariants

namespace Sutram.Workflow

open Sutram.Core Runs

/-- Serial runs: worker 0 alone takes deliveries, and between two of them the
execution is put back to PENDING with a task in the queue and no lock. -/
inductive SerialAction where
  | act (a : Action)
  | requeue
deriving DecidableEq, Repr

def requeue (w : World) : Option World :=
  if (w.workers 0).pc = .idle ∧ w.row.uncommitted.isNone then
    some { w with
      row := .settled { w.row.committed with status := .pending }
      tasks := w.tasks + 1
      lock := none }
  else none

def serialStep (cfg : Config) (w : World) : SerialAction → Option World
  | .act a => if actor a = none ∨ actor a = some 0 then step cfg w a else none
  | .requeue => requeue w

def isStepCompleted (n : Nat) : Effect → Bool
  | .published .global (.stepCompleted _ i _ _) => i = n
  | _ => false

/-- The StepCompletedEvent of step `n` was published. -/
def executed (w : World) (n : Nat) : Bool := w.log.any (isStepCompleted n)

def AllExecuted (cfg : Config) (w : World) : Prop := ∀ n < cfg.steps.length, executed w n

instance (cfg : Config) (w : World) : Decidable (AllExecuted cfg w) :=
  inferInstanceAs (Decidable (∀ n < _, _))

/-- The checkpoint of step `n` is committed and its event is not yet published. -/
def AwaitsStep (cfg : Config) (n : Nat) (pc : Pc) : Prop :=
  (pc = .execute n ∨ pc = .publishStep n .global) ∧
    CheckpointManager.shouldCheckpoint (cfg.stepConfig n)

/-- Whether the worker is at such a point, for some step. -/
def awaiting (cfg : Config) : Pc → Bool
  | .execute n | .publishStep n .global => CheckpointManager.shouldCheckpoint (cfg.stepConfig n)
  | _ => false

/-- The next operation does not find the cost limit reached at a checkpointed step. -/
def withinCost (cfg : Config) (k : Worker) : Bool :=
  match k.pc with
  | .execute n => CheckpointManager.shouldCheckpoint (cfg.stepConfig n) →
      (k.costTracker.add (cfg.stepCost n)).isOk
  | _ => true

/-- No run stops between the commit of a step's checkpoint and the step's event:
no crash, no failing operation, no cost limit. -/
def StopsElsewhere (cfg : Config) (w : World) : SerialAction → Prop
  | .act (.crash _) | .act (.fail _ _) => awaiting cfg (w.workers 0).pc = false
  | .act (.run _) => withinCost cfg (w.workers 0)
  | _ => True

instance (cfg : Config) (w : World) : ∀ a, Decidable (StopsElsewhere cfg w a)
  | .act (.crash _) | .act (.fail _ _) => inferInstanceAs (Decidable (_ = false))
  | .act (.run _) => inferInstanceAs (Decidable (_ = true))
  | .act (.take _) | .act (.request _ _) | .act (.flush _) | .act (.commit _) | .act (.enqueue _)
  | .act (.enqueueFails _) | .act (.abort _) | .act (.scan _) | .act (.pod _)
  | .act (.podCrash _) | .act .redeliver | .act .expire | .act .tick | .requeue => isTrue trivial

theorem awaiting_of_awaitsStep {cfg : Config} {n : Nat} {pc : Pc} (h : AwaitsStep cfg n pc) :
    awaiting cfg pc := by
  obtain ⟨rfl | rfl, hflag⟩ := h
  · exact hflag
  · exact hflag

theorem executed_of_append {w w' : World} {l : List Effect} (h : w'.log = w.log ++ l) {n : Nat}
    (hn : executed w n) : executed w' n := by
  rw [executed, h, List.any_append]
  exact Bool.or_eq_true_iff.mpr (.inl hn)

/-! ## The invariant of the step loop -/

/-- All steps below this index have been executed when the worker is here. -/
def Pc.below (length : Nat) : Pc → Nat
  | .flushRunning n | .publishStarted n _ | .commitRunning n | .refresh n | .writeCheckpoint n
  | .commitCheckpoint n | .execute n | .publishStep n .global => n
  | .publishStep n .sse | .flushStep n => n + 1
  | .flushCompleted | .publishCompleted _ | .commitCompleted => length
  | _ => 0

theorem below_next (cfg : Config) (n : Nat) : (cfg.next n).below cfg.steps.length ≤ n := by
  unfold Config.next
  split
  · exact le_rfl
  · simp only [Pc.below]
    omega

structure Progress (cfg : Config) (w : World) : Prop where
  sound : SoundAt w 0
  loop : ∀ j < (w.workers 0).pc.below cfg.steps.length, executed w j
  flagged : ∀ n, (w.workers 0).pc = .writeCheckpoint n ∨ (w.workers 0).pc = .commitCheckpoint n →
    CheckpointManager.shouldCheckpoint (cfg.stepConfig n)
  added : ∀ c ∈ (w.workers 0).added, (w.workers 0).pc = .commitCheckpoint c.stepIndex
  checkpoints : ∀ c ∈ w.checkpoints, ∀ j ≤ c.stepIndex,
    executed w j ∨ AwaitsStep cfg j (w.workers 0).pc

/-- A move of the worker that commits no checkpoint. -/
theorem Progress.advance {cfg : Config} {w w' : World} {l : List Effect} (hI : Progress cfg w)
    (hsound : SoundAt w' 0) (hlog : w'.log = w.log ++ l)
    (hcheckpoints : w'.checkpoints = w.checkpoints)
    (hloop : ∀ j < (w'.workers 0).pc.below cfg.steps.length, executed w' j)
    (hflagged : ∀ n, (w'.workers 0).pc = .writeCheckpoint n ∨
      (w'.workers 0).pc = .commitCheckpoint n →
      CheckpointManager.shouldCheckpoint (cfg.stepConfig n))
    (hadded : ∀ c ∈ (w'.workers 0).added, (w'.workers 0).pc = .commitCheckpoint c.stepIndex)
    (hawaits : ∀ j, AwaitsStep cfg j (w.workers 0).pc →
      executed w' j ∨ AwaitsStep cfg j (w'.workers 0).pc) : Progress cfg w' := by
  refine ⟨hsound, hloop, hflagged, hadded, fun c hc j hj => ?_⟩
  rw [hcheckpoints] at hc
  rcases hI.checkpoints c hc j hj with hdone | hwait
  · exact .inl (executed_of_append hlog hdone)
  · exact hawaits j hwait

/-- A move inside the loop that claims no further step. -/
theorem Progress.proceed {cfg : Config} {w w' : World} {l : List Effect} (hI : Progress cfg w)
    (hsound : SoundAt w' 0) (hlog : w'.log = w.log ++ l)
    (hcheckpoints : w'.checkpoints = w.checkpoints)
    (hbelow : (w'.workers 0).pc.below cfg.steps.length ≤
      (w.workers 0).pc.below cfg.steps.length)
    (hflagged : (w'.workers 0).pc.holdsCheckpoint = false ∧
      ∀ n, (w'.workers 0).pc = .writeCheckpoint n →
        CheckpointManager.shouldCheckpoint (cfg.stepConfig n))
    (hawaits : ∀ j, ¬ AwaitsStep cfg j (w.workers 0).pc) : Progress cfg w' := by
  refine hI.advance hsound hlog hcheckpoints ?_ ?_ ?_ fun j hj => absurd hj (hawaits j)
  · intro j hj
    exact executed_of_append hlog (hI.loop j (Nat.lt_of_lt_of_le hj hbelow))
  · rintro n (hn | hn)
    · exact hflagged.2 n hn
    · rw [hn] at hflagged
      cases hflagged.1
  · intro c hc
    rw [hsound.added hflagged.1] at hc
    cases hc

/-- A move of the worker to a point where nothing is known about the loop. -/
theorem Progress.leave {cfg : Config} {w w' : World} {l : List Effect} (hI : Progress cfg w)
    (hsound : SoundAt w' 0) (hlog : w'.log = w.log ++ l)
    (hcheckpoints : w'.checkpoints = w.checkpoints)
    (hbelow : (w'.workers 0).pc.below cfg.steps.length = 0)
    (hflagged : (w'.workers 0).pc.holdsCheckpoint = false ∧
      ∀ n, (w'.workers 0).pc ≠ .writeCheckpoint n)
    (hawaits : ∀ j, ¬ AwaitsStep cfg j (w.workers 0).pc) : Progress cfg w' := by
  refine hI.proceed hsound hlog hcheckpoints ?_ ⟨hflagged.1, ?_⟩ hawaits
  · rw [hbelow]
    exact Nat.zero_le _
  · exact fun n hn => absurd hn (hflagged.2 n)

theorem awaitsStep_of_ne {cfg : Config} {j : Nat} {pc : Pc} (hexec : ∀ n, pc ≠ .execute n)
    (hpublish : ∀ n, pc ≠ .publishStep n .global) : ¬ AwaitsStep cfg j pc := by
  rintro ⟨h | h, -⟩
  · exact hexec j h
  · exact hpublish j h

/-- The start index lies behind the last committed checkpoint. -/
theorem Progress.below_startIndex {cfg : Config} {w : World} (hI : Progress cfg w)
    (hawaits : ∀ j, ¬ AwaitsStep cfg j (w.workers 0).pc) :
    ∀ j < startIndex (CheckpointManager.getLatest w.checkpoints), executed w j := by
  intro j hj
  cases hlatest : CheckpointManager.getLatest w.checkpoints with
  | none =>
    rw [hlatest] at hj
    exact absurd hj (Nat.not_lt_zero j)
  | some c =>
    rw [hlatest] at hj
    have hle : j ≤ c.stepIndex := Nat.lt_succ_iff.mp hj
    have hmem := CheckpointManager.getLatest_mem hlatest
    exact (hI.checkpoints c hmem j hle).resolve_right (hawaits j)

theorem progress_ran {cfg : Config} {w w' : World} (hI : Progress cfg w)
    (hG : withinCost cfg (w.workers 0)) (h : Ran cfg w 0 w') : Progress cfg w' := by
  have hsound := soundAt_ran hI.sound h
  have hloop := hI.loop
  have hadded := hI.sound.added
  cases h with
  | readTerminal hpc | read hpc | refused hpc | acquired hpc | setupRaises hpc
  | refreshStops hpc | doneRaises hpc | pausedRaises hpc | release hpc | flushPaused hpc
  | closeRaised hpc =>
    refine hI.leave hsound (List.append_nil _).symm rfl ?_ ?_ fun j => awaitsStep_of_ne ?_ ?_ <;>
      simp [Pc.below, Pc.holdsCheckpoint, hpc]
  | closeReturned hpc | commitPaused hpc | commitCompleted hpc =>
    rw [hpc] at hadded
    refine hI.leave hsound (List.append_nil _).symm ?_ ?_ ?_ fun j => awaitsStep_of_ne ?_ ?_ <;>
      simp [Pc.below, Pc.holdsCheckpoint, hpc, hadded rfl]
  | publishPaused hpc hnext =>
    rcases hnext with rfl | rfl <;>
      refine hI.leave hsound rfl rfl ?_ ?_ fun j => awaitsStep_of_ne ?_ ?_ <;>
      simp [Pc.below, Pc.holdsCheckpoint, hpc]
  | setup hpc =>
    have hawaits : ∀ j, ¬ AwaitsStep cfg j (w.workers 0).pc := fun j =>
      awaitsStep_of_ne (by simp [hpc]) (by simp [hpc])
    rw [hpc] at hadded
    refine hI.advance hsound (List.append_nil _).symm rfl ?_ ?_ ?_
      fun j hj => absurd hj (hawaits j)
    · simpa [Pc.below, executed] using hI.below_startIndex hawaits
    · simp
    · simp [hadded rfl]
  | flushRunning hpc | flushCompleted hpc =>
    refine hI.proceed hsound (List.append_nil _).symm rfl ?_ ?_ fun j => awaitsStep_of_ne ?_ ?_ <;>
      simp [Pc.below, Pc.holdsCheckpoint, hpc]
  | publishStarted hpc hnext | publishCompleted hpc hnext =>
    rcases hnext with rfl | rfl <;>
      refine hI.proceed hsound rfl rfl ?_ ?_ fun j => awaitsStep_of_ne ?_ ?_ <;>
      simp [Pc.below, Pc.holdsCheckpoint, hpc]
  | @commitRunning start hpc =>
    have hle := below_next cfg start
    refine hI.proceed hsound (List.append_nil _).symm rfl ?_ ?_ fun j => awaitsStep_of_ne ?_ ?_
    · rw [hpc]
      exact hle
    · rcases next_cases cfg start with hn | hn <;> simp [hn, Pc.holdsCheckpoint]
    all_goals simp [hpc]
  | @flushStep n hpc =>
    have hle := below_next cfg (n + 1)
    refine hI.proceed hsound (List.append_nil _).symm rfl ?_ ?_ fun j => awaitsStep_of_ne ?_ ?_
    · rw [hpc]
      exact hle
    · rcases next_cases cfg (n + 1) with hn | hn <;> simp [hn, Pc.holdsCheckpoint]
    all_goals simp [hpc]
  | @refresh n hpc =>
    refine hI.proceed hsound rfl rfl ?_ ?_ fun j => awaitsStep_of_ne ?_ ?_
    · by_cases hflag : CheckpointManager.shouldCheckpoint (cfg.stepConfig n) <;>
        simp [Pc.below, hflag, hpc]
    · by_cases hflag : CheckpointManager.shouldCheckpoint (cfg.stepConfig n)
      · refine ⟨by simp [hflag, Pc.holdsCheckpoint], fun m hm => ?_⟩
        obtain rfl : n = m := by simpa [hflag] using hm
        exact hflag
      · simp [hflag, Pc.holdsCheckpoint]
    all_goals simp [hpc]
  | @writeCheckpoint n hpc =>
    rw [hpc] at hadded hloop
    refine hI.advance hsound rfl rfl ?_ ?_ ?_ fun j hj =>
      absurd hj (awaitsStep_of_ne (by simp [hpc]) (by simp [hpc]))
    · exact fun j hj => executed_of_append rfl (hloop j (by simpa [Pc.below] using hj))
    · intro m hm
      obtain rfl : n = m := by simpa using hm
      exact hI.flagged n (.inl hpc)
    · simp [hadded rfl, CheckpointManager.write]
  | @commitCheckpoint n hpc =>
    have hflag := hI.flagged n (.inr hpc)
    refine ⟨hsound, ?_, by simp, by simp, fun c hc j hj => ?_⟩
    · rw [hpc] at hloop
      simpa [Pc.below, executed] using hloop
    · rcases List.mem_append.mp hc with hold | hnew
      · refine (hI.checkpoints c hold j hj).imp id fun hwait => ?_
        exact absurd hwait (awaitsStep_of_ne (by simp [hpc]) (by simp [hpc]))
      · obtain rfl : n = c.stepIndex := by simpa [hpc] using hI.added c hnew
        rcases Nat.lt_or_eq_of_le hj with hlt | rfl
        · exact .inl (hloop j (by simpa [hpc, Pc.below] using hlt))
        · exact .inr ⟨.inl (by simp), hflag⟩
  | @costExceeded n e hpc hcost =>
    refine hI.leave hsound (List.append_nil _).symm rfl ?_ ?_ fun j hj => ?_
    · simp [Pc.below]
    · simp [Pc.holdsCheckpoint]
    · -- A checkpointed step is within the limit.
      have hflag := awaiting_of_awaitsStep hj
      simp [withinCost, hpc, hcost, Except.isOk, Except.toBool] at hG
      simp [awaiting, hpc, hG] at hflag
  | @execute n t ctx hpc hcost =>
    rw [hpc] at hadded hloop
    refine hI.advance hsound (List.append_nil _).symm rfl ?_ ?_ ?_ fun j hj => .inr ?_
    · simpa [Pc.below, executed] using hloop
    · simp
    · simp [hadded rfl]
    · obtain rfl : n = j := by simpa [AwaitsStep, hpc] using hj.1
      exact ⟨.inr (by simp), hj.2⟩
  | @publishStep n s pc hpc hnext =>
    have hold : ∀ j < n, executed w j := by
      intro j hj
      refine hloop j ?_
      rw [hpc]
      cases s <;> simp only [Pc.below] <;> omega
    have hthis : executed ((w.record (.published s (.stepCompleted (cfg.stepConfig n).name n
        (cfg.stepCost n) (stepOutputs (cfg.stepConfig n).name)))).set 0
        ((w.workers 0).goto pc)) n := by
      cases s with
      | global => simp [executed, isStepCompleted]
      | sse => exact executed_of_append rfl (hloop n (by simp [hpc, Pc.below]))
    rw [hpc] at hadded
    refine hI.advance hsound rfl rfl ?_ ?_ ?_ fun j hj => .inl ?_
    · intro j hj
      have hle : j < n + 1 := by
        rcases hnext with rfl | rfl <;> simpa [Pc.below] using hj
      rcases Nat.lt_or_eq_of_le (Nat.lt_succ_iff.mp hle) with hlt | rfl
      · exact executed_of_append rfl (hold j hlt)
      · exact hthis
    · rcases hnext with rfl | rfl <;> simp
    · simp [hadded rfl]
    · have hj' := hj.1
      rw [hpc] at hj'
      obtain rfl : n = j := by
        rcases hj' with h | h <;> cases h
        rfl
      exact hthis

/-! ## The other moves of a serial run -/

theorem progress_moved {cfg : Config} {w w' : World} {a : Action} (hI : Progress cfg w)
    (hG : StopsElsewhere cfg w (.act a)) (ha : actor a = none ∨ actor a = some 0)
    (h : Moved cfg w a w') : Progress cfg w' := by
  rcases ha with ha | ha
  · have hframe : Frame 0 w w' := moved_frame h (by rw [ha]; simp)
    obtain ⟨hlog, hcheckpoints⟩ := moved_log_other h ha
    have hexecuted : ∀ j, executed w' j = executed w j := fun j => by simp [executed, hlog]
    refine ⟨soundAt_frame hI.sound hframe, ?_, ?_, ?_, ?_⟩
    · simpa [hexecuted, hframe.worker] using hI.loop
    · simpa [hframe.worker] using hI.flagged
    · simpa [hframe.worker] using hI.added
    · simpa [hexecuted, hframe.worker, hcheckpoints] using hI.checkpoints
  · have hsound := soundAt_moved hI.sound h ha
    cases h with
    | @run i _ h =>
      obtain rfl : i = 0 := by simpa [actor] using ha
      exact progress_ran hI hG h
    | @take i hpc =>
      obtain rfl : i = 0 := by simpa [actor] using ha
      refine hI.leave hsound (List.append_nil _).symm rfl ?_ ?_ fun j => awaitsStep_of_ne ?_ ?_ <;>
        simp [Pc.below, Pc.holdsCheckpoint, hpc]
    | @failClose i | @crash i =>
      obtain rfl : i = 0 := by simpa [actor] using ha
      refine hI.leave hsound (List.append_nil _).symm rfl ?_ ?_ fun j hj => ?_
      · simp [Pc.below]
      · simp [Pc.holdsCheckpoint]
      · exact absurd (awaiting_of_awaitsStep hj) (by simp [show awaiting cfg _ = false from hG])
    | @failDatabase i message | @fail i message =>
      obtain rfl : i = 0 := by simpa [actor] using ha
      refine hI.leave hsound (List.append_nil _).symm rfl ?_ ?_ fun j hj => ?_
      · cases (w.workers 0).pc <;> simp [Pc.below, Pc.onFail]
      · cases (w.workers 0).pc <;> simp [Pc.holdsCheckpoint, Pc.onFail]
      · exact absurd (awaiting_of_awaitsStep hj) (by simp [show awaiting cfg _ = false from hG])
    | bystander hnone _ =>
      rw [writer_of_actor ha] at hnone
      cases hnone
    | _ => cases ha

theorem progress_requeue {cfg : Config} {w w' : World} (hI : Progress cfg w)
    (h : requeue w = some w') : Progress cfg w' := by
  unfold requeue at h
  split at h
  · rename_i hidle
    cases h
    obtain ⟨hpc, -⟩ := hidle
    refine ⟨⟨?_, hI.sound.added, hI.sound.clean, ?_, ?_, ?_⟩, hI.loop, hI.flagged, hI.added,
      hI.checkpoints⟩
    · simp [hpc, Pc.inLock]
    · simp [hpc, Pc.isStarting]
    · simp [hpc, Pc.hasStarted]
    · simp
  · cases h

theorem serialStep_act {cfg : Config} {w w' : World} {a : Action}
    (h : serialStep cfg w (.act a) = some w') :
    (actor a = none ∨ actor a = some 0) ∧ step cfg w a = some w' := by
  dsimp only [serialStep] at h
  split at h
  · exact ⟨‹_›, h⟩
  · cases h

theorem progress_step {cfg : Config} {w w' : World} {a : SerialAction} (hI : Progress cfg w)
    (hG : StopsElsewhere cfg w a) (h : serialStep cfg w a = some w') : Progress cfg w' := by
  cases a with
  | requeue => exact progress_requeue hI h
  | act a =>
    obtain ⟨ha, h⟩ := serialStep_act h
    exact progress_moved hI hG ha (step_moved h)

/-! ## COMPLETED -/

/-- COMPLETED is in the row, or on its way there, only when all steps are executed. -/
structure Finished (cfg : Config) (w : World) : Prop where
  progress : Progress cfg w
  committed : w.row.committed.status = .completed → AllExecuted cfg w
  uncommitted : ∀ wr r, w.row.uncommitted = some (wr, r) → r.status = .completed →
    AllExecuted cfg w
  requests : ∀ r kind, (w.requests r).phase = .flush kind →
    (w.requests r).fsm.status ≠ .completed

theorem transition_not_completed {s : ExecutionStatus} {kind : RequestKind} {fsm : ExecutionFSM}
    (h : (ExecutionFSM.mk s).transition kind.route.trigger = .ok fsm) :
    fsm.status ≠ .completed := by
  intro hs
  cases kind <;> cases s <;> cases h <;> cases hs

theorem requests_not_completed {cfg : Config} {w w' : World} {a : Action}
    (hI : ∀ r kind, (w.requests r).phase = .flush kind → (w.requests r).fsm.status ≠ .completed)
    (h : Moved cfg w a w') (r : Nat) (kind : RequestKind)
    (hphase : (w'.requests r).phase = .flush kind) : (w'.requests r).fsm.status ≠ .completed := by
  by_cases hr : writer a = some (.request r)
  · cases h with
    | conflict => exact hI r kind hphase
    | @request r' _ _ _ hfsm =>
      obtain rfl : r' = r := by simpa [writer] using hr
      simpa using transition_not_completed hfsm
    | @flush r' | @commitResume r' | @commit r' | @enqueue r' | @enqueueFails r' | @abort r' =>
      obtain rfl : r' = r := by simpa [writer] using hr
      simp at hphase
    | bystander hnone _ =>
      rw [hr] at hnone
      cases hnone
    | _ => cases hr
  · rw [moved_requests_other h hr] at hphase ⊢
    exact hI r kind hphase

/-- Only the last flush of the worker writes COMPLETED. -/
theorem flushing_completed {cfg : Config} {w : World} {a : Action} {wr : Writer} {o : Orm}
    (hI : Finished cfg w) (ha : actor a = none ∨ actor a = some 0)
    (hflush : flushing w a = some (wr, o)) (hdirty : o.current.status ≠ o.loaded.status)
    (hs : o.current.status = .completed) : AllExecuted cfg w := by
  cases a <;> simp only [flushing, reduceCtorEq] at hflush
  case run i =>
    obtain rfl : i = 0 := by simpa [actor] using ha
    have hloop := hI.progress.loop
    split at hflush <;> cases hflush
    · simp at hs
    · exact absurd hI.progress.sound.clean hdirty
    · rename_i hpc
      simpa [hpc, Pc.below, AllExecuted] using hloop
    · simp at hs
  case flush r =>
    split at hflush <;> cases hflush
    rename_i kind hphase
    rw [Orm.assign_current, route_assign_status] at hs
    exact absurd hs (hI.requests r kind hphase)

theorem view_completed {cfg : Config} {w : World} (hI : Finished cfg w) {wr : Writer}
    (hs : (w.row.view wr).status = .completed) : AllExecuted cfg w := by
  by_cases h : ∃ r, w.row.uncommitted = some (wr, r)
  · obtain ⟨r, hr⟩ := h
    rw [Versioned.view_own hr] at hs
    exact hI.uncommitted wr r hr hs
  · rw [Versioned.view_eq_committed fun r hr => h ⟨r, hr⟩] at hs
    exact hI.committed hs

theorem allExecuted_of_append {cfg : Config} {w w' : World} (hlog : ∃ l, w'.log = w.log ++ l)
    (h : AllExecuted cfg w) : AllExecuted cfg w' := by
  obtain ⟨l, hl⟩ := hlog
  exact fun n hn => executed_of_append hl (h n hn)

theorem finished_act {cfg : Config} {w w' : World} {a : Action} (hI : Finished cfg w)
    (ha : actor a = none ∨ actor a = some 0) (h : Moved cfg w a w') (hI' : Progress cfg w') :
    Finished cfg w' := by
  have hmono : AllExecuted cfg w → AllExecuted cfg w' := allExecuted_of_append (moved_log h)
  have hrequests := requests_not_completed hI.requests h
  rcases moved_row h with hrow | ⟨wr, o, hflush, hrow⟩ | ⟨wr, hrow⟩ | ⟨wr, hrow⟩
  · refine ⟨hI', ?_, ?_, hrequests⟩
    · rw [hrow]
      exact fun hs => hmono (hI.committed hs)
    · rw [hrow]
      exact fun o r hr hs => hmono (hI.uncommitted o r hr hs)
  · obtain ⟨hc, hnew⟩ := flushRow_eq_some hrow
    refine ⟨hI', ?_, fun wr' r hr hs => hmono ?_, hrequests⟩
    · rw [hc]
      exact fun hs => hmono (hI.committed hs)
    · rcases hnew with hsame | ⟨hu, -⟩
      · rw [hsame] at hr
        exact hI.uncommitted wr' r hr hs
      · have hpatch : o.patch (w.row.view wr) = r := by
          rw [hu] at hr
          cases hr
          rfl
        rw [← hpatch] at hs
        by_cases hdirty : o.current.status = o.loaded.status
        · rw [Orm.patch_status_of_clean hdirty] at hs
          exact view_completed hI hs
        · rw [Orm.patch_status_of_dirty hdirty] at hs
          exact flushing_completed hI ha hflush hdirty hs
  · rcases Versioned.commit_cases w.row wr with ⟨r, hr, hcommit⟩ | ⟨-, hcommit⟩
    · rw [hcommit] at hrow
      refine ⟨hI', ?_, ?_, hrequests⟩
      · rw [hrow]
        exact fun hs => hmono (hI.uncommitted wr r hr hs)
      · rw [hrow]
        exact fun o r' hr' => by cases hr'
    · rw [hcommit] at hrow
      refine ⟨hI', ?_, ?_, hrequests⟩
      · rw [hrow]
        exact fun hs => hmono (hI.committed hs)
      · rw [hrow]
        exact fun o r hr hs => hmono (hI.uncommitted o r hr hs)
  · refine ⟨hI', ?_, ?_, hrequests⟩
    · rw [hrow, Versioned.rollback_committed]
      exact fun hs => hmono (hI.committed hs)
    · rw [hrow]
      exact fun o r hr hs => hmono (hI.uncommitted o r (Versioned.rollback_eq_some hr).1 hs)

theorem finished_step {cfg : Config} {w w' : World} {a : SerialAction} (hI : Finished cfg w)
    (hG : StopsElsewhere cfg w a) (h : serialStep cfg w a = some w') : Finished cfg w' := by
  have hI' := progress_step hI.progress hG h
  cases a with
  | act a =>
    obtain ⟨ha, h⟩ := serialStep_act h
    exact finished_act hI ha (step_moved h) hI'
  | requeue =>
    dsimp only [serialStep] at h
    unfold requeue at h
    split at h
    · cases h
      exact ⟨hI', by simp, by simp, hI.requests⟩
    · cases h

theorem finished_initial (cfg : Config) (inputs : List (String × Core.Json)) :
    Finished cfg (World.initial inputs) := by
  refine ⟨⟨sound_initial inputs 0, ?_, ?_, ?_, ?_⟩, ?_, ?_, fun r kind hphase => ?_⟩
  · simp [World.initial, Pc.below]
  · simp [World.initial]
  · simp [World.initial]
  · simp [World.initial]
  · simp [World.initial]
  · simp [World.initial]
  · by_cases hr : r = 0
    · subst hr
      simp [World.initial] at hphase
    · simp [World.initial, hr] at hphase

/-- When no run stops between a checkpoint and its step, a COMPLETED execution has
executed every step. -/
theorem completed_executes_all (cfg : Config) (inputs : List (String × Core.Json))
    (as : List SerialAction) (w : World)
    (hG : Along (serialStep cfg) (fun w a _ => StopsElsewhere cfg w a) (World.initial inputs) as)
    (hrun : run (serialStep cfg) (World.initial inputs) as = some w)
    (hdone : w.row.committed.status = .completed) : AllExecuted cfg w :=
  (invariant_run (fun _ _ _ hI hG hs => finished_step hI hG hs) (finished_initial cfg inputs) hG
    hrun).committed hdone

/-! ## A crash right after the checkpoint -/

def oneCheckpointedStep : Config where
  definitionSnapshot := some ⟨[⟨{ name := "only", checkpointBefore := true }⟩]⟩
  workflowDefinition := ⟨[]⟩

/-- The worker commits the checkpoint of step 0 and dies before the step; the next
run starts at step 1, which is the end. -/
def crashAfterCheckpoint : List SerialAction :=
  (.enqueue 0 :: deliver 10 ++ [Action.crash 0]).map .act ++ [.requeue] ++
    (deliver 11).map .act

theorem checkpointed_step_skipped :
    ∃ w, run (serialStep oneCheckpointedStep) (World.initial []) crashAfterCheckpoint = some w ∧
      w.row.committed.status = .completed ∧ ¬ AllExecuted oneCheckpointedStep w := by
  exact exists_of_any (by decide +kernel)

/-- A crash before the commit of the checkpoint: the next run executes the step. -/
def crashBeforeCheckpoint : List SerialAction :=
  (.enqueue 0 :: deliver 9 ++ [Action.crash 0]).map .act ++ [.requeue] ++
    (deliver 20).map .act

theorem completed_executes_all_retried :
    ∃ w, run (serialStep oneCheckpointedStep) (World.initial []) crashBeforeCheckpoint = some w ∧
      AllExecuted oneCheckpointedStep w := by
  have hend : (run (serialStep oneCheckpointedStep) (World.initial []) crashBeforeCheckpoint).any
      fun w => w.row.committed.status = .completed := by
    decide +kernel
  obtain ⟨w, hrun, hw⟩ := exists_of_any hend
  exact ⟨w, hrun, completed_executes_all oneCheckpointedStep [] _ w (by decide +kernel) hrun
    hw⟩

end Sutram.Workflow
