/-
What the steps of one execution cost.

Each run counts from zero in a tracker of its own and enforces the limit there, while
the stored context goes on from the last run.  The published costs, the tracker and the
context agree as long as every run starts with nothing spent.
-/
import Sutram.Workflow.Sessions

namespace Sutram.Workflow

open Sutram.Core Runs

/-! ## The three totals -/

/-- What an entry of the log adds: a step counts when its completion is on the global
stream, the first that `_publish` writes. -/
def Effect.cost : Effect → ℚ
  | .published .global (.stepCompleted _ _ costUsd _) => costUsd
  | _ => 0

/-- The costs of all steps whose completion was published, over all runs. -/
def spent (w : World) : ℚ := (w.log.map Effect.cost).sum

/-- The limit holds for all runs together, the completed event tells their sum and the
total in the row it was flushed with, and the commit stores that total. -/
structure CostsAgree (cfg : Config) (w : World) (a : Action) (w' : World) : Prop where
  within : spent w' ≤ cfg.maxPerExecutionUsd
  event : ∀ i s status total steps, a = .run i →
    w'.log = w.log ++ [.published s (.completed status total steps)] →
    total = spent w' ∧ (w'.row.view (.worker i)).context.totalCostUsd = total
  stored : ∀ i, a = .run i → (w.workers i).pc = .commitCompleted →
    w'.row.committed.context.totalCostUsd = spent w'

/-- A run that the FSM lets start finds nothing spent: not in the streams, not in the
row, and not in the row as it was read before the lock. -/
def StartsAfresh (w : World) : Action → Prop
  | .run i =>
    (w.workers i).pc = .setup ∧ (w.workers i).execution.current.status = .pending →
      spent w = 0 ∧ w.row.committed.context.totalCostUsd = 0 ∧
        (w.workers i).execution.current.context.totalCostUsd = 0
  | _ => True

instance decidableStartsAfresh (w : World) : ∀ a, Decidable (StartsAfresh w a)
  | .run _ => inferInstanceAs (Decidable (_ ∧ _ → _ ∧ _ ∧ _))
  | .take _ | .fail _ _ | .crash _ | .request _ _ | .flush _ | .commit _ | .enqueue _
  | .enqueueFails _ | .abort _ | .scan _ | .pod _ | .podCrash _ | .redeliver | .expire
  | .tick => isTrue trivial

/-! ## What is spent -/

/-- The cost that the worker's next operation publishes. -/
def Pc.owes (cfg : Config) : Pc → ℚ
  | .publishStep n .global => cfg.stepCost n
  | _ => 0

theorem spent_eq_of_log {w w' : World} (h : w'.log = w.log) : spent w' = spent w := by
  rw [spent, h, spent]

theorem spent_set (w : World) (i : Nat) (k : Worker) : spent (w.set i k) = spent w := rfl

theorem ran_spent {cfg : Config} {w w' : World} {i : Nat} (h : Ran cfg w i w') :
    spent w' = spent w + (w.workers i).pc.owes cfg := by
  cases h with
  | @publishStep n s pc hpc => cases s <;> simp [spent, Effect.cost, Pc.owes, hpc]
  | publishStarted hpc | publishCompleted hpc | publishPaused hpc | refresh hpc
  | writeCheckpoint hpc =>
    simp [spent, Effect.cost, Pc.owes, hpc]
  | _ hpc => simp [spent, Pc.owes, hpc]

namespace CostTracker

theorem add_eq_ok {t t' : CostTracker} {cost : ℚ} (h : t.add cost = .ok t') :
    t'.maxPerExecution = t.maxPerExecution ∧ t'.total = t.total + cost ∧
      t'.total ≤ t.maxPerExecution := by
  unfold add at h
  split at h
  · cases h
  · rename_i hle
    split at h <;> cases h
    exact ⟨rfl, rfl, not_lt.mp hle⟩

end CostTracker

/-- A step within the limits: its cost goes to the tracker and to the context. -/
theorem runWorker_execute {cfg : Config} {w w' : World} {i n : Nat} {t : CostTracker}
    (hpc : (w.workers i).pc = .execute n)
    (hcost : (w.workers i).costTracker.add (cfg.stepCost n) = .ok t)
    (h : runWorker cfg w i = some w') :
    ∃ ctx, ctx.totalCostUsd = (w.workers i).ctx.totalCostUsd + cfg.stepCost n ∧
      w' = w.set i { w.workers i with
        costTracker := t
        ctx := ctx
        execution := (w.workers i).execution.assign fun row => { row with context := ctx }
        pc := .publishStep n .global } := by
  simp only [runWorker, hpc, hcost] at h
  cases h
  exact ⟨_, rfl, rfl⟩

/-- A flush writes the context when the session has changed it. -/
theorem flushRow_context {row row' : Versioned Writer ExecutionRow} {wr : Writer} {o : Orm}
    (h : flushRow row wr o = some row') :
    (row'.view wr).context =
      patchColumn o.loaded.context o.current.context (row.view wr).context := by
  unfold flushRow at h
  split at h
  · rename_i hclean
    cases h
    simp [patchColumn, hclean]
  · obtain ⟨-, hu, -⟩ := Versioned.update_eq_some h
    rw [Versioned.view_own hu]
    rfl

/-! ## The invariant -/

namespace Pc

/-- Before the first flush of a run. -/
def isFresh : Pc → Bool
  | .idle | .read | .acquire | .setup | .flushRunning _ => true
  | _ => false

/-- Behind the first flush of a run, and inside the lock. -/
def ownsRow : Pc → Bool
  | .idle | .read | .acquire | .setup | .flushRunning _ | .release _ | .close _ => false
  | _ => true

/-- The run has its tracker and has not been stopped. -/
def isCounting : Pc → Bool
  | .flushRunning _ | .publishStarted _ _ | .commitRunning _ | .refresh _ | .writeCheckpoint _
  | .commitCheckpoint _ | .execute _ | .publishStep _ _ | .flushStep _ | .flushCompleted
  | .publishCompleted _ | .commitCompleted => true
  | _ => false

/-- Behind the refresh, up to the flush of the step. -/
def isLoaded : Pc → Bool
  | .writeCheckpoint _ | .commitCheckpoint _ | .execute _ | .publishStep _ _
  | .flushStep _ => true
  | _ => false

/-- The context is assigned and not yet flushed. -/
def inStep : Pc → Bool
  | .publishStep _ _ | .flushStep _ => true
  | _ => false

/-- The status is about to change, and the context is as it was loaded. -/
def isClean : Pc → Bool
  | .acquire | .setup | .flushRunning _ | .publishStarted _ _ | .commitRunning _
  | .flushCompleted => true
  | _ => false

/-- The session is about to be committed on its way out. -/
def isLeaving : Pc → Bool
  | .release .returned | .close .returned => true
  | _ => false

theorem inLock_of_ownsRow {pc : Pc} (h : pc.ownsRow) : pc.inLock := by
  cases pc <;> first | rfl | cases h

theorem inLock_of_isCounting {pc : Pc} (h : pc.isCounting) : pc.inLock := by
  cases pc <;> first | rfl | cases h

theorem ownsRow_of_isLoaded {pc : Pc} (h : pc.isLoaded) : pc.ownsRow := by
  cases pc <;> first | rfl | cases h

theorem isCounting_of_isLoaded {pc : Pc} (h : pc.isLoaded) : pc.isCounting := by
  cases pc <;> first | rfl | cases h

theorem isCounting_of_inStep {pc : Pc} (h : pc.inStep) : pc.isCounting := by
  cases pc <;> first | rfl | cases h

theorem isClean_eq_false {pc : Pc} (hfresh : pc.isFresh = false)
    (hcounting : pc.isCounting = false) : pc.isClean = false := by
  cases pc <;> first | rfl | cases hfresh; done | cases hcounting

theorem owes_of_not_inStep {cfg : Config} {pc : Pc} (h : pc.inStep = false) :
    pc.owes cfg = 0 := by
  cases pc <;> first | rfl | cases h

end Pc

/-- The tracker and the context of a run are ahead of the streams by the step in hand,
and the row of a run is behind by no more. -/
structure CostsAt (cfg : Config) (w : World) (i : Nat) : Prop where
  fresh : (w.workers i).pc.isFresh → ∀ r, w.row.uncommitted ≠ some (.worker i, r)
  clean : (w.workers i).pc.isClean →
    (w.workers i).execution.current.context = (w.workers i).execution.loaded.context
  limit : (w.workers i).pc.isCounting →
    (w.workers i).costTracker.maxPerExecution = cfg.maxPerExecutionUsd ∧
      (w.workers i).costTracker.total ≤ cfg.maxPerExecutionUsd
  tracker : (w.workers i).pc.isCounting →
    (w.workers i).costTracker.total = spent w + (w.workers i).pc.owes cfg
  ctx : (w.workers i).pc.isCounting →
    (w.workers i).ctx.totalCostUsd = (w.workers i).costTracker.total
  stored : (w.workers i).pc.isCounting → (w.workers i).pc.inStep = false →
    (w.row.view (.worker i)).context.totalCostUsd = spent w
  loaded : (w.workers i).pc.isLoaded →
    (w.workers i).execution.loaded.context = (w.row.view (.worker i)).context
  assigned : (w.workers i).pc.inStep →
    (w.workers i).execution.current.context = (w.workers i).ctx
  leaving : (w.workers i).pc.isLeaving → ∀ r, w.row.uncommitted = some (.worker i, r) →
    r.context.totalCostUsd = spent w

/-- While a run is behind its first flush, no other worker has an uncommitted row. -/
def OneUpdate (w : World) : Prop :=
  ∀ i, (w.workers i).pc.ownsRow → ∀ j r, w.row.uncommitted = some (.worker j, r) → j = i

structure Costs (cfg : Config) (w : World) : Prop where
  sound : Sound w
  sessions : Sessions w
  within : spent w ≤ cfg.maxPerExecutionUsd
  alone : OneUpdate w
  costs : ∀ i, CostsAt cfg w i

/-! ## The worker that moves -/

/-- A worker that is not counting. -/
theorem CostsAt.idle {cfg : Config} {w : World} {i : Nat}
    (hcounting : (w.workers i).pc.isCounting = false)
    (hfresh : (w.workers i).pc.isFresh → ∀ r, w.row.uncommitted ≠ some (.worker i, r))
    (hclean : (w.workers i).pc.isClean →
      (w.workers i).execution.current.context = (w.workers i).execution.loaded.context)
    (hleaving : (w.workers i).pc.isLeaving → ∀ r, w.row.uncommitted = some (.worker i, r) →
      r.context.totalCostUsd = spent w) : CostsAt cfg w i := by
  have hloaded : (w.workers i).pc.isLoaded = false := by
    by_contra h
    rw [Pc.isCounting_of_isLoaded (eq_true_of_ne_false h)] at hcounting
    cases hcounting
  have hstep : (w.workers i).pc.inStep = false := by
    by_contra h
    rw [Pc.isCounting_of_inStep (eq_true_of_ne_false h)] at hcounting
    cases hcounting
  refine ⟨hfresh, hclean, ?_, ?_, ?_, ?_, ?_, ?_, hleaving⟩ <;> simp [hcounting, hloaded, hstep]

/-- A worker about whose totals nothing is claimed any more. -/
theorem CostsAt.leave {cfg : Config} {w : World} {i : Nat}
    (hcounting : (w.workers i).pc.isCounting = false) (hfresh : (w.workers i).pc.isFresh = false)
    (hleaving : (w.workers i).pc.isLeaving → ∀ r, w.row.uncommitted = some (.worker i, r) →
      r.context.totalCostUsd = spent w) : CostsAt cfg w i := by
  refine .idle hcounting (by simp [hfresh]) ?_ hleaving
  simp [Pc.isClean_eq_false hfresh hcounting]

/-- A move between two operations of a run that leaves its counters as they are. -/
theorem CostsAt.move {cfg : Config} {w w' : World} {i : Nat} (hI : CostsAt cfg w i)
    (hfrom : (w.workers i).pc.isCounting)
    (hspent : spent w' = spent w + (w.workers i).pc.owes cfg)
    (htracker : (w'.workers i).costTracker = (w.workers i).costTracker)
    (hctx : (w'.workers i).ctx = (w.workers i).ctx)
    (howes : (w'.workers i).pc.owes cfg = 0)
    (hfresh : (w'.workers i).pc.isFresh = false)
    (hleaving : (w'.workers i).pc.isLeaving = false)
    (hclean : (w'.workers i).pc.isClean →
      (w'.workers i).execution.current.context = (w'.workers i).execution.loaded.context)
    (hstored : (w'.workers i).pc.inStep = false →
      (w'.row.view (.worker i)).context.totalCostUsd = spent w')
    (hloaded : (w'.workers i).pc.isLoaded →
      (w'.workers i).execution.loaded.context = (w'.row.view (.worker i)).context)
    (hassigned : (w'.workers i).pc.inStep →
      (w'.workers i).execution.current.context = (w'.workers i).ctx) : CostsAt cfg w' i := by
  refine ⟨by simp [hfresh], hclean, ?_, ?_, ?_, fun _ => hstored, hloaded, hassigned,
    by simp [hleaving]⟩
  · rw [htracker]
    exact fun _ => hI.limit hfrom
  · rw [htracker, howes, add_zero, hspent]
    exact fun _ => hI.tracker hfrom
  · rw [htracker, hctx]
    exact fun _ => hI.ctx hfrom

theorem ran_spent_of_not_inStep {cfg : Config} {w w' : World} {i : Nat} (h : Ran cfg w i w')
    (hpc : (w.workers i).pc.inStep = false) : spent w' = spent w := by
  rw [ran_spent h, Pc.owes_of_not_inStep hpc, add_zero]

/-- An operation that leaves the context in the row stores what is spent, as before. -/
theorem CostsAt.stored_of_view {cfg : Config} {w w' : World} {i : Nat} (hI : CostsAt cfg w i)
    (h : Ran cfg w i w') (hfrom : (w.workers i).pc.isCounting)
    (hstep : (w.workers i).pc.inStep = false)
    (hview : (w'.row.view (.worker i)).context = (w.row.view (.worker i)).context) :
    (w'.row.view (.worker i)).context.totalCostUsd = spent w' := by
  rw [hview, ran_spent_of_not_inStep h hstep]
  exact hI.stored hfrom hstep

/-- A run starts: its tracker is at zero, and so is everything else. -/
theorem CostsAt.setup {cfg : Config} {w : World} {i : Nat} (hI : CostsAt cfg w i)
    (hlimit : 0 ≤ cfg.maxPerExecutionUsd) (hpc : (w.workers i).pc = .setup)
    (hnone : spent w = 0) (hcommitted : w.row.committed.context.totalCostUsd = 0)
    (hcached : (w.workers i).execution.current.context.totalCostUsd = 0) :
    CostsAt cfg (w.set i { w.workers i with
      ctx := resumeContext (w.workers i).execution.current.context
        (CheckpointManager.getLatest w.checkpoints)
      costTracker := ⟨cfg.maxPerExecutionUsd, cfg.maxPerDayUsd, 0, 0⟩
      fsm := ⟨.running⟩
      pc := .flushRunning (startIndex (CheckpointManager.getLatest w.checkpoints)) }) i := by
  have hclean := hI.clean (by rw [hpc]; rfl)
  have hfresh := hI.fresh (by rw [hpc]; rfl)
  refine ⟨fun _ => hfresh, fun _ => by simpa using hclean, fun _ => ?_, fun _ => ?_, fun _ => ?_,
    fun _ _ => ?_, ?_, ?_, ?_⟩
  · simpa using hlimit
  · rw [spent_set, hnone]
    simp [Pc.owes]
  · cases CheckpointManager.getLatest w.checkpoints <;> simpa [resumeContext] using hcached
  · rw [spent_set, hnone, ← hcommitted]
    exact congrArg (fun r => r.context.totalCostUsd) (Versioned.view_eq_committed hfresh)
  · simp [Pc.isLoaded]
  · simp [Pc.inStep]
  · simp [Pc.isLeaving]

/-- A step within the limits: the tracker and the context are ahead by its cost. -/
theorem CostsAt.execute {cfg : Config} {w w' : World} {i n : Nat} {t : CostTracker}
    (hI : CostsAt cfg w i) (hpc : (w.workers i).pc = .execute n)
    (hcost : (w.workers i).costTracker.add (cfg.stepCost n) = .ok t)
    (h : runWorker cfg w i = some w') : CostsAt cfg w' i := by
  obtain ⟨ctx', hctx', rfl⟩ := runWorker_execute hpc hcost h
  obtain ⟨hmax, htotal, hle⟩ := CostTracker.add_eq_ok hcost
  obtain ⟨hlimit, -⟩ := hI.limit (by rw [hpc]; rfl)
  have htracker := hI.tracker (by rw [hpc]; rfl)
  have hctx := hI.ctx (by rw [hpc]; rfl)
  rw [Pc.owes_of_not_inStep (by rw [hpc]; rfl), add_zero] at htracker
  refine ⟨by simp [Pc.isFresh], by simp [Pc.isClean], fun _ => ?_, fun _ => ?_, fun _ => ?_,
    by simp [Pc.inStep], fun _ => ?_, fun _ => ?_, by simp [Pc.isLeaving]⟩
  · simpa [hmax, hlimit] using hle
  · rw [spent_set]
    simp [htotal, htracker, Pc.owes]
  · simp [htotal, hctx', hctx]
  · simpa using hI.loaded (by rw [hpc]; rfl)
  · simp

theorem costsAt_ran {cfg : Config} {w w' : World} {i : Nat} (hlimit : 0 ≤ cfg.maxPerExecutionUsd)
    (hI : CostsAt cfg w i) (hG : StartsAfresh w (.run i)) (h : runWorker cfg w i = some w') :
    CostsAt cfg w' i := by
  have hran := runWorker_ran h
  have hspent := ran_spent hran
  have hkeep := ran_spent_of_not_inStep hran
  have hview := hI.stored_of_view hran
  have hfresh := hI.fresh
  have hclean := hI.clean
  have hstored := hI.stored
  have hloaded := hI.loaded
  have hassigned := hI.assigned
  cases hran with
  | readTerminal hpc | refused hpc =>
    refine .leave (by simp [Pc.isCounting]) (by simp [Pc.isFresh]) fun _ r hr => ?_
    exact absurd hr (hfresh (by rw [hpc]; rfl) r)
  | read hpc =>
    refine .idle (by simp [Pc.isCounting]) (fun _ => hfresh (by rw [hpc]; rfl)) ?_ ?_ <;>
      simp [Pc.isLeaving]
  | acquired hpc =>
    refine .idle (by simp [Pc.isCounting]) (fun _ => hfresh (by rw [hpc]; rfl)) (fun _ => ?_) ?_
    · simpa using hclean (by rw [hpc]; rfl)
    · simp [Pc.isLeaving]
  | setupRaises hpc | doneRaises hpc | costExceeded hpc | pausedRaises hpc | flushPaused hpc =>
    exact .leave (by simp [Pc.isCounting]) (by simp [Pc.isFresh]) (by simp [Pc.isLeaving])
  | publishPaused hpc hnext =>
    rcases hnext with rfl | rfl <;>
      exact .leave (by simp [Pc.isCounting]) (by simp [Pc.isFresh]) (by simp [Pc.isLeaving])
  | commitCompleted hpc | commitPaused hpc =>
    refine .leave (by simp [Pc.isCounting]) (by simp [Pc.isFresh]) fun _ r hr => ?_
    exact absurd hr (Versioned.commit_uncommitted _ _ r)
  | closeReturned hpc =>
    refine .idle (by simp [Pc.isCounting]) (fun _ => Versioned.commit_uncommitted _ _) ?_ ?_ <;>
      simp [Pc.isClean, Pc.isLeaving]
  | closeRaised hpc =>
    refine .idle (by simp [Pc.isCounting]) (fun _ => Versioned.rollback_uncommitted _ _) ?_ ?_ <;>
      simp [Pc.isClean, Pc.isLeaving]
  | @release o hpc =>
    refine .leave (by simp [Pc.isCounting]) (by simp [Pc.isFresh]) fun hout r hr => ?_
    rw [hkeep (by rw [hpc]; rfl)]
    refine hI.leaving ?_ r hr
    rw [hpc]
    cases o with
    | returned => rfl
    | raised => simp [Pc.isLeaving] at hout
  | refreshStops hpc =>
    refine .leave (by simp [Pc.isCounting]) (by simp [Pc.isFresh]) fun _ r hr => ?_
    have hr' : w.row.uncommitted = some (.worker i, r) := hr
    rw [hkeep (by rw [hpc]; rfl), ← hstored (by rw [hpc]; rfl) (by rw [hpc]; rfl),
      Versioned.view_own hr']
  | setup hpc hpending =>
    obtain ⟨hnone, hcommitted, hcached⟩ := hG ⟨hpc, hpending⟩
    exact hI.setup hlimit hpc hnone hcommitted hcached
  | execute hpc hcost => exact hI.execute hpc hcost h
  | @publishStep n s pc hpc hnext =>
    have hloaded := hloaded (by rw [hpc]; rfl)
    have hassigned := hassigned (by rw [hpc]; rfl)
    rcases hnext with rfl | rfl <;>
      refine hI.move (by rw [hpc]; rfl) hspent ?_ ?_ ?_ ?_ ?_ ?_ ?_ (fun _ => ?_) (fun _ => ?_) <;>
      simp [hloaded, hassigned, Pc.owes, Pc.isFresh, Pc.isLeaving, Pc.isClean, Pc.inStep]
  | publishStarted hpc hnext =>
    have hclean := hclean (by rw [hpc]; rfl)
    have hview := hview (by rw [hpc]; rfl) (by rw [hpc]; rfl) rfl
    rcases hnext with rfl | rfl <;>
      refine hI.move (by rw [hpc]; rfl) hspent ?_ ?_ ?_ ?_ ?_ (fun _ => ?_) (fun _ => hview)
        ?_ ?_ <;>
      simp [hclean, Pc.owes, Pc.isFresh, Pc.isLeaving, Pc.isLoaded, Pc.inStep]
  | publishCompleted hpc hnext =>
    have hview := hview (by rw [hpc]; rfl) (by rw [hpc]; rfl) rfl
    rcases hnext with rfl | rfl <;>
      refine hI.move (by rw [hpc]; rfl) hspent ?_ ?_ ?_ ?_ ?_ ?_ (fun _ => hview) ?_ ?_ <;>
      simp [Pc.owes, Pc.isFresh, Pc.isLeaving, Pc.isClean, Pc.isLoaded, Pc.inStep]
  | writeCheckpoint hpc =>
    have hview := hview (by rw [hpc]; rfl) (by rw [hpc]; rfl) rfl
    have hloaded := hloaded (by rw [hpc]; rfl)
    refine hI.move (by rw [hpc]; rfl) hspent ?_ ?_ ?_ ?_ ?_ ?_ (fun _ => hview) (fun _ => ?_) ?_
    case refine_7 => simpa using hloaded
    all_goals simp [Pc.owes, Pc.isFresh, Pc.isLeaving, Pc.isClean, Pc.inStep]
  | @commitRunning start hpc =>
    have hclean := hclean (by rw [hpc]; rfl)
    have hview := hview (by rw [hpc]; rfl) (by rw [hpc]; rfl)
      (congrArg _ (Versioned.commit_view _ _))
    rcases next_cases cfg start with hn | hn <;>
      refine hI.move (by rw [hpc]; rfl) hspent ?_ ?_ ?_ ?_ ?_ (fun _ => ?_) (fun _ => hview)
        ?_ ?_ <;>
      simp [hn, hclean, Pc.owes, Pc.isFresh, Pc.isLeaving, Pc.isLoaded, Pc.inStep]
  | @refresh n hpc hs =>
    have hview := hview (by rw [hpc]; rfl) (by rw [hpc]; rfl) rfl
    cases CheckpointManager.shouldCheckpoint (cfg.stepConfig n) <;>
      refine hI.move (by rw [hpc]; rfl) hspent ?_ ?_ ?_ ?_ ?_ ?_ (fun _ => hview) (fun _ => ?_)
        ?_ <;>
      simp [Pc.owes, Pc.isFresh, Pc.isLeaving, Pc.isClean, Pc.inStep]
  | @commitCheckpoint n hpc =>
    have hview := hview (by rw [hpc]; rfl) (by rw [hpc]; rfl)
      (congrArg _ (Versioned.commit_view _ _))
    have hloaded := hloaded (by rw [hpc]; rfl)
    refine hI.move (by rw [hpc]; rfl) hspent ?_ ?_ ?_ ?_ ?_ ?_ (fun _ => hview) (fun _ => ?_) ?_ <;>
      simp [hloaded, Pc.owes, Pc.isFresh, Pc.isLeaving, Pc.isClean, Pc.inStep]
  | @flushRunning start hpc row hrow | @flushCompleted fsm hpc row hrow =>
    have hclean := hclean (by rw [hpc]; rfl)
    have hview := hview (by rw [hpc]; rfl) (by rw [hpc]; rfl)
      ((flushRow_context hrow).trans (by simp [patchColumn, updateStatus, hclean]))
    refine hI.move (by rw [hpc]; rfl) hspent ?_ ?_ ?_ ?_ ?_ (fun _ => ?_) (fun _ => hview) ?_ ?_ <;>
      simp [Pc.owes, Pc.isFresh, Pc.isLeaving, Pc.isLoaded, Pc.inStep]
  | @flushStep n hpc row hrow =>
    -- The flush writes the context of the step, or finds it already there.
    have hwritten : (row.view (.worker i)).context = (w.workers i).ctx := by
      rw [flushRow_context hrow, ← hloaded (by rw [hpc]; rfl), ← hassigned (by rw [hpc]; rfl)]
      exact patchColumn_loaded _ _
    have hview : (row.view (.worker i)).context.totalCostUsd =
        spent w + (w.workers i).pc.owes cfg := by
      rw [hwritten, hI.ctx (by rw [hpc]; rfl), hI.tracker (by rw [hpc]; rfl)]
    rw [← hspent] at hview
    rcases next_cases cfg (n + 1) with hn | hn <;>
      refine hI.move (by rw [hpc]; rfl) hspent ?_ ?_ ?_ ?_ ?_ ?_ (fun _ => hview) ?_ ?_ <;>
      simp [hn, Pc.owes, Pc.isFresh, Pc.isLeaving, Pc.isLoaded, Pc.inStep]

/-- Raising, dying and taking a task leave nothing claimed. -/
theorem costsAt_moved {cfg : Config} {w w' : World} {a : Action} {i : Nat}
    (hlimit : 0 ≤ cfg.maxPerExecutionUsd) (hI : CostsAt cfg w i) (hG : StartsAfresh w a)
    (h : step cfg w a = some w') (hi : actor a = some i) : CostsAt cfg w' i := by
  cases step_moved h with
  | @run j _ h' =>
    obtain rfl : j = i := by simpa [actor] using hi
    exact costsAt_ran hlimit hI hG h
  | @take j hpc =>
    obtain rfl : j = i := by simpa [actor] using hi
    have hfresh := hI.fresh (by rw [hpc]; rfl)
    refine .idle (by simp [Pc.isCounting]) (fun _ => hfresh) ?_ ?_ <;>
      simp [Pc.isClean, Pc.isLeaving]
  | @failClose j message o hpc =>
    obtain rfl : j = i := by simpa [actor] using hi
    refine .idle (by simp [Pc.isCounting]) (fun _ => Versioned.rollback_uncommitted _ _) ?_ ?_ <;>
      simp [Pc.isClean, Pc.isLeaving]
  | @crash j hpc =>
    obtain rfl : j = i := by simpa [actor] using hi
    refine .idle (by simp [Pc.isCounting]) (fun _ => Versioned.rollback_uncommitted _ _) ?_ ?_ <;>
      simp [Pc.isClean, Pc.isLeaving]
  | @failDatabase j message hdb =>
    obtain rfl : j = i := by simpa [actor] using hi
    refine .leave ?_ ?_ ?_ <;> cases hpc : (w.workers j).pc <;>
      simp [Pc.onFail, Pc.isCounting, Pc.isFresh, Pc.isLeaving]
  | @fail j message hidle hclose =>
    obtain rfl : j = i := by simpa [actor] using hi
    refine .leave ?_ ?_ ?_ <;> cases hpc : (w.workers j).pc <;>
      simp [Pc.onFail, Pc.isCounting, Pc.isFresh, Pc.isLeaving]
  | bystander hnone _ =>
    rw [writer_of_actor hi] at hnone
    cases hnone
  | _ => cases hi

/-! ## No other worker in the way -/

theorem ran_uncommitted {cfg : Config} {w w' : World} {i : Nat} (h : Ran cfg w i w')
    (hout : (w.workers i).pc.inLock = false) {wr : Writer} {r : ExecutionRow}
    (hr : w'.row.uncommitted = some (wr, r)) : w.row.uncommitted = some (wr, r) := by
  cases h with
  | readTerminal | read | refused | acquired => exact hr
  | closeReturned => exact (Versioned.commit_eq_some hr).1
  | closeRaised => exact (Versioned.rollback_eq_some hr).1
  | _ hpc =>
    rw [hpc] at hout
    cases hout

/-- A worker has an uncommitted row only by an operation inside the lock. -/
theorem moved_uncommitted {cfg : Config} {w w' : World} {a : Action} {j : Nat}
    (h : Moved cfg w a w') (hout : actor a = some j → (w.workers j).pc.inLock = false)
    {r : ExecutionRow} (hr : w'.row.uncommitted = some (.worker j, r)) :
    w.row.uncommitted = some (.worker j, r) := by
  by_cases hj : actor a = some j
  · cases h with
    | @run k _ h =>
      obtain rfl : k = j := by simpa [actor] using hj
      exact ran_uncommitted h (hout hj) hr
    | take | fail => exact hr
    | failClose | failDatabase | crash => exact (Versioned.rollback_eq_some hr).1
    | bystander hnone _ =>
      rw [writer_of_actor hj] at hnone
      cases hnone
    | _ => cases hj
  · obtain ⟨wr, hwr, hmoves⟩ := (moved_frame h hj).row
    exact (hmoves.uncommitted_of_ne hwr.symm).mp hr

theorem ran_ownsRow {cfg : Config} {w w' : World} {i : Nat} (h : Ran cfg w i w')
    (hpc : (w'.workers i).pc.ownsRow) :
    (w.workers i).pc.ownsRow ∨ (w'.workers i).pc.hasStarted := by
  cases h with
  | readTerminal | read | refused | acquired | setupRaises | setup | refreshStops | doneRaises
  | commitCompleted | pausedRaises | commitPaused | release | closeReturned | closeRaised =>
    simp [Pc.ownsRow] at hpc
  | flushRunning => exact .inr (by simp [Pc.hasStarted])
  | _ hfrom =>
    rw [hfrom]
    exact .inl rfl

theorem moved_ownsRow {cfg : Config} {w w' : World} {a : Action} {i : Nat}
    (h : Moved cfg w a w') (hi : actor a = some i) (hpc : (w'.workers i).pc.ownsRow) :
    (w.workers i).pc.ownsRow ∨ (w'.workers i).pc.hasStarted := by
  cases h with
  | @run k _ h =>
    obtain rfl : k = i := by simpa [actor] using hi
    exact ran_ownsRow h hpc
  | @take k | @failClose k | @crash k =>
    obtain rfl : k = i := by simpa [actor] using hi
    simp [Pc.ownsRow] at hpc
  | @failDatabase k | @fail k =>
    obtain rfl : k = i := by simpa [actor] using hi
    cases hfrom : (w.workers k).pc <;>
      first | exact .inl rfl | simp [hfrom, Pc.onFail, Pc.ownsRow] at hpc
  | bystander hnone _ =>
    rw [writer_of_actor hi] at hnone
    cases hnone
  | _ => cases hi

theorem oneUpdate_step {cfg : Config} {w w' : World} {a : Action} (hsound : Sound w)
    (hI : OneUpdate w) (h : step cfg w a = some w') : OneUpdate w' := by
  have hmoved := step_moved h
  intro i hpc j r hr
  by_contra hji
  by_cases hi : actor a = some i
  · have hr' := moved_uncommitted hmoved
      (fun hj => absurd (by simpa [hi] using hj) (Ne.symm hji)) hr
    rcases moved_ownsRow hmoved hi hpc with hflushed | hstarted
    · exact hji (hI i hflushed j r hr')
    · -- The first flush of the run has taken the row lock.
      obtain ⟨r', hr''⟩ := (sound_step hsound h i).started hstarted
      rw [hr] at hr''
      cases hr''
      exact hji rfl
  · rw [(moved_frame hmoved hi).worker] at hpc
    refine hji (hI i hpc j r (moved_uncommitted hmoved (fun _ => ?_) hr))
    by_contra hin
    have hlock := (hsound j).mutex (eq_true_of_ne_false hin)
    rw [(hsound i).mutex (Pc.inLock_of_ownsRow hpc)] at hlock
    cases hlock
    exact hji rfl

/-! ## The workers that do not move -/

theorem moved_spent {cfg : Config} {w w' : World} {a : Action} (h : Moved cfg w a w') :
    spent w' = spent w ∨ ∃ i n, a = .run i ∧ (w.workers i).pc = .publishStep n .global ∧
      spent w' = spent w + cfg.stepCost n := by
  cases h with
  | @run i _ h =>
    have hspent := ran_spent h
    cases hpc : (w.workers i).pc with
    | publishStep n s =>
      rw [hpc] at hspent
      cases s with
      | global => exact .inr ⟨i, n, rfl, hpc, hspent⟩
      | sse => exact .inl (by simpa [Pc.owes] using hspent)
    | _ =>
      rw [hpc] at hspent
      exact .inl (by simpa [Pc.owes] using hspent)
  | bystander _ h => exact .inl (spent_eq_of_log h.log)
  | _ => exact .inl rfl

/-- Another party gives the committed row a context only by closing a session that is on
its way out. -/
theorem committed_context_other {cfg : Config} {w w' : World} {a : Action} {i : Nat}
    (hsound : Sound w) (hsessions : Sessions w) (hcosts : ∀ j, CostsAt cfg w j)
    (h : Moved cfg w a w') (hi : actor a ≠ some i) (hin : (w.workers i).pc.inLock) :
    w'.row.committed.context = w.row.committed.context ∨
      ∃ j r, j ≠ i ∧ w.row.uncommitted = some (.worker j, r) ∧
        w'.row.committed.context.totalCostUsd = spent w := by
  have hrequest : ∀ r, (w.row.commit (.request r)).committed.context =
      w.row.committed.context := by
    intro r
    rcases Versioned.commit_cases w.row (.request r) with ⟨v, hv, hc⟩ | ⟨-, hc⟩
    · obtain ⟨-, -, -, hcontext⟩ := (hsessions r).own v hv
      rw [hc, Versioned.settled_committed, hcontext]
    · rw [hc]
  cases h with
  | @run j _ h =>
    have hne : j ≠ i := fun hji => hi (by rw [hji]; rfl)
    have hout : (w.workers j).pc.inLock = false := by
      by_contra hj
      have hlock := (hsound j).mutex (eq_true_of_ne_false hj)
      rw [(hsound i).mutex hin] at hlock
      cases hlock
      exact hne rfl
    cases h with
    | readTerminal | read | refused | acquired => exact .inl rfl
    | closeReturned hpc =>
      rcases Versioned.commit_cases w.row (.worker j) with ⟨v, hv, hc⟩ | ⟨-, hc⟩
      · refine .inr ⟨j, v, hne, hv, ?_⟩
        simpa [hc] using (hcosts j).leaving (by rw [hpc]; rfl) v hv
      · exact .inl (by simp [hc])
    | closeRaised => exact .inl (by simp)
    | _ hpc =>
      rw [hpc] at hout
      cases hout
  | commitResume | commit => exact .inl (hrequest _)
  | flush hphase hrow => exact .inl (by simp [(flushRow_eq_some hrow).1])
  | failClose | failDatabase | crash | abort => exact .inl (by simp)
  | bystander _ h => exact .inl (by rw [h.row])
  | _ => exact .inl rfl

theorem costsAt_other {cfg : Config} {w w' : World} {a : Action} {i : Nat} (hI : Costs cfg w)
    (h : Moved cfg w a w') (hi : actor a ≠ some i) : CostsAt cfg w' i := by
  obtain ⟨hsound, hsessions, -, halone, hcosts⟩ := hI
  have hframe := moved_frame h hi
  obtain ⟨wr, hwr, hmoves⟩ := hframe.row
  have hcontext := committed_context_other hsound hsessions hcosts h hi
  have hspent : (w.workers i).pc.inLock → spent w' = spent w := by
    intro hin
    rcases moved_spent h with hsame | ⟨j, n, rfl, hpc, -⟩
    · exact hsame
    · have hlock := (hsound j).mutex (by rw [hpc]; rfl)
      rw [(hsound i).mutex hin] at hlock
      cases hlock
      exact absurd rfl hi
  have hview : (w'.row.view (.worker i)).context = (w.row.view (.worker i)).context ∨
      ((w'.row.view (.worker i)).context = w'.row.committed.context ∧
        (w.row.view (.worker i)).context = w.row.committed.context) := by
    rcases hmoves.view_cases hwr.symm with hsame | ⟨hnew, hold⟩
    · exact .inl (by rw [hsame])
    · exact .inr ⟨by rw [hnew], by rw [hold]⟩
  have hI := hcosts i
  constructor
  · rw [hframe.worker]
    exact fun hpc r hr => hI.fresh hpc r ((hmoves.uncommitted_of_ne hwr.symm).mp hr)
  · rw [hframe.worker]
    exact hI.clean
  · rw [hframe.worker]
    exact hI.limit
  · rw [hframe.worker]
    intro hpc
    rw [hspent (Pc.inLock_of_isCounting hpc)]
    exact hI.tracker hpc
  · rw [hframe.worker]
    exact hI.ctx
  · rw [hframe.worker]
    intro hpc hout
    have hstored := hI.stored hpc hout
    rw [hspent (Pc.inLock_of_isCounting hpc)]
    rcases hview with hsame | ⟨hnew, hold⟩
    · rw [hsame, hstored]
    · rw [hnew]
      rcases hcontext (Pc.inLock_of_isCounting hpc) with hsame | ⟨-, -, -, -, htotal⟩
      · rw [hsame, ← hold, hstored]
      · exact htotal
  · rw [hframe.worker]
    intro hpc
    have hflushed := Pc.ownsRow_of_isLoaded hpc
    rw [hI.loaded hpc]
    rcases hview with hsame | ⟨hnew, hold⟩
    · exact hsame.symm
    · rw [hnew, hold]
      rcases hcontext (Pc.inLock_of_ownsRow hflushed) with hsame | ⟨j, r, hji, hr, -⟩
      · exact hsame.symm
      · exact absurd (halone i hflushed j r hr) hji
  · rw [hframe.worker]
    exact hI.assigned
  · rw [hframe.worker]
    intro hpc r hr
    have hr' := (hmoves.uncommitted_of_ne hwr.symm).mp hr
    rcases moved_spent h with hsame | ⟨j, n, rfl, hpublish, -⟩
    · rw [hsame]
      exact hI.leaving hpc r hr'
    · have heq := halone j (by rw [hpublish]; rfl) i r hr'
      exact absurd (by rw [heq]; rfl) hi

/-! ## Runs -/

theorem costs_step {cfg : Config} {w w' : World} {a : Action} (hlimit : 0 ≤ cfg.maxPerExecutionUsd)
    (hI : Costs cfg w) (hG : StartsAfresh w a) (h : step cfg w a = some w') : Costs cfg w' := by
  have hmoved := step_moved h
  refine ⟨sound_step hI.sound h, sessionAt_step hI.sessions hmoved, ?_,
    oneUpdate_step hI.sound hI.alone h, fun i => ?_⟩
  · rcases moved_spent hmoved with hsame | ⟨i, n, rfl, hpc, hspent⟩
    · rw [hsame]
      exact hI.within
    · have hcosts := hI.costs i
      have htracker := hcosts.tracker (by rw [hpc]; rfl)
      rw [hpc, Pc.owes] at htracker
      rw [hspent, ← htracker]
      exact (hcosts.limit (by rw [hpc]; rfl)).2
  · by_cases hi : actor a = some i
    · exact costsAt_moved hlimit (hI.costs i) hG h hi
    · exact costsAt_other hI hmoved hi

theorem costs_initial {cfg : Config} (hlimit : 0 ≤ cfg.maxPerExecutionUsd)
    (inputs : List (String × Json)) : Costs cfg (World.initial inputs) := by
  refine ⟨sound_initial inputs, sessions_initial inputs, by simpa [spent, World.initial], ?_, ?_⟩
  · intro i hpc
    cases hpc
  · intro i
    refine .idle rfl (fun _ r => ?_) (fun _ => rfl) ?_ <;> simp [World.initial, Pc.isLeaving]

/-- The completed event tells the tracker's total. -/
theorem ran_completed {cfg : Config} {w w' : World} {i : Nat} (h : Ran cfg w i w') {s : Stream}
    {status : ExecutionStatus} {total : ℚ} {steps : Nat}
    (hlog : w'.log = w.log ++ [.published s (.completed status total steps)]) :
    (w.workers i).pc = .publishCompleted s ∧ total = (w.workers i).costTracker.total ∧
      w'.row = w.row := by
  cases h with
  | publishCompleted hpc =>
    simp only [World.set, World.record, List.append_cancel_left_eq, List.cons.injEq,
      Effect.published.injEq, ExecutionEvent.completed.injEq] at hlog
    obtain ⟨⟨rfl, -, rfl, -⟩, -⟩ := hlog
    exact ⟨hpc, rfl, rfl⟩
  | publishStarted | publishStep | publishPaused | refresh | writeCheckpoint => simp at hlog
  | _ => simp at hlog

theorem costsAgree_step {cfg : Config} {w w' : World} {a : Action}
    (hlimit : 0 ≤ cfg.maxPerExecutionUsd) (hI : Costs cfg w) (hG : StartsAfresh w a)
    (h : step cfg w a = some w') : CostsAgree cfg w a w' := by
  refine ⟨(costs_step hlimit hI hG h).within, ?_, ?_⟩
  · rintro i s status total steps rfl hlog
    have hran := runWorker_ran h
    obtain ⟨hpc, rfl, hrow⟩ := ran_completed hran hlog
    have hcosts := hI.costs i
    rw [hrow, ran_spent_of_not_inStep hran (by rw [hpc]; rfl),
      hcosts.stored (by rw [hpc]; rfl) (by rw [hpc]; rfl), hcosts.tracker (by rw [hpc]; rfl), hpc]
    simp [Pc.owes]
  · rintro i rfl hpc
    have hran := runWorker_ran h
    rw [ran_spent_of_not_inStep hran (by rw [hpc]; rfl),
      ← (hI.costs i).stored (by rw [hpc]; rfl) (by rw [hpc]; rfl), ← Versioned.commit_committed]
    simp only [step, runWorker, hpc] at h
    cases h
    rfl

/-- While every run starts with nothing spent, all runs together stay within the limit,
and the completed event, the stored context and the published costs agree. -/
theorem costs_agree (cfg : Config) (inputs : List (String × Json)) (as : List Action)
    (hlimit : 0 ≤ cfg.maxPerExecutionUsd)
    (hG : Along (step cfg) (fun w a _ => StartsAfresh w a) (World.initial inputs) as) :
    Along (step cfg) (CostsAgree cfg) (World.initial inputs) as :=
  along_of_invariant (fun _ _ _ hI hG h => costs_step hlimit hI hG h)
    (fun _ _ _ hI hG h => costsAgree_step hlimit hI hG h) (costs_initial hlimit inputs) hG

/-! ## A budget for each run -/

/-- Two steps, the first one for 6 of the 10 dollars. -/
def costlyStep : Config where
  definitionSnapshot := some ⟨[⟨{ name := "first" }⟩, ⟨{ name := "second" }⟩]⟩
  workflowDefinition := ⟨[]⟩
  stepCost := fun n => if n = 0 then 6 else 0

/-- A pause request is committed while the first step runs, and the run stops behind it. -/
def pausedRun : List Action :=
  .enqueue 0 :: deliver 9 ++ [.request 1 .pause, .flush 1, .commit 1] ++ List.replicate 6 (.run 0)

/-- The execution is resumed and runs to its end. -/
def resumedRun : List Action :=
  [.request 2 .resume, .flush 2, .commit 2, .enqueue 2] ++ deliver 23

/-- The first step is paid twice, which is beyond the limit, and the event tells the cost
of the last run only. -/
theorem limit_exceeded_by_resume :
    ∃ w, run (step costlyStep) (World.initial []) (pausedRun ++ resumedRun) = some w ∧
      w.row.committed.status = .completed ∧ costlyStep.maxPerExecutionUsd < spent w ∧
      spent w = 12 ∧ w.row.committed.context.totalCostUsd = 12 ∧
      .published .global (.completed .completed 6 2) ∈ w.log := by
  exact exists_of_any (by decide +kernel)

/-- Without a pause the run is the only one. -/
theorem costs_agree_one_run :
    (∃ w, run (step costlyStep) (World.initial []) (.enqueue 0 :: deliver 22) = some w ∧
      w.row.committed.status = .completed ∧ spent w = 6) ∧
    Along (step costlyStep) (CostsAgree costlyStep) (World.initial [])
      (.enqueue 0 :: deliver 22) := by
  refine ⟨exists_of_any (by decide +kernel), ?_⟩
  exact costs_agree costlyStep [] _ (by decide) (by decide +kernel)

end Sutram.Workflow
