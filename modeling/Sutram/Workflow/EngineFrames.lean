/-
What an operation of one execution leaves alone.

An operation that names an execution writes its row, its checkpoints, its lock key, its
requests, the histories under its id and the process that has its task; it may enqueue
its task.  The part of every other execution stays as it is, since the keys and the
texts of two ids differ.
-/
import Sutram.Workflow.EngineViews

namespace Sutram.Workflow

open Sutram.Core Runs

/-- The task has not come to the definition yet, or is done with it. -/
def Pc.outsideRun : Pc → Bool
  | .idle | .read | .close _ => true
  | _ => false

namespace Engine

variable {s s' t : Engine} {id other : Uuid} {i p r : Nat} {cfg : Settings}

/-- The processes with a task of the execution use the definition. -/
def Uses (s : Engine) (id : Uuid) (d : WorkflowDefinition) : Prop :=
  ∀ i process, s.workers i = some process → process.executionId = id →
    process.worker.pc.outsideRun ∨ process.definition = d

/-- The definition that a task of the execution is given. -/
def GivenTo (cfg : Settings) (s : Engine) (id : Uuid) (d : WorkflowDefinition) : Prop :=
  ∀ ex, s.find id = some ex → s.runnable cfg ex = .ok d

/-- From `s` to `t` at most what names the execution has changed. -/
structure Local (cfg : Settings) (id : Uuid) (s t : Engine) : Prop where
  workflows : t.workflows = s.workflows
  executions : t.executions = s.executions
  posted : t.posted = s.posted
  tasks : ∀ task ∈ t.tasks, task ∈ s.tasks ∨ task = id.str
  sweeps : ∀ p, (t.pods p).stale.Sublist (s.pods p).stale
  processes : ∀ i process, t.workers i = some process →
    process.executionId = id ∨ s.workers i = some process
  uses : ∀ d, GivenTo cfg s id d → Uses s id d → Uses t id d
  others : ∀ other, id ≠ other → t.of other = s.of other

/-- Whoever has worker `i` has the execution's task. -/
def Mine (id : Uuid) (i : Nat) (s : Engine) : Prop :=
  ∀ process, s.workers i = some process → process.executionId = id

theorem mine_of_some {process : Process} (h : s.workers i = some process) :
    Mine process.executionId i s := fun other hother => by
  rw [h] at hother
  cases hother
  rfl

namespace Local

theorem refl (cfg : Settings) (id : Uuid) (s : Engine) : Local cfg id s s where
  workflows := rfl
  executions := rfl
  posted := rfl
  tasks := fun _ h => .inl h
  sweeps := fun _ => .refl _
  processes := fun _ _ h => .inr h
  uses := fun _ _ h => h
  others := fun _ _ => rfl

theorem setRow (h : Local cfg id s t) (row : Versioned Writer ExecutionRow) :
    Local cfg id s (t.setRow id row) :=
  { h with
    others := fun other hne => by
      rw [← h.others other hne]
      simp [of, Engine.setRow, Function.update_of_ne (Ne.symm hne)] }

theorem addCheckpoints (h : Local cfg id s t) (added : List CheckpointRow) :
    Local cfg id s (t.addCheckpoints id added) :=
  { h with
    others := fun other hne => by
      rw [← h.others other hne]
      simp [of, Engine.addCheckpoints, own_map_of_ne hne] }

theorem setLock (h : Local cfg id s t) (holder : Option Holder) :
    Local cfg id s (t.setLock id holder) :=
  { h with
    others := fun other hne => by
      have hkey : lockKey other ≠ lockKey id := fun heq => hne (lockKey_injective heq).symm
      rw [← h.others other hne]
      simp [of, Engine.setLock, Function.update_of_ne hkey] }

theorem releaseLock (h : Local cfg id s t) (holder : Holder) :
    Local cfg id s (t.releaseLock id holder) :=
  h.setLock _

theorem addTask (h : Local cfg id s t) : Local cfg id s (t.addTask id) :=
  { h with
    tasks := fun task hmem => by
      rcases List.mem_append.mp hmem with hmem | hmem
      · exact h.tasks task hmem
      · exact .inr (List.mem_singleton.mp hmem)
    others := fun other hne => by
      have hstr : id.str ≠ other.str := fun heq => hne (Uuid.str_injective heq)
      rw [← h.others other hne]
      simp [of, Engine.addTask, List.count_append, hstr] }

theorem record (h : Local cfg id s t) (e : Effect) : Local cfg id s (t.record id e) :=
  { h with
    others := fun other hne => by
      rw [← h.others other hne]
      simp [of, Engine.record, own_single_of_ne hne] }

theorem answer (h : Local cfg id s t) (a : Answer) : Local cfg id s (t.answer id r a) :=
  { h with
    others := fun other hne => by
      rw [← h.others other hne]
      simp [of, Engine.answer, own_single_of_ne hne] }

theorem setRequest (h : Local cfg id s t) (q : Request) : Local cfg id s (t.setRequest id r q) :=
  { h with
    others := fun other hne => by
      rw [← h.others other hne]
      simp [of, Engine.setRequest, Function.update_of_ne (Ne.symm hne)] }

theorem workerOf_of_mine (hmine : Mine id i t) (hne : id ≠ other) :
    workerOf other (t.workers i) = {} := by
  unfold workerOf
  split
  · rename_i process hprocess
    rw [if_neg]
    rw [hmine process hprocess]
    exact hne
  · rfl

theorem set (h : Local cfg id s t) {x : Option Process} (hmine : Mine id i t)
    (hid : ∀ process, x = some process → process.executionId = id)
    (huses : ∀ process d, x = some process → GivenTo cfg s id d → Uses s id d →
      process.worker.pc.outsideRun ∨ process.definition = d) : Local cfg id s (t.set i x) :=
  { h with
    processes := fun j process hj => by
      by_cases hji : j = i
      · subst hji
        simp only [Engine.set, Function.update_self] at hj
        exact .inl (hid process hj)
      · simp only [Engine.set, Function.update_of_ne hji] at hj
        exact h.processes j process hj
    uses := fun d hgiven hd j process hj hother => by
      by_cases hji : j = i
      · subst hji
        simp only [Engine.set, Function.update_self] at hj
        exact huses process d hj hgiven hd
      · simp only [Engine.set, Function.update_of_ne hji] at hj
        exact h.uses d hgiven hd j process hj hother
    others := fun other hne => by
      have hidle : workerOf other x = {} := by
        cases x with
        | none => rfl
        | some process => rw [workerOf, if_neg (by rw [hid process rfl]; exact hne)]
      have hsame : (t.of other).workers i = {} := workerOf_of_mine hmine hne
      rw [of_set, hidle, World.set, ← hsame, Function.update_eq_self, h.others other hne] }

/-- The process that has the task goes on with it. -/
theorem setWorker {process : Process} (h : Local cfg process.executionId s t)
    (hs : s.workers i = some process) (ht : t.workers i = some process) {k : Worker}
    (hk : process.worker.pc.outsideRun → k.pc.outsideRun) :
    Local cfg process.executionId s (t.setWorker i process k) := by
  refine h.set (mine_of_some ht) (fun _ hsome => by cases hsome; rfl)
    fun process' d hsome _ hd => ?_
  cases hsome
  exact (hd i process hs rfl).imp_left hk

theorem unset (h : Local cfg id s t) (hmine : Mine id i t) : Local cfg id s (t.set i none) :=
  h.set hmine (fun _ hnone => by cases hnone) fun _ _ hnone => by cases hnone

theorem finish (h : Local cfg id s t) (hmine : Mine id i t) (o : Outcome) :
    Local cfg id s (t.finish i id o) := by
  have hset := h.unset hmine
  exact
    { hset with
      others := fun other hne => by
        rw [← hset.others other hne]
        simp [of, Engine.finish, own_single_of_ne hne, Engine.set] }

theorem setPod (h : Local cfg id s t) {sweep : Sweep}
    (hsub : sweep.stale.Sublist (s.pods p).stale)
    (hof : ∀ other, id ≠ other → sweep.of other = (t.pods p).of other) :
    Local cfg id s (t.setPod p sweep) :=
  { h with
    sweeps := fun q => by
      by_cases hq : q = p
      · subst hq
        simpa only [Engine.setPod, Function.update_self] using hsub
      · simpa only [Engine.setPod, Function.update_of_ne hq] using h.sweeps q
    others := fun other hne => by
      have hsame : sweep.of other = (t.of other).pods p := hof other hne
      rw [setPod_of, hsame, World.setPod, Function.update_eq_self, h.others other hne] }

end Local

/-! ## The operations -/

/-- Between the read and the end of its task. -/
theorem local_runInside {process : Process} (h : s.workers i = some process)
    (hinside : process.worker.pc.outsideRun = false)
    (hrun : s.runProcess cfg i process = some s') : Local cfg process.executionId s s' := by
  have hself := Local.refl cfg process.executionId s
  have hin : ∀ {k : Worker}, process.worker.pc.outsideRun → k.pc.outsideRun := by
    intro k hout
    rw [hinside] at hout
    cases hout
  simp only [runProcess] at hrun
  cases hpc : process.worker.pc with
  | idle | read | close o =>
    rw [hpc] at hinside
    cases hinside
  | acquire =>
    simp only [hpc] at hrun
    split at hrun <;> cases hrun
    · exact hself.setWorker h h hin
    · exact (hself.setWorker h h hin).setLock _
  | setup =>
    simp only [hpc] at hrun
    split at hrun <;> cases hrun <;> exact hself.setWorker h h hin
  | flushRunning start =>
    simp only [hpc] at hrun
    split at hrun <;> cases hrun
    exact (hself.setRow _).setWorker h h hin
  | publishStarted start stream =>
    cases stream <;> simp only [hpc] at hrun <;> cases hrun <;>
      exact (hself.record _).setWorker h h hin
  | commitRunning start =>
    simp only [hpc] at hrun
    cases hrun
    exact (hself.setRow _).setWorker h h hin
  | refresh n =>
    simp only [hpc] at hrun
    split at hrun <;> cases hrun
    · exact hself.setWorker h h hin
    · exact (hself.record _).setWorker h h hin
  | writeCheckpoint n =>
    simp only [hpc] at hrun
    cases hrun
    exact (hself.record _).setWorker h h hin
  | commitCheckpoint n =>
    simp only [hpc] at hrun
    cases hrun
    exact ((hself.setRow _).addCheckpoints _).setWorker h h hin
  | execute n =>
    simp only [hpc] at hrun
    split at hrun <;> cases hrun <;> exact hself.setWorker h h hin
  | publishStep n stream =>
    cases stream <;> simp only [hpc] at hrun <;> cases hrun <;>
      exact (hself.record _).setWorker h h hin
  | flushStep n =>
    simp only [hpc] at hrun
    split at hrun <;> cases hrun
    exact (hself.setRow _).setWorker h h hin
  | flushCompleted =>
    simp only [hpc] at hrun
    split at hrun
    · cases hrun
      exact hself.setWorker h h hin
    · split at hrun <;> cases hrun
      exact (hself.setRow _).setWorker h h hin
  | publishCompleted stream =>
    cases stream <;> simp only [hpc] at hrun <;> cases hrun <;>
      exact (hself.record _).setWorker h h hin
  | commitCompleted | commitPaused =>
    simp only [hpc] at hrun
    cases hrun
    exact ((hself.setRow _).addCheckpoints _).setWorker h h hin
  | flushPaused why =>
    simp only [hpc] at hrun
    split at hrun
    · cases hrun
      exact hself.setWorker h h hin
    · split at hrun
      · cases hrun
        exact hself.setWorker h h hin
      · split at hrun <;> cases hrun
        exact (hself.setRow _).setWorker h h hin
  | publishPaused why stream =>
    cases stream <;> simp only [hpc] at hrun <;> cases hrun <;>
      exact (hself.record _).setWorker h h hin
  | release o =>
    simp only [hpc] at hrun
    cases hrun
    exact (hself.setWorker h h hin).releaseLock _

theorem local_runProcess {process : Process} (h : s.workers i = some process)
    (hrun : s.runProcess cfg i process = some s') : Local cfg process.executionId s s' := by
  have hmine := mine_of_some h
  have hself := Local.refl cfg process.executionId s
  cases hpc : process.worker.pc with
  | read =>
    simp only [runProcess, hpc] at hrun
    cases hfind : s.find process.executionId with
    | none =>
      simp only [hfind] at hrun
      cases hrun
      exact hself.finish hmine _
    | some ex =>
      simp only [hfind] at hrun
      split at hrun
      · cases hrun
        exact hself.setWorker h h fun _ => rfl
      · cases hd : s.runnable cfg ex with
        | error o =>
          simp only [hd] at hrun
          cases hrun
          exact hself.setWorker h h fun _ => rfl
        | ok d =>
          simp only [hd] at hrun
          cases hrun
          refine hself.set hmine (fun _ hsome => by cases hsome; rfl) fun _ d' hsome hgiven _ => ?_
          cases hsome
          have hd' := hgiven ex hfind
          rw [hd] at hd'
          cases hd'
          exact .inr rfl
  | close o =>
    simp only [runProcess, hpc] at hrun
    cases o <;> cases hrun
    · exact ((hself.setRow _).addCheckpoints _).finish hmine _
    · exact (hself.setRow _).finish hmine _
  | idle => simp [runProcess, hpc] at hrun
  | _ => exact local_runInside h (by rw [hpc]; rfl) hrun

theorem outsideRun_onFail {pc : Pc} {message : String} (hidle : pc ≠ .idle)
    (hclose : ∀ o, pc ≠ .close o) (h : pc.outsideRun) : (pc.onFail message).outsideRun := by
  cases pc with
  | read => rfl
  | idle => exact absurd rfl hidle
  | close o => exact absurd rfl (hclose o)
  | _ => cases h

theorem local_failProcess {process : Process} {message : String}
    (h : s.workers i = some process) (hfail : s.failProcess i process message = some s') :
    Local cfg process.executionId s s' := by
  have hself := Local.refl cfg process.executionId s
  simp only [failProcess] at hfail
  split at hfail
  · cases hfail
  · cases hfail
    exact (hself.setRow _).finish (mine_of_some h) _
  · rename_i hidle hclose
    split at hfail <;> cases hfail
    · exact (hself.setRow _).setWorker h h (outsideRun_onFail hidle hclose)
    · exact hself.setWorker h h (outsideRun_onFail hidle hclose)

theorem local_crashProcess {process : Process} (h : s.workers i = some process)
    (hcrash : s.crashProcess i process = some s') : Local cfg process.executionId s s' := by
  simp only [crashProcess] at hcrash
  split at hcrash
  · cases hcrash
  · cases hcrash
    exact (((Local.refl cfg _ s).setRow _).addTask).unset (mine_of_some h)

theorem local_takeTask (h : s.takeTask i id.str = some s') : Local cfg id s s' := by
  simp only [takeTask, Uuid.parse_str] at h
  split at h
  · rename_i hfree
    cases h
    have htaken : Local cfg id s { s with tasks := s.tasks.erase id.str } :=
      { Local.refl cfg id s with
        tasks := fun task hmem => .inl (List.mem_of_mem_erase hmem)
        others := fun other hne => by
          have hstr : id.str ≠ other.str := fun heq => hne (Uuid.str_injective heq)
          simp [of, List.count_erase_of_ne (Ne.symm hstr)] }
    have hnone : ∀ process, s.workers i ≠ some process := by simp [hfree.1]
    refine htaken.set (fun process hprocess => absurd hprocess (hnone process))
      (fun _ hsome => by cases hsome; rfl) fun _ _ hsome _ _ => ?_
    cases hsome
    exact .inl rfl
  · cases h

theorem local_startRequest {tenantId : Uuid} {kind : RequestKind}
    (h : s.startRequest tenantId id r kind = some s') : Local cfg id s s' := by
  simp only [startRequest] at h
  split at h
  · split at h
    · cases h
      exact .refl cfg id s
    · split at h <;> cases h
      · exact (Local.refl cfg id s).answer _
      · exact (Local.refl cfg id s).setRequest _
  · cases h

theorem local_flushRequest (h : s.flushRequest id r = some s') : Local cfg id s s' := by
  simp only [flushRequest] at h
  split at h
  · split at h <;> cases h
    exact ((Local.refl cfg id s).setRow _).setRequest _
  · cases h

theorem local_commitRequest (h : s.commitRequest id r = some s') : Local cfg id s s' := by
  simp only [commitRequest] at h
  split at h
  · split at h <;> cases h
    · exact ((Local.refl cfg id s).setRow _).setRequest _
    · exact (((Local.refl cfg id s).setRow _).setRequest _).answer _
  · cases h

theorem local_enqueueRequest (h : s.enqueueRequest id r = some s') : Local cfg id s s' := by
  simp only [enqueueRequest] at h
  split at h <;> cases h
  exact (((Local.refl cfg id s).addTask).setRequest _).answer _

theorem local_failEnqueue (h : s.failEnqueue id r = some s') : Local cfg id s s' := by
  simp only [failEnqueue] at h
  split at h <;> cases h
  exact ((Local.refl cfg id s).setRequest _).answer _

theorem local_abortRequest (h : s.abortRequest id r = some s') : Local cfg id s s' := by
  simp only [abortRequest] at h
  split at h <;> cases h <;> exact (((Local.refl cfg id s).setRow _).setRequest _).answer _

theorem local_expireLock (h : s.expireLock id = some s') : Local cfg id s s' := by
  simp only [expireLock] at h
  split at h
  · split at h <;> cases h
    exact (Local.refl cfg id s).setLock _
  · cases h

theorem local_runPod {rest : List Uuid} (hstale : (s.pods p).stale = id :: rest)
    (h : s.runPod p = some s') : Local cfg id s s' := by
  have hself := Local.refl cfg id s
  have hsame : s.pods p = ⟨id :: rest, (s.pods p).stage⟩ := by rw [← hstale]
  have hnext : ∀ other, id ≠ other → (nextSweep rest).of other = (s.pods p).of other := by
    intro other hne
    rw [hsame]
    exact nextSweep_of_ne hne
  have hstay : ∀ stage other, id ≠ other →
      (Sweep.mk (id :: rest) stage).of other = (s.pods p).of other := by
    intro stage other hne
    rw [hsame]
    simp [Sweep.of, hne]
  have hrest : (nextSweep rest).stale.Sublist (s.pods p).stale := by
    rw [hstale]
    exact List.sublist_cons_self id rest
  have hall : (id :: rest).Sublist (s.pods p).stale := by rw [hstale]
  cases hstage : (s.pods p).stage with
  | idle => simp [runPod, hstale, hstage] at h
  | stale =>
    simp only [runPod, hstale, hstage] at h
    split at h <;> cases h
    · exact hself.setPod hrest hnext
    · exact (hself.setPod hall (hstay _)).setLock _
  | enqueue =>
    simp only [runPod, hstale, hstage] at h
    cases h
    exact hself.addTask.setPod hall (hstay _)
  | release =>
    simp only [runPod, hstale, hstage] at h
    cases h
    exact (hself.setPod hrest hnext).releaseLock _

end Engine

end Sutram.Workflow
