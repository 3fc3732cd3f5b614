/-
The workflow service under row-level security.

The migrations force the policy `tenant_isolation` on every tenant table: a statement
sees, and may write, only rows whose `tenant_id` is `app.current_tenant_id`, and an
unset value matches no row.  `set_tenant_context` sets the value with SET LOCAL, so it
ends with the transaction.  The routes call it; the `workflow.execute` task does not.

A role that bypasses the policies gives back the service without them.
-/
import Sutram.Workflow.Database
import Sutram.Workflow.Invariants

namespace Sutram.Workflow

open Sutram.Core Runs

/-! ## Sessions -/

structure SecuredConfig extends Config where
  security : RowSecurity
  /-- The tenant of the execution and of its checkpoints. -/
  tenantId : Uuid

/-- The service with `app.current_tenant_id` in the open transaction of each session. -/
structure SecuredWorld where
  world : World
  context : Writer → Option Uuid := fun _ => none

namespace SecuredWorld

/-- The execute route has committed: its transaction, and with it the context, is over. -/
def initial (inputs : List (String × Json)) : SecuredWorld := { world := .initial inputs }

def sees (cfg : SecuredConfig) (s : SecuredWorld) (wr : Writer) : Bool :=
  cfg.security.sees (s.context wr) cfg.tenantId

end SecuredWorld

/-! ## Statements that do not see their row -/

/-- The object a worker's next flush writes. -/
def flushedObject (w : World) (i : Nat) : Option Orm :=
  let k := w.workers i
  match k.pc with
  | .flushRunning _ => some (updateStatus .running w.clock k.execution)
  | .flushStep _ => some k.execution
  | .flushCompleted => some (updateStatus .completed w.clock k.execution)
  | .flushPaused why => some (why.updateStatus w.clock k.execution)
  | _ => none

/-- The worker's next operation when the policy hides the execution from it. -/
def runHidden (cfg : Config) (w : World) (i : Nat) : Option World :=
  let k := w.workers i
  match k.pc with
  -- `execution is None`: to the task the execution was deleted.
  | .read => some (w.set i (k.goto (.close .returned)))
  -- The checkpoints are hidden too.
  | .setup =>
    (runWorker cfg { w with checkpoints := [] } i).map fun w' =>
      { w' with checkpoints := w.checkpoints }
  | .refresh _ => failWorker w i "Could not refresh instance"
  | .writeCheckpoint _ =>
    failWorker w i "new row violates row-level security policy for table \"checkpoints\""
  -- An UPDATE that matches no row is an error; a flush with nothing to write is no UPDATE.
  | _ =>
    match flushedObject w i with
    | some o =>
      if k.rejects ∨ o.current = o.loaded then runWorker cfg w i
      else failWorker w i
        "UPDATE statement on table 'workflow_executions' expected to update 1 row(s); 0 were matched."
    | none => runWorker cfg w i

/-! ## Steps -/

/-- The operations after which the session has no transaction open. -/
def Pc.endsTransaction : Pc → Bool
  | .commitRunning _ | .commitCheckpoint _ | .commitCompleted | .commitPaused | .close _ => true
  | _ => false

/-- What an action does to `app.current_tenant_id`.  Only a route sets it. -/
def contextAfter (cfg : SecuredConfig) (s : SecuredWorld) : Action → Writer → Option Uuid
  | .take i | .crash i | .fail i _ => Function.update s.context (.worker i) none
  | .run i =>
    if (s.world.workers i).pc.endsTransaction then Function.update s.context (.worker i) none
    else s.context
  | .request r _ => Function.update s.context (.request r) (some cfg.tenantId)
  | .commit r | .abort r => Function.update s.context (.request r) none
  | _ => s.context

/-- A request's SELECT follows its `set_tenant_context`, so it needs no case of its own. -/
def worldAfter (cfg : SecuredConfig) (s : SecuredWorld) : Action → Option World
  | .run i =>
    if s.sees cfg (.worker i) then runWorker cfg.toConfig s.world i
    else runHidden cfg.toConfig s.world i
  | .flush r =>
    if s.sees cfg (.request r) then flushRequest s.world r else abortRequest s.world r
  -- The recovery scan has no tenant: it is meant for a role that bypasses the policies.
  | .scan p =>
    if cfg.security.sees none cfg.tenantId then scanPod cfg.toConfig s.world p
    else if s.world.pods p = .idle then some s.world else none
  | a => step cfg.toConfig s.world a

def stepSecured (cfg : SecuredConfig) (s : SecuredWorld) (a : Action) : Option SecuredWorld :=
  (worldAfter cfg s a).map fun w => ⟨w, contextAfter cfg s a⟩

/-- Without the policies the service is the one of `step`. -/
theorem stepSecured_bypassed {cfg : SecuredConfig} (hsecurity : cfg.security = .bypassed)
    (s : SecuredWorld) (a : Action) :
    (stepSecured cfg s a).map SecuredWorld.world = step cfg.toConfig s.world a := by
  have hsees (context : Option Uuid) : cfg.security.sees context cfg.tenantId = true := by
    rw [hsecurity]
    rfl
  have hworld : worldAfter cfg s a = step cfg.toConfig s.world a := by
    cases a <;> simp [worldAfter, SecuredWorld.sees, hsees, step]
  rw [stepSecured, hworld, Option.map_map]
  show Option.map id _ = _
  rw [Option.map_id, id]

/-! ## The task finds nothing -/

/-- Worker `i` has not got past its first statement, and no tenant is set in its
session. -/
structure Hidden (s : SecuredWorld) (i : Nat) : Prop where
  pc : (s.world.workers i).pc = .idle ∨ (s.world.workers i).pc = .read ∨
    ∃ o, (s.world.workers i).pc = .close o
  unwritten : ∀ r, s.world.row.uncommitted ≠ some (.worker i, r)
  context : s.context (.worker i) = none

/-- The worker's SELECT has found no row, and its task returns. -/
def notFound (w : World) (i : Nat) : World := w.set i ((w.workers i).goto (.close .returned))

/-- Where no worker sees the row, a step is a SELECT that finds nothing, or a step of
the service that is no SELECT of a worker, or nothing at all. -/
theorem worldAfter_cases {cfg : SecuredConfig} (hforced : cfg.security = .forced)
    {s : SecuredWorld} {a : Action} {w' : World} (hI : ∀ i, Hidden s i)
    (h : worldAfter cfg s a = some w') :
    (∃ i, a = .run i ∧ (s.world.workers i).pc = .read ∧ w' = notFound s.world i) ∨
      (∃ b, actor b = actor a ∧ (∀ i, b = .run i → (s.world.workers i).pc ≠ .read) ∧
        step cfg.toConfig s.world b = some w') ∨
      actor a = none ∧ w' = s.world := by
  cases a with
  | run i =>
    have hsees : s.sees cfg (.worker i) = false := by
      simp [SecuredWorld.sees, RowSecurity.sees, hforced, (hI i).context]
    simp only [worldAfter, hsees, Bool.false_eq_true, if_false] at h
    rcases (hI i).pc with hpc | hpc | ⟨o, hpc⟩
    · simp only [runHidden, flushedObject, runWorker, hpc] at h
      cases h
    · simp only [runHidden, hpc] at h
      cases h
      exact .inl ⟨i, rfl, hpc, rfl⟩
    · simp only [runHidden, flushedObject, hpc] at h
      refine .inr (.inl ⟨.run i, rfl, ?_, h⟩)
      intro j hj
      cases hj
      rw [hpc]
      exact Pc.noConfusion
  | flush r =>
    simp only [worldAfter] at h
    split at h
    · exact .inr (.inl ⟨.flush r, rfl, by simp, h⟩)
    · exact .inr (.inl ⟨.abort r, rfl, by simp, h⟩)
  | scan p =>
    simp only [worldAfter] at h
    split at h
    · exact .inr (.inl ⟨.scan p, rfl, by simp, h⟩)
    · split at h <;> cases h
      exact .inr (.inr ⟨rfl, rfl⟩)
  | _ => exact .inr (.inl ⟨_, rfl, by simp, h⟩)

/-- No action but a worker's own touches its context, and none of those sets it. -/
theorem contextAfter_worker {cfg : SecuredConfig} {s : SecuredWorld} {a : Action} {i : Nat}
    (h : s.context (.worker i) = none) : contextAfter cfg s a (.worker i) = none := by
  have hupdate (wr : Writer) : Function.update s.context wr none (.worker i) = none := by
    by_cases hwr : .worker i = wr <;> simp [hwr, h]
  cases a with
  | take | crash | fail | commit | abort => exact hupdate _
  | run =>
    simp only [contextAfter]
    split
    · exact hupdate _
    · exact h
  | request => simpa [contextAfter] using h
  | _ => exact h

/-- A worker that acts, and not by its SELECT, stays outside the lock. -/
theorem outside_moved {cfg : Config} {w w' : World} {a : Action} {i : Nat}
    (hpc : (w.workers i).pc = .idle ∨ (w.workers i).pc = .read ∨ ∃ o, (w.workers i).pc = .close o)
    (hunwritten : ∀ r, w.row.uncommitted ≠ some (.worker i, r))
    (hselect : ∀ j, a = .run j → (w.workers j).pc ≠ .read) (ha : actor a = some i)
    (h : Moved cfg w a w') :
    ((w'.workers i).pc = .idle ∨ (w'.workers i).pc = .read ∨ ∃ o, (w'.workers i).pc = .close o) ∧
      ∀ r, w'.row.uncommitted ≠ some (.worker i, r) := by
  cases h with
  | take =>
    obtain rfl : _ = i := by simpa [actor] using ha
    exact ⟨by simp, hunwritten⟩
  | run h =>
    obtain rfl : _ = i := by simpa [actor] using ha
    have hread := hselect _ rfl
    cases h with
    | closeReturned => exact ⟨by simp, Versioned.commit_uncommitted _ _⟩
    | closeRaised => exact ⟨by simp, Versioned.rollback_uncommitted _ _⟩
    | readTerminal h | read h => exact absurd h hread
    | _ h =>
      rw [h] at hpc
      simp at hpc
  | failClose | crash =>
    obtain rfl : _ = i := by simpa [actor] using ha
    exact ⟨by simp, Versioned.rollback_uncommitted _ _⟩
  | failDatabase hdb =>
    obtain rfl : _ = i := by simpa [actor] using ha
    refine ⟨?_, Versioned.rollback_uncommitted _ _⟩
    rcases hpc with hpc | hpc | ⟨o, hpc⟩ <;> simp_all [Pc.usesDatabase, Pc.onFail]
  | fail hidle hclose hdb =>
    obtain rfl : _ = i := by simpa [actor] using ha
    rcases hpc with hpc | hpc | ⟨o, hpc⟩ <;> simp_all [Pc.usesDatabase]
  | bystander hnone _ =>
    rw [writer_of_actor ha] at hnone
    cases hnone
  | _ => cases ha

theorem hidden_step {cfg : SecuredConfig} (hforced : cfg.security = .forced)
    {s s' : SecuredWorld} {a : Action} (hI : ∀ i, Hidden s i)
    (h : stepSecured cfg s a = some s') : ∀ i, Hidden s' i := by
  intro i
  obtain ⟨w', hw, rfl⟩ := Option.map_eq_some_iff.mp h
  have hcontext : contextAfter cfg s a (.worker i) = none := contextAfter_worker (hI i).context
  rcases worldAfter_cases hforced hI hw with ⟨j, rfl, hpc, rfl⟩ | ⟨b, hactor, hselect, hstep⟩ |
    ⟨-, rfl⟩
  · refine ⟨?_, (hI i).unwritten, hcontext⟩
    by_cases hij : i = j
    · subst hij
      simp [notFound]
    · simpa [notFound, hij] using (hI i).pc
  · have hmoved := step_moved hstep
    by_cases hb : actor b = some i
    · obtain ⟨hpc, hunwritten⟩ := outside_moved (hI i).pc (hI i).unwritten hselect hb hmoved
      exact ⟨hpc, hunwritten, hcontext⟩
    · have hframe := moved_frame hmoved hb
      obtain ⟨wr, hwr, hmoves⟩ := hframe.row
      refine ⟨?_, fun r hr => ?_, hcontext⟩
      · rw [hframe.worker]
        exact (hI i).pc
      · exact (hI i).unwritten r ((hmoves.uncommitted_of_ne hwr.symm).mp hr)
  · exact ⟨(hI i).pc, (hI i).unwritten, hcontext⟩

theorem hidden_initial (inputs : List (String × Json)) (i : Nat) :
    Hidden (SecuredWorld.initial inputs) i :=
  ⟨.inl rfl, by simp [SecuredWorld.initial, World.initial], rfl⟩

/-- With the policies forced, whatever the workers, the routes and recovery do after the
execute route has committed, a task about to read its execution finds no row, and
returns with nothing read, written or published. -/
theorem task_never_finds_execution (cfg : SecuredConfig) (inputs : List (String × Json))
    (as : List Action) (s : SecuredWorld) (i : Nat) (hforced : cfg.security = .forced)
    (hrun : run (stepSecured cfg) (.initial inputs) as = some s)
    (hread : (s.world.workers i).pc = .read) :
    s.sees cfg (.worker i) = false ∧
      ∃ s', run (stepSecured cfg) s [.run i, .run i] = some s' ∧
        (s'.world.workers i).pc = .idle ∧ s'.world.ended = s.world.ended ++ [(i, .returned)] ∧
        s'.world.row = s.world.row ∧ s'.world.log = s.world.log := by
  have hI : ∀ i, Hidden s i :=
    invariant_run (I := fun s => ∀ i, Hidden s i) (G := fun _ _ => True)
      (fun _ _ _ hu _ hstep => hidden_step hforced hu hstep) (hidden_initial inputs)
      (along_of_mem (fun _ _ => trivial) _) hrun
  have hsees (t : SecuredWorld) (ht : t.context = s.context) : t.sees cfg (.worker i) = false := by
    simp [SecuredWorld.sees, RowSecurity.sees, hforced, ht, (hI i).context]
  have hselect : stepSecured cfg s (.run i) = some ⟨notFound s.world i, s.context⟩ := by
    simp [stepSecured, worldAfter, hsees s rfl, runHidden, hread, contextAfter, notFound,
      Pc.endsTransaction]
  have hclose : ∃ s', stepSecured cfg ⟨notFound s.world i, s.context⟩ (.run i) = some s' ∧
      (s'.world.workers i).pc = .idle ∧ s'.world.ended = s.world.ended ++ [(i, .returned)] ∧
      s'.world.row = s.world.row ∧ s'.world.log = s.world.log := by
    refine ⟨⟨World.finish { notFound s.world i with
      row := s.world.row.commit (.worker i)
      checkpoints := s.world.checkpoints ++ (s.world.workers i).added } i .returned,
      Function.update s.context (.worker i) none⟩, ?_, ?_, ?_, ?_, rfl⟩
    · simp [stepSecured, worldAfter, hsees, runHidden, flushedObject, runWorker, contextAfter,
        notFound, Pc.endsTransaction]
    · simp
    · simp [notFound]
    · exact Versioned.commit_of_not_own (hI i).unwritten
  obtain ⟨s', hs', hend⟩ := hclose
  exact ⟨hsees s rfl, s', by rw [run_cons_some hselect, run_cons_some hs', run_nil], hend⟩

/-! ## The first task of an execution -/

def forcedOneStep : SecuredConfig where
  toConfig := oneStep
  security := .forced
  tenantId := .repdigit 1

/-- The execution stays in PENDING with no task left for it. -/
theorem execution_not_found :
    ∃ s, run (stepSecured forcedOneStep) (.initial []) [.enqueue 0, .take 0, .run 0, .run 0] =
        some s ∧
      s.world.ended = [(0, .returned)] ∧ s.world.row.committed.status = .pending ∧
      s.world.tasks = 0 := by
  exact exists_of_any (by decide +kernel)

theorem task_never_finds_execution_first :
    ∃ s s', run (stepSecured forcedOneStep) (.initial []) [.enqueue 0, .take 0] = some s ∧
      (s.world.workers 0).pc = .read ∧ s.sees forcedOneStep (.worker 0) = false ∧
      run (stepSecured forcedOneStep) s [.run 0, .run 0] = some s' ∧
      s'.world.ended = s.world.ended ++ [(0, .returned)] := by
  have hend : (run (stepSecured forcedOneStep) (.initial []) [.enqueue 0, .take 0]).any fun s =>
      (s.world.workers 0).pc = .read := by
    decide +kernel
  obtain ⟨s, hrun, hread⟩ := exists_of_any hend
  obtain ⟨hsees, s', hs', -, hended, -⟩ :=
    task_never_finds_execution forcedOneStep [] [.enqueue 0, .take 0] s 0 rfl hrun hread
  exact ⟨s, s', hrun, hread, hsees, hs', hended⟩

end Sutram.Workflow
