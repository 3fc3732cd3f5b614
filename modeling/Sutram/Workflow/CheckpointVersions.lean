/-
The schema versions of the variables a run works on.

`run` assigns the stored variables of the latest checkpoint to its context, and nothing
between the two brings them to the current version.  Its own checkpoints are written with
the default version.  The worker's row of the ghost is the checkpoint its run has resumed
from: what the run holds are the variables of that row, at that row's version.  A run
without a checkpoint starts on the inputs of the execution, which have the current version.
-/
import Sutram.Core.Migration
import Sutram.Library.Ghost
import Sutram.Workflow.Checkpoints

namespace Sutram.Workflow

open Sutram.Core Runs

/-- The columns of a checkpoint that a run does not read. -/
structure CheckpointColumns where
  id : Uuid
  createdAt : Nat
  executionId : Uuid
  tenantId : Uuid

namespace CheckpointRow

/-- The row as an object of the shared model. -/
def toCheckpoint (row : CheckpointRow) (columns : CheckpointColumns) : Checkpoint Nat where
  id := columns.id
  createdAt := columns.createdAt
  executionId := columns.executionId
  tenantId := columns.tenantId
  stepName := row.stepName
  stepIndex := row.stepIndex
  contextVariables := row.contextVariables
  state := row.state
  schemaVersion := row.schemaVersion

/-- What `migrate_to_current` makes of the variables and the version of the row. -/
def migrated (migrators : MigratorMap) (columns : CheckpointColumns) (row : CheckpointRow) :
    Except MigrationError (Variables × Int) :=
  ((row.toCheckpoint columns).migrateToCurrent migrators).map
    fun c => (c.contextVariables, c.schemaVersion)

theorem migrated_eq_iff {migrators : MigratorMap} {columns : CheckpointColumns}
    {row : CheckpointRow} :
    row.migrated migrators columns = .ok (row.contextVariables, row.schemaVersion) ↔
      ∀ v ∈ migrators.versions, v < row.schemaVersion := by
  constructor
  · intro h
    cases hmigrated : (row.toCheckpoint columns).migrateToCurrent migrators with
    | error e => simp [migrated, hmigrated, Except.map] at h
    | ok c =>
      have hversion : c.schemaVersion = row.schemaVersion := by
        simp only [migrated, hmigrated, Except.map, Except.ok.injEq, Prod.mk.injEq] at h
        exact h.2
      exact Checkpoint.lt_of_migrateToCurrent hmigrated hversion
  · intro h
    rw [migrated, Checkpoint.migrateToCurrent_of_lt (c := row.toCheckpoint columns) h]
    rfl

end CheckpointRow

/-! ## The checkpoint a run has resumed from -/

abbrev Resumed := Nat → Option CheckpointRow

/-- The setup of a run reads the latest checkpoint. -/
def noteResumed (w : World) (_ : Action) (_ : World) (resumed : Resumed) : Resumed := fun i =>
  if (w.workers i).pc = .setup then CheckpointManager.getLatest w.checkpoints else resumed i

abbrev resumedStep (cfg : Config) := ghostStep (step cfg) noteResumed

/-- A run set up from a checkpoint starts with what the registry makes of its variables.
They are of the row's own version, so this is the version the registry leads to. -/
def StartsMigrated (migrators : MigratorMap) (columns : CheckpointColumns) (w w' : World)
    (i : Nat) : Prop :=
  (w.workers i).pc = .setup → ∀ row ∈ CheckpointManager.getLatest w.checkpoints,
    (w'.workers i).pc = .flushRunning (startIndex (some row)) →
      row.migrated migrators columns = .ok ((w'.workers i).ctx.contextVariables, row.schemaVersion)

/-- The version of the variables a run holds: the one of the row it has resumed from, or
the registry's current one. -/
def runVersion (migrators : MigratorMap) : Option CheckpointRow → Int
  | some row => row.schemaVersion
  | none => migrators.currentVersion

/-- What a run has written is under the version of its variables, and what a resumed run has
written is the variables of its row. -/
def LabelsVersion (migrators : MigratorMap) (resumed : Option CheckpointRow) (k : Worker) : Prop :=
  ∀ c ∈ k.added, c.schemaVersion = runVersion migrators resumed ∧
    ∀ row ∈ resumed, c.contextVariables = row.contextVariables

def KeepsVersion (migrators : MigratorMap) (columns : CheckpointColumns)
    (s : Ghosted World Resumed) (a : Action) (t : Ghosted World Resumed) : Prop :=
  ∀ i ∈ actor a, StartsMigrated migrators columns s.state t.state i ∧
    LabelsVersion migrators (t.ghost i) (t.state.workers i)

instance (migrators : MigratorMap) (columns : CheckpointColumns) (w w' : World) (i : Nat) :
    Decidable (StartsMigrated migrators columns w w' i) :=
  inferInstanceAs (Decidable (_ → _))

instance (migrators : MigratorMap) (resumed : Option CheckpointRow) (k : Worker) :
    Decidable (LabelsVersion migrators resumed k) :=
  inferInstanceAs (Decidable (∀ c ∈ k.added, _ ∧ ∀ row ∈ resumed, _))

instance (migrators : MigratorMap) (columns : CheckpointColumns) (s : Ghosted World Resumed)
    (a : Action) (t : Ghosted World Resumed) : Decidable (KeepsVersion migrators columns s a t) :=
  inferInstanceAs (Decidable (∀ i ∈ actor a, _))

def Pc.writesCheckpoint : Pc → Bool
  | .writeCheckpoint _ => true
  | _ => false

/-- The registry has nothing for the checkpoint a run is set up from, a resumed run that
writes a checkpoint holds variables of the default version, and where any other run writes
one the registry has nothing from the default version on. -/
def VersionSettled (migrators : MigratorMap) (s : Ghosted World Resumed) : Action → Prop
  | .run i =>
    let k := s.state.workers i
    (k.pc = .setup ∧ k.execution.current.status = .pending →
      ∀ row ∈ CheckpointManager.getLatest s.state.checkpoints,
        ∀ v ∈ migrators.versions, v < row.schemaVersion) ∧
    (k.pc.writesCheckpoint → (∀ row ∈ s.ghost i, row.schemaVersion = 1) ∧
      (s.ghost i = none → ∀ v ∈ migrators.versions, v < 1))
  | _ => True

theorem runVersion_eq_one_iff {migrators : MigratorMap} {resumed : Option CheckpointRow} :
    runVersion migrators resumed = 1 ↔ (∀ row ∈ resumed, row.schemaVersion = 1) ∧
      (resumed = none → ∀ v ∈ migrators.versions, v < 1) := by
  cases resumed with
  | some row => simp [runVersion]
  | none => simpa [runVersion, MigratorMap.currentVersion] using nextVersion_keysFrom_eq_iff

/-! ## What a worker holds -/

namespace Pc

/-- The run has not been set up yet. -/
def beforeRun : Pc → Bool
  | .idle | .read | .acquire | .setup => true
  | _ => false

theorem onFail_beforeRun (message : String) (pc : Pc) : (pc.onFail message).beforeRun = false := by
  cases pc <;> rfl

theorem onFail_frontier (message : String) (pc : Pc) : (pc.onFail message).frontier = none := by
  cases pc <;> rfl

end Pc

theorem next_beforeRun (cfg : Config) (n : Nat) : (cfg.next n).beforeRun = false := by
  rcases next_cases cfg n with hn | hn <;> rw [hn] <;> rfl

/-- Worker `k` against the checkpoint its run has resumed from. -/
structure Held (migrators : MigratorMap) (resumed : Option CheckpointRow) (k : Worker) :
    Prop where
  fresh : k.pc.beforeRun → k.added = []
  holds : ∀ n, k.pc.frontier = some n → ∀ row ∈ resumed,
    k.ctx.contextVariables = row.contextVariables
  labels : LabelsVersion migrators resumed k

theorem labelsVersion_nil {migrators : MigratorMap} {resumed : Option CheckpointRow} {k : Worker}
    (h : k.added = []) : LabelsVersion migrators resumed k := by
  intro c hc
  rw [h] at hc
  cases hc

theorem held_idle (migrators : MigratorMap) (resumed : Option CheckpointRow) :
    Held migrators resumed {} :=
  ⟨fun _ => rfl, fun _ h => (by cases h), labelsVersion_nil rfl⟩

/-- Between its setup and its end a run leaves the variables as they are. -/
theorem run_contextVariables {cfg : Config} {w w' : World} {i n : Nat}
    (h : runWorker cfg w i = some w') (hsetup : (w.workers i).pc ≠ .setup)
    (hn : (w'.workers i).pc.frontier = some n) :
    (∃ m, (w.workers i).pc.frontier = some m) ∧
      (w'.workers i).ctx.contextVariables = (w.workers i).ctx.contextVariables := by
  cases runWorker_ran h with
  | setup hpc => exact absurd hpc hsetup
  | @execute n t ctx hpc hcost =>
    refine ⟨⟨n + 1, by rw [hpc]; rfl⟩, ?_⟩
    -- `Ran` does not say which context the step leaves.
    simp only [runWorker, hpc, hcost, Option.some.injEq] at h
    rw [← h]
    simp
  | flushRunning hpc | publishStarted hpc | commitRunning hpc | refresh hpc
  | writeCheckpoint hpc | commitCheckpoint hpc | publishStep hpc | flushStep hpc =>
    exact ⟨⟨_, by rw [hpc]; rfl⟩, by simp⟩
  | publishCompleted hpc hnext | publishPaused hpc hnext =>
    rcases hnext with rfl | rfl <;> simp [Pc.frontier] at hn
  | _ => simp [Pc.frontier] at hn

theorem ran_added {cfg : Config} {w w' : World} {i : Nat} (h : Ran cfg w i w') :
    (w'.workers i).added = [] ∨ (w'.workers i).added = (w.workers i).added ∨
      ∃ n, (w.workers i).pc = .writeCheckpoint n ∧ (w'.workers i).added = (w.workers i).added ++
        [CheckpointManager.write (cfg.stepConfig n).name n
          (w.workers i).ctx.contextVariables] := by
  cases h with
  | writeCheckpoint hpc => exact .inr (.inr ⟨_, hpc, by simp⟩)
  | commitCheckpoint | commitCompleted | commitPaused | closeReturned | closeRaised =>
    exact .inl (by simp)
  | _ => exact .inr (.inl (by simp))

theorem added_writeCheckpoint {cfg : Config} {w w' : World} {i n : Nat}
    (h : runWorker cfg w i = some w') (hpc : (w.workers i).pc = .writeCheckpoint n) :
    (w'.workers i).added = (w.workers i).added ++
      [CheckpointManager.write (cfg.stepConfig n).name n
        (w.workers i).ctx.contextVariables] := by
  simp only [runWorker, hpc, Option.some.injEq] at h
  rw [← h]
  simp

theorem ran_beforeRun {cfg : Config} {w w' : World} {i : Nat} (h : Ran cfg w i w')
    (hbefore : (w'.workers i).pc.beforeRun) :
    (w'.workers i).added = [] ∨
      (w.workers i).pc.beforeRun ∧ (w'.workers i).added = (w.workers i).added := by
  cases h with
  | readTerminal hpc | read hpc | refused hpc | acquired hpc =>
    exact .inr ⟨by rw [hpc]; rfl, by simp⟩
  | commitRunning hpc | flushStep hpc => simp [next_beforeRun] at hbefore
  | refresh hpc =>
    simp only [World.set, World.record, Function.update_self] at hbefore
    split at hbefore <;> cases hbefore
  | publishStarted hpc hnext | publishStep hpc hnext | publishCompleted hpc hnext
  | publishPaused hpc hnext =>
    rcases hnext with rfl | rfl <;> simp [Pc.beforeRun] at hbefore
  | closeReturned | closeRaised => exact .inl (by simp)
  | _ => simp [Pc.beforeRun] at hbefore

/-- The context a run is set up with. -/
theorem ran_setup {cfg : Config} {w w' : World} {i : Nat} (h : Ran cfg w i w')
    (hpc : (w.workers i).pc = .setup) :
    (w.workers i).execution.current.status ≠ .pending ∧
        (w'.workers i).pc = .release .raised ∨
      (w.workers i).execution.current.status = .pending ∧
        (w'.workers i).pc = .flushRunning (startIndex (CheckpointManager.getLatest w.checkpoints)) ∧
        ∀ row ∈ CheckpointManager.getLatest w.checkpoints,
          (w'.workers i).ctx.contextVariables = row.contextVariables := by
  cases h with
  | setupRaises _ hs => exact .inl ⟨hs, by simp⟩
  | setup _ hs =>
    refine .inr ⟨hs, by simp, fun row hrow => ?_⟩
    rw [Option.mem_def] at hrow
    simp [hrow, resumeContext]
  | _ => simp_all

/-- An action of the worker besides its own operations takes it out of any run. -/
theorem moved_interrupted {cfg : Config} {w w' : World} {a : Action} {i : Nat}
    (h : Moved cfg w a w') (hi : actor a = some i) (hrun : a ≠ .run i) :
    ((w'.workers i).pc.beforeRun → (w'.workers i).added = []) ∧
      (w'.workers i).pc.frontier = none ∧
      ((w'.workers i).added = [] ∨ (w'.workers i).added = (w.workers i).added) := by
  cases h with
  | run h =>
    obtain rfl := Option.some.inj hi
    exact absurd rfl hrun
  | take | failClose | crash =>
    obtain rfl := Option.some.inj hi
    simp [Pc.frontier]
  | failDatabase | fail =>
    obtain rfl := Option.some.inj hi
    simp [Pc.onFail_beforeRun, Pc.onFail_frontier]
  | bystander ha =>
    rw [writer_of_actor hi] at ha
    cases ha
  | _ => cases hi

/-! ## One step -/

theorem noteResumed_of_ne {w w' : World} {a : Action} {resumed : Resumed} {i : Nat}
    (h : (w.workers i).pc ≠ .setup) : noteResumed w a w' resumed i = resumed i := by
  simp [noteResumed, h]

theorem noteResumed_of_setup {w w' : World} {a : Action} {resumed : Resumed} {i : Nat}
    (h : (w.workers i).pc = .setup) :
    noteResumed w a w' resumed i = CheckpointManager.getLatest w.checkpoints := by
  simp [noteResumed, h]

theorem held_other {cfg : Config} {migrators : MigratorMap} {s t : Ghosted World Resumed}
    {a : Action} {i : Nat} (hI : Held migrators (s.ghost i) (s.state.workers i))
    (h : resumedStep cfg s a = some t) (hi : i ∉ actor a) :
    Held migrators (t.ghost i) (t.state.workers i) := by
  obtain ⟨hstep, hghost⟩ := ghostStep_eq_some h
  rw [(moved_frame (step_moved hstep) hi).worker, hghost]
  by_cases hpc : (s.state.workers i).pc = .setup
  · refine ⟨hI.fresh, fun n hn => ?_, labelsVersion_nil (hI.fresh (by rw [hpc]; rfl))⟩
    rw [hpc] at hn
    cases hn
  · rwa [noteResumed_of_ne hpc]

theorem held_actor {cfg : Config} {migrators : MigratorMap} {s t : Ghosted World Resumed}
    {a : Action} {i : Nat} (hI : Held migrators (s.ghost i) (s.state.workers i))
    (h : resumedStep cfg s a = some t) (hi : i ∈ actor a)
    (hlabels : LabelsVersion migrators (t.ghost i) (t.state.workers i)) :
    Held migrators (t.ghost i) (t.state.workers i) := by
  obtain ⟨hstep, hghost⟩ := ghostStep_eq_some h
  by_cases ha : a = .run i
  · subst ha
    have hrun := runWorker_ran hstep
    refine ⟨fun hbefore => ?_, fun n hn => ?_, hlabels⟩
    · rcases ran_beforeRun hrun hbefore with hnil | ⟨hwas, hsame⟩
      · exact hnil
      · rw [hsame]
        exact hI.fresh hwas
    · by_cases hpc : (s.state.workers i).pc = .setup
      · rw [hghost, noteResumed_of_setup hpc]
        rcases ran_setup hrun hpc with ⟨-, hraised⟩ | ⟨-, -, hctx⟩
        · rw [hraised] at hn
          cases hn
        · exact hctx
      · obtain ⟨⟨m, hm⟩, hctx⟩ := run_contextVariables hstep hpc hn
        rw [hghost, noteResumed_of_ne hpc, hctx]
        exact hI.holds m hm
  · obtain ⟨hfresh, hfrontier, -⟩ := moved_interrupted (step_moved hstep) hi ha
    refine ⟨hfresh, fun n hn => ?_, hlabels⟩
    rw [hfrontier] at hn
    cases hn

theorem held_step {cfg : Config} {migrators : MigratorMap} {columns : CheckpointColumns}
    {s t : Ghosted World Resumed} {a : Action}
    (hI : ∀ i, Held migrators (s.ghost i) (s.state.workers i))
    (h : resumedStep cfg s a = some t) (hkeeps : KeepsVersion migrators columns s a t) (i : Nat) :
    Held migrators (t.ghost i) (t.state.workers i) := by
  by_cases hi : i ∈ actor a
  · exact held_actor (hI i) h hi (hkeeps i hi).2
  · exact held_other (hI i) h hi

/-- What the worker of the action has written, when the checkpoint it writes next is of
the default version. -/
theorem labelsVersion_actor {cfg : Config} {migrators : MigratorMap} {s t : Ghosted World Resumed}
    {a : Action} {i : Nat} (hI : Held migrators (s.ghost i) (s.state.workers i))
    (h : resumedStep cfg s a = some t) (hi : i ∈ actor a)
    (hdefault : a = .run i → (s.state.workers i).pc.writesCheckpoint →
      runVersion migrators (s.ghost i) = 1) :
    LabelsVersion migrators (t.ghost i) (t.state.workers i) := by
  obtain ⟨hstep, hghost⟩ := ghostStep_eq_some h
  -- Before the setup of a run there is nothing written, so the new row of the ghost is right.
  have hsame : (t.state.workers i).added = (s.state.workers i).added →
      LabelsVersion migrators (t.ghost i) (t.state.workers i) := by
    intro hadded
    by_cases hpc : (s.state.workers i).pc = .setup
    · exact labelsVersion_nil (hadded.trans (hI.fresh (by rw [hpc]; rfl)))
    · intro c hc
      rw [hadded] at hc
      rw [hghost, noteResumed_of_ne hpc]
      exact hI.labels c hc
  by_cases ha : a = .run i
  · subst ha
    rcases ran_added (runWorker_ran hstep) with hnil | hadded | ⟨n, hpc, hadded⟩
    · exact labelsVersion_nil hnil
    · exact hsame hadded
    · intro c hc
      rw [hghost, noteResumed_of_ne (by rw [hpc]; exact fun h => by cases h)]
      rw [hadded] at hc
      rcases List.mem_append.mp hc with hc | hc
      · exact hI.labels c hc
      · rw [List.mem_singleton.mp hc]
        exact ⟨(hdefault rfl (by rw [hpc]; rfl)).symm, hI.holds n (by rw [hpc]; rfl)⟩
  · rcases (moved_interrupted (step_moved hstep) hi ha).2.2 with hnil | hadded
    · exact labelsVersion_nil hnil
    · exact hsame hadded

theorem keepsVersion_step {cfg : Config} {migrators : MigratorMap} {columns : CheckpointColumns}
    {s t : Ghosted World Resumed} {a : Action}
    (hI : ∀ i, Held migrators (s.ghost i) (s.state.workers i))
    (h : resumedStep cfg s a = some t) (hsettled : VersionSettled migrators s a) :
    KeepsVersion migrators columns s a t := by
  have hstep := (ghostStep_eq_some h).1
  intro i hi
  refine ⟨fun hpc row hrow hstarted => ?_, labelsVersion_actor (hI i) h hi ?_⟩
  · by_cases ha : a = .run i
    · subst ha
      rcases ran_setup (runWorker_ran hstep) hpc with ⟨-, hraised⟩ | ⟨hpending, -, hctx⟩
      · rw [hraised] at hstarted
        cases hstarted
      · rw [hctx row hrow]
        exact CheckpointRow.migrated_eq_iff.mpr (hsettled.1 ⟨hpc, hpending⟩ row hrow)
    · have hfrontier := (moved_interrupted (step_moved hstep) hi ha).2.1
      rw [hstarted] at hfrontier
      cases hfrontier
  · rintro rfl hwrites
    exact runVersion_eq_one_iff.mpr (hsettled.2 hwrites)

theorem versionSettled_step {cfg : Config} {migrators : MigratorMap} {columns : CheckpointColumns}
    {s t : Ghosted World Resumed} {a : Action} (h : resumedStep cfg s a = some t)
    (hkeeps : KeepsVersion migrators columns s a t) : VersionSettled migrators s a := by
  obtain ⟨hstep, hghost⟩ := ghostStep_eq_some h
  cases a with
  | run i =>
    have hrun := runWorker_ran hstep
    obtain ⟨hstarts, hlabels⟩ := hkeeps i rfl
    refine ⟨fun ⟨hpc, hpending⟩ row hrow => ?_, fun hwrites => ?_⟩
    · rcases ran_setup hrun hpc with ⟨hnot, -⟩ | ⟨-, hstarted, hctx⟩
      · exact absurd hpending hnot
      · rw [Option.mem_def.mp hrow] at hstarted
        have hmigrated := hstarts hpc row hrow hstarted
        rw [hctx row hrow] at hmigrated
        exact CheckpointRow.migrated_eq_iff.mp hmigrated
    · have hpc : ∃ n, (s.state.workers i).pc = .writeCheckpoint n := by
        cases hpc : (s.state.workers i).pc <;> rw [hpc] at hwrites <;> cases hwrites
        exact ⟨_, rfl⟩
      obtain ⟨n, hpc⟩ := hpc
      rw [hghost, noteResumed_of_ne (by rw [hpc]; exact fun h => by cases h)] at hlabels
      have hnew := hlabels (CheckpointManager.write (cfg.stepConfig n).name n
        (s.state.workers i).ctx.contextVariables) (by
          rw [added_writeCheckpoint hstep hpc]
          simp)
      exact runVersion_eq_one_iff.mp hnew.1.symm
  | _ => trivial

/-! ## The run -/

/-- Every run that resumes starts with the variables the registry makes of its checkpoint,
and every run labels what it writes with the version of its variables, exactly as long as
the registry has nothing for the checkpoints resumed from, no run resumed from another
version than the default writes a checkpoint, and the registry has nothing from the default
version on where a run without a checkpoint writes one. -/
theorem keepsVersion_iff (cfg : Config) (migrators : MigratorMap) (columns : CheckpointColumns)
    {w : World} (hidle : ∀ i, w.workers i = {}) (resumed : Resumed) (as : List Action) :
    Along (resumedStep cfg) (KeepsVersion migrators columns) ⟨w, resumed⟩ as ↔
      Along (resumedStep cfg) (fun s a _ => VersionSettled migrators s a) ⟨w, resumed⟩ as := by
  refine along_iff (I := fun s => ∀ i, Held migrators (s.ghost i) (s.state.workers i))
    (fun s a t hI h hkeeps => held_step hI h hkeeps)
    (fun s a t hI h => ⟨versionSettled_step h, keepsVersion_step hI h⟩) (fun i => ?_)
  rw [hidle i]
  exact held_idle migrators (resumed i)

/-- Two steps, each behind a checkpoint. -/
def checkpointedSteps : Config where
  definitionSnapshot := some ⟨[⟨{ name := "first", checkpointBefore := true }⟩,
    ⟨{ name := "second", checkpointBefore := true }⟩]⟩
  workflowDefinition := ⟨[]⟩

def firstCheckpoint (schemaVersion : Int) : CheckpointRow where
  stepName := "first"
  stepIndex := 0
  contextVariables := [("a", .str "hello")]
  schemaVersion := schemaVersion

/-- An execution with the checkpoint of its first step stored under a schema version. -/
def storedCheckpoint (schemaVersion : Int) : World :=
  { World.initial [] with checkpoints := [firstCheckpoint schemaVersion] }

def anyColumns : CheckpointColumns where
  id := .repdigit 1
  createdAt := 0
  executionId := .repdigit 2
  tenantId := .repdigit 3

/-- The registry has a migrator for the stored version, and the run starts without it; the
registry has none, and a run on variables of version 2 writes them under version 1; or there
is no checkpoint, and a run on variables of version 2 writes its first one so. -/
theorem resumes_unmigrated_and_relabels :
    ¬ Along (resumedStep checkpointedSteps)
        (KeepsVersion (Dict.empty.set 1 (renameKey "a" "b")) anyColumns)
        ⟨storedCheckpoint 1, fun _ => none⟩ (.enqueue 0 :: deliver 3) ∧
      ¬ Along (resumedStep checkpointedSteps) (KeepsVersion Dict.empty anyColumns)
        ⟨storedCheckpoint 2, fun _ => none⟩ (.enqueue 0 :: deliver 9) ∧
      ¬ Along (resumedStep checkpointedSteps)
        (KeepsVersion (Dict.empty.set 1 (renameKey "a" "b")) anyColumns)
        ⟨World.initial [("b", .str "hello")], fun _ => none⟩ (.enqueue 0 :: deliver 9) := by
  refine ⟨?_, ?_, ?_⟩ <;> decide +kernel

theorem keepsVersion_of_current :
    (Along (resumedStep checkpointedSteps) (KeepsVersion Dict.empty anyColumns)
        ⟨storedCheckpoint 1, fun _ => none⟩ (.enqueue 0 :: deliver 10) ↔
      Along (resumedStep checkpointedSteps) (fun s a _ => VersionSettled Dict.empty s a)
        ⟨storedCheckpoint 1, fun _ => none⟩ (.enqueue 0 :: deliver 10)) ∧
    Along (resumedStep checkpointedSteps) (KeepsVersion Dict.empty anyColumns)
      ⟨storedCheckpoint 1, fun _ => none⟩ (.enqueue 0 :: deliver 10) :=
  ⟨keepsVersion_iff checkpointedSteps Dict.empty anyColumns (w := storedCheckpoint 1)
    (fun _ => rfl) (fun _ => none) (.enqueue 0 :: deliver 10), by decide +kernel⟩

end Sutram.Workflow
