/-
Every execution of the service is served as if it were the only one.

The service keeps `Sound`: each execution has the definition that was posted for its
workflow, each process that runs it uses this definition, and its part of the state is
one that the service of one execution reaches from the inputs it was started with.  So
whatever holds of every run of one execution holds of each of them all.
-/
import Sutram.Workflow.EngineFrames

namespace Sutram.Workflow.Engine

open Sutram.Core Runs

variable {s s' t : Engine} {id : Uuid} {i p r : Nat} {cfg : Settings}

/-- The definition a client has posted for the workflow. -/
def PostedFor (cfg : Settings) (s : Engine) (workflowId : Uuid) (d : Core.WorkflowDefinition) :
    Prop :=
  ∃ post ∈ s.posted, post.workflowId = workflowId ∧
    Core.WorkflowDefinition.modelValidate cfg.lax post.definition = some d

structure Served (cfg : Settings) (s : Engine) (ex : Execution) (d : Core.WorkflowDefinition) :
    Prop where
  snapshot : ex.definitionSnapshot = some d.modelDump
  posted : PostedFor cfg s ex.workflowId d
  uses : Uses s ex.id (forExecutor d)
  reaches : Reaches (Workflow.step (cfg.config (forExecutor d))) (.initial ex.inputs) (s.of ex.id)

def ids (s : Engine) : List Uuid := s.executions.rows.map Execution.id

/-- The part of an id that no execution has. -/
def blank (clock : Nat) : World := { row := .settled {}, clock := clock }

structure Sound (cfg : Settings) (s : Engine) : Prop where
  workflows : ∀ wf ∈ s.workflows.rows, ∃ d, PostedFor cfg s wf.id d ∧ wf.definition = d.modelDump
  executions : ∀ ex ∈ s.executions.rows, ∃ d, Served cfg s ex d
  unknown : ∀ id, id ∉ s.ids → s.of id = blank s.clock
  tasks : ∀ task ∈ s.tasks, ∃ id ∈ s.ids, task = id.str
  sweeps : ∀ p, (s.pods p).stale.Nodup

/-! ## Steps that name one execution -/

theorem exists_other (id : Uuid) : ∃ other, id ≠ other := by
  by_cases h : id = .repdigit 0
  · refine ⟨.repdigit 1, ?_⟩
    rw [h]
    decide
  · exact ⟨.repdigit 0, h⟩

/-- The clock is in the part of every id. -/
theorem Local.clock (h : Local cfg id s t) : t.clock = s.clock := by
  obtain ⟨other, hne⟩ := exists_other id
  exact congrArg World.clock (h.others other hne)

theorem Local.ids_eq (h : Local cfg id s t) : t.ids = s.ids := by
  rw [ids, h.executions, ids]

theorem Local.uses_other {other : Uuid} {d : WorkflowDefinition} (h : Local cfg id s t)
    (hne : id ≠ other) (huses : Uses s other d) : Uses t other d := by
  intro j process hj hother
  rcases h.processes j process hj with hid | hs
  · exact absurd (hid.symm.trans hother) hne
  · exact huses j process hs hother

theorem find_of_mem {ex : Execution} (h : ex ∈ s.executions.rows) : s.find ex.id = some ex :=
  Table.find?_eq_some h (by simp) fun other hother => by simpa using hother

/-- The stored snapshot is read back as the definition it was made from. -/
theorem Served.runnable {ex : Execution} {d : Core.WorkflowDefinition} (h : Served cfg s ex d) :
    s.runnable cfg ex = .ok (forExecutor d) := by
  have hsnapshot := h.snapshot
  have hread := Core.WorkflowDefinition.modelValidate_modelDump cfg.lax d
  simp only [Core.WorkflowDefinition.modelDump] at hsnapshot hread
  simp only [Engine.runnable, hsnapshot, hread]

theorem Served.givenTo {ex : Execution} {d : Core.WorkflowDefinition} (h : Served cfg s ex d)
    (hex : ex ∈ s.executions.rows) : GivenTo cfg s ex.id (forExecutor d) := by
  intro other hother
  rw [find_of_mem hex] at hother
  cases hother
  exact h.runnable

/-- A step that names an execution keeps the invariant when it does to this execution
what its own service can do. -/
theorem Sound.of_local (hsound : Sound cfg s) (hknown : id ∈ s.ids) (h : Local cfg id s t)
    (hown : ∀ ex ∈ s.executions.rows, ex.id = id → ∀ d, Served cfg s ex d →
      Reaches (Workflow.step (cfg.config (forExecutor d))) (s.of id) (t.of id)) : Sound cfg t where
  workflows := by
    rw [h.workflows]
    simpa only [PostedFor, h.posted] using hsound.workflows
  executions := by
    rw [h.executions]
    intro ex hex
    obtain ⟨d, hserved⟩ := hsound.executions ex hex
    have hposted : PostedFor cfg t ex.workflowId d := by
      simpa only [PostedFor, h.posted] using hserved.posted
    by_cases hid : ex.id = id
    · have hreaches := hown ex hex hid d hserved
      rw [← hid] at hreaches h
      have huses := h.uses _ (hserved.givenTo hex) hserved.uses
      exact ⟨d, hserved.snapshot, hposted, huses, hserved.reaches.trans hreaches⟩
    · have hne : id ≠ ex.id := Ne.symm hid
      refine ⟨d, hserved.snapshot, hposted, h.uses_other hne hserved.uses, ?_⟩
      rw [h.others ex.id hne]
      exact hserved.reaches
  unknown := by
    intro other hother
    rw [h.ids_eq] at hother
    have hne : id ≠ other := fun heq => hother (heq ▸ hknown)
    rw [h.others other hne, h.clock]
    exact hsound.unknown other hother
  tasks := by
    intro task hmem
    rw [h.ids_eq]
    rcases h.tasks task hmem with hold | hnew
    · exact hsound.tasks task hold
    · exact ⟨id, hknown, hnew⟩
  sweeps := fun p => (hsound.sweeps p).sublist (h.sweeps p)

/-- The step is one action of the execution's own service. -/
theorem Sound.of_action (hsound : Sound cfg s) (hknown : id ∈ s.ids) (h : Local cfg id s t)
    (b : Workflow.Action)
    (hb : ∀ d, Workflow.step (cfg.config d) (s.of id) b = some (t.of id)) : Sound cfg t :=
  hsound.of_local hknown h fun _ _ _ d _ => .single (hb (forExecutor d))

/-- Where the execution's part of the state is not blank, there is the execution. -/
theorem Sound.known (hsound : Sound cfg s) (h : s.of id ≠ blank s.clock) : id ∈ s.ids := by
  by_contra hnot
  exact h (hsound.unknown id hnot)

theorem Sound.known_of_worker (hsound : Sound cfg s) {process : Process}
    (h : s.workers i = some process) (hidle : process.worker.pc ≠ .idle) :
    process.executionId ∈ s.ids := by
  refine hsound.known fun hblank => hidle ?_
  rw [← of_workers h, hblank]
  rfl

theorem Sound.known_of_request (hsound : Sound cfg s) (h : (s.requests id r).phase ≠ .idle) :
    id ∈ s.ids := by
  refine hsound.known fun hblank => h ?_
  rw [← of_requests, hblank]
  rfl

theorem Sound.known_of_pod (hsound : Sound cfg s) (h : (s.of id).pods p ≠ .idle) :
    id ∈ s.ids := by
  refine hsound.known fun hblank => h ?_
  rw [hblank]
  rfl

theorem Sound.known_of_lock (hsound : Sound cfg s) (h : (s.of id).lock ≠ none) : id ∈ s.ids := by
  refine hsound.known fun hblank => h ?_
  rw [hblank]
  rfl

/-! ## The worker -/

/-- The read takes the execution's own definition. -/
theorem readProcess_of {process : Process} {ex : Execution} {d : Core.WorkflowDefinition}
    (hworker : s.workers i = some process) (hread : process.worker.pc = .read)
    (hex : ex ∈ s.executions.rows) (hid : ex.id = process.executionId)
    (hserved : Served cfg s ex d) (hrun : s.runProcess cfg i process = some s') :
    runWorker (cfg.config (forExecutor d)) (s.of process.executionId) i =
      some (s'.of process.executionId) := by
  have hfind : s.find process.executionId = some ex := by
    rw [← hid]
    exact find_of_mem hex
  simp only [runProcess, hread, hfind, hserved.runnable] at hrun
  simp only [runWorker, of_workers hworker, hread]
  by_cases hterminal : Terminal (s.rows process.executionId).committed.status
  · rw [if_pos hterminal] at hrun
    cases hrun
    rw [if_pos (show Terminal (s.of process.executionId).row.committed.status from hterminal)]
    simp
  · rw [if_neg hterminal] at hrun
    cases hrun
    rw [if_neg (show ¬ Terminal (s.of process.executionId).row.committed.status from hterminal)]
    rw [of_set, workerOf, if_pos rfl]
    rfl

/-- The end of a task does not depend on the definition. -/
theorem runWorker_close {w : World} {o : Outcome} (h : (w.workers i).pc = .close o)
    (config config' : Config) : runWorker config w i = runWorker config' w i := by
  cases o <;> simp only [runWorker, h]

theorem Sound.runProcess (hsound : Sound cfg s) {process : Process}
    (h : s.workers i = some process) (hrun : s.runProcess cfg i process = some s') :
    Sound cfg s' := by
  have hidle : process.worker.pc ≠ .idle := by
    intro hidle
    simp [Engine.runProcess, hidle] at hrun
  refine hsound.of_local (hsound.known_of_worker h hidle) (local_runProcess h hrun) ?_
  intro ex hex hid d hserved
  refine Reaches.single (a := .run i) ?_
  by_cases hread : process.worker.pc = .read
  · exact readProcess_of h hread hex hid hserved hrun
  · have hown := runProcess_of cfg h hread
    rw [hrun] at hown
    rcases hserved.uses i process h hid.symm with hout | hdefinition
    · cases hpc : process.worker.pc with
      | close o =>
        rw [Workflow.step, ← runWorker_close (by rw [of_workers h, hpc]) _ _, hown]
        rfl
      | read => exact absurd hpc hread
      | idle => exact absurd hpc hidle
      | _ =>
        rw [hpc] at hout
        cases hout
    · rw [← hdefinition]
      exact hown

theorem Sound.failProcess (hsound : Sound cfg s) {process : Process} {message : String}
    (h : s.workers i = some process) (hfail : s.failProcess i process message = some s') :
    Sound cfg s' := by
  have hidle : process.worker.pc ≠ .idle := by
    intro hidle
    simp [Engine.failProcess, hidle] at hfail
  refine hsound.of_action (hsound.known_of_worker h hidle) (local_failProcess h hfail)
    (.fail i message) fun d => ?_
  rw [Workflow.step, failProcess_of h, hfail]
  rfl

theorem Sound.crashProcess (hsound : Sound cfg s) {process : Process}
    (h : s.workers i = some process) (hcrash : s.crashProcess i process = some s') :
    Sound cfg s' := by
  have hidle : process.worker.pc ≠ .idle := by
    intro hidle
    simp [Engine.crashProcess, hidle] at hcrash
  refine hsound.of_action (hsound.known_of_worker h hidle) (local_crashProcess h hcrash)
    (.crash i) fun d => ?_
  rw [Workflow.step, crashProcess_of h, hcrash]
  rfl

theorem Sound.takeTask (hsound : Sound cfg s) {task : String}
    (h : s.takeTask i task = some s') : Sound cfg s' := by
  have hmem : task ∈ s.tasks := by
    simp only [Engine.takeTask] at h
    split at h
    · rename_i hfree
      exact hfree.2
    · cases h
  obtain ⟨id, hknown, rfl⟩ := hsound.tasks task hmem
  exact hsound.of_action hknown (local_takeTask h) (.take i) fun d => takeTask_of h

/-! ## The control routes -/

theorem Sound.startRequest (hsound : Sound cfg s) {tenantId : Uuid} {kind : RequestKind}
    (h : s.startRequest tenantId id r kind = some s') : Sound cfg s' := by
  rcases startRequest_of h with rfl | hstep
  · exact hsound
  · by_cases hknown : id ∈ s.ids
    · exact hsound.of_action hknown (local_startRequest h) (.request r kind) fun d => hstep
    · have hnone : (s.executions.find? fun ex => ex.id = id && ex.tenantId = tenantId) = none := by
        rw [Table.find?, List.find?_eq_none]
        intro ex hex hfound
        simp only [Bool.and_eq_true, decide_eq_true_eq] at hfound
        exact hknown (List.mem_map.mpr ⟨ex, hex, hfound.1⟩)
      simp only [Engine.startRequest, hnone] at h
      split at h <;> cases h
      exact hsound

/-- A step of a request that is under way. -/
theorem Sound.of_request {o : Option Engine} (hsound : Sound cfg s) (h : o = some t)
    (hidle : (s.requests id r).phase = .idle → o = none) (hlocal : Local cfg id s t)
    (b : Workflow.Action)
    (hb : ∀ d, Workflow.step (cfg.config d) (s.of id) b = o.map fun t => t.of id) :
    Sound cfg t := by
  have hphase : (s.requests id r).phase ≠ .idle := by
    intro hphase
    rw [hidle hphase] at h
    cases h
  refine hsound.of_action (hsound.known_of_request hphase) hlocal b fun d => ?_
  rw [hb, h]
  rfl

theorem Sound.flushRequest (hsound : Sound cfg s) (h : s.flushRequest id r = some s') :
    Sound cfg s' :=
  hsound.of_request (r := r) h (fun hphase => by simp [Engine.flushRequest, hphase])
    (local_flushRequest h) (.flush r) fun _ => flushRequest_of

theorem Sound.commitRequest (hsound : Sound cfg s) (h : s.commitRequest id r = some s') :
    Sound cfg s' :=
  hsound.of_request (r := r) h (fun hphase => by simp [Engine.commitRequest, hphase])
    (local_commitRequest h) (.commit r) fun _ => commitRequest_of

theorem Sound.enqueueRequest (hsound : Sound cfg s) (h : s.enqueueRequest id r = some s') :
    Sound cfg s' :=
  hsound.of_request (r := r) h (fun hphase => by simp [Engine.enqueueRequest, hphase])
    (local_enqueueRequest h) (.enqueue r) fun _ => enqueueRequest_of

theorem Sound.failEnqueue (hsound : Sound cfg s) (h : s.failEnqueue id r = some s') :
    Sound cfg s' :=
  hsound.of_request (r := r) h (fun hphase => by simp [Engine.failEnqueue, hphase])
    (local_failEnqueue h) (.enqueueFails r) fun _ => failEnqueue_of

theorem Sound.abortRequest (hsound : Sound cfg s) (h : s.abortRequest id r = some s') :
    Sound cfg s' :=
  hsound.of_request (r := r) h (fun hphase => by simp [Engine.abortRequest, hphase])
    (local_abortRequest h) (.abort r) fun _ => abortRequest_of

theorem Sound.expireLock (hsound : Sound cfg s) (h : s.expireLock id = some s') :
    Sound cfg s' := by
  have hlock : (s.of id).lock ≠ none := by
    intro hlock
    simp [Engine.expireLock, show s.locks (lockKey id) = none from hlock] at h
  refine hsound.of_action (hsound.known_of_lock hlock) (local_expireLock h) .expire fun d => ?_
  rw [Workflow.step, expireLock_of, h]
  rfl

/-! ## Recovery -/

theorem Sound.runPod (hsound : Sound cfg s) (h : s.runPod p = some s') : Sound cfg s' := by
  obtain ⟨id, rest, hstale, hstep⟩ := runPod_of (hsound.sweeps p) h
  have hidle : (s.of id).pods p ≠ .idle := by
    intro hidle
    rw [Workflow.runPod, hidle] at hstep
    cases hstep
  exact hsound.of_action (hsound.known_of_pod hidle) (local_runPod hstale h) (.pod p)
    fun d => hstep

/-- A step of a pod that may concern many executions. -/
theorem Sound.of_pods (hsound : Sound cfg s) (hworkflows : t.workflows = s.workflows)
    (hexecutions : t.executions = s.executions) (hposted : t.posted = s.posted)
    (htasks : t.tasks = s.tasks) (hworkers : t.workers = s.workers)
    (hsweeps : ∀ p, (t.pods p).stale.Nodup)
    (hunknown : ∀ id, id ∉ s.ids → t.of id = s.of id)
    (hown : ∀ id, id ∈ s.ids → ∀ d,
      Reaches (Workflow.step (cfg.config d)) (s.of id) (t.of id)) : Sound cfg t where
  workflows := by
    rw [hworkflows]
    simpa only [PostedFor, hposted] using hsound.workflows
  executions := by
    rw [hexecutions]
    intro ex hex
    obtain ⟨d, hserved⟩ := hsound.executions ex hex
    refine ⟨d, hserved.snapshot, ?_, ?_, ?_⟩
    · simpa only [PostedFor, hposted] using hserved.posted
    · simpa only [Uses, hworkers] using hserved.uses
    · exact hserved.reaches.trans (hown ex.id (List.mem_map_of_mem hex) (forExecutor d))
  unknown := by
    intro id hid
    have hids : t.ids = s.ids := by rw [ids, hexecutions, ids]
    rw [hids] at hid
    have hclock : t.clock = s.clock := congrArg World.clock (hunknown id hid)
    rw [hunknown id hid, hclock]
    exact hsound.unknown id hid
  tasks := by
    rw [htasks, ids, hexecutions]
    exact hsound.tasks
  sweeps := hsweeps

theorem nodup_setPod {sweep : Sweep} (hsound : Sound cfg s) (hsweep : sweep.stale.Nodup) (q : Nat) :
    ((s.setPod p sweep).pods q).stale.Nodup := by
  by_cases hq : q = p
  · subst hq
    simpa [Engine.setPod] using hsweep
  · simpa [Engine.setPod, Function.update_of_ne hq] using hsound.sweeps q

/-- A pod that drops its list has nothing of an id that no execution has. -/
theorem Sound.drop_unknown (hsound : Sound cfg s) {id : Uuid} (h : id ∉ s.ids) (p : Nat) :
    (s.setPod p {}).of id = s.of id := by
  have hidle : ({} : Sweep).of id = .idle := by simp [Sweep.of]
  have hpod : (s.of id).pods p = .idle := by
    rw [hsound.unknown id h]
    rfl
  rw [setPod_of, hidle, World.setPod, ← hpod, Function.update_eq_self]

theorem Sound.drop (hsound : Sound cfg s) (p : Nat) : Sound cfg (s.setPod p {}) :=
  hsound.of_pods rfl rfl rfl rfl rfl (nodup_setPod hsound List.nodup_nil)
    (fun _ hid => hsound.drop_unknown hid p) fun id _ d => drop_of (cfg.config d) s p id

theorem Sound.crashPod (hsound : Sound cfg s) (h : s.crashPod p = some s') : Sound cfg s' := by
  unfold Engine.crashPod at h
  split at h <;> cases h
  exact hsound.drop p

theorem Sound.failPod (hsound : Sound cfg s) (h : s.failPod p = some s') : Sound cfg s' := by
  cases hstale : (s.pods p).stale with
  | nil => simp [Engine.failPod, hstale] at h
  | cons id rest =>
    cases hstage : (s.pods p).stage with
    | enqueue =>
      simp only [Engine.failPod, hstale, hstage] at h
      cases h
      have hknown : id ∈ s.ids := by
        refine hsound.known_of_pod (p := p) ?_
        simp [Sweep.of, hstale, hstage]
      exact (hsound.drop p).of_local hknown ((Local.refl cfg id _).releaseLock _)
        fun _ _ _ d _ => releaseDropped_of _ s p id
    | _ => simp [Engine.failPod, hstale, hstage] at h

theorem Sound.scanPod (hsound : Sound cfg s) {stale : List Uuid}
    (h : s.scanPod cfg p stale = some s') : Sound cfg s' := by
  have hstep : ∀ id, id ∈ s.ids → ∀ d,
      Workflow.scanPod (cfg.config d) (s.of id) p = some (s'.of id) :=
    fun id hid d => scanPod_of d hid h
  unfold Engine.scanPod at h
  split at h <;> cases h
  rename_i hfree
  have hsub : ∀ id ∈ stale, id ∈ s.ids := by
    intro id hid
    have hmem := hfree.2.mem_iff.mp hid
    exact (List.mem_filter.mp hmem).1
  have hnodup : stale.Nodup := hfree.2.nodup_iff.mpr (s.executions.nodup.filter _)
  refine hsound.of_pods rfl rfl rfl rfl rfl (nodup_setPod hsound hnodup) (fun id hid => ?_)
    fun id hid d => .single (a := .scan p) (hstep id hid d)
  have hnot : id ∉ stale := fun hin => hid (hsub id hin)
  have hhead : stale.head? ≠ some id := fun hhead => hnot (List.mem_of_head? hhead)
  have hidle : (⟨stale, if stale = [] then .idle else .stale⟩ : Sweep).of id = .idle := by
    simp [Sweep.of, hhead, hnot]
  have hpod : (s.of id).pods p = .idle := by
    rw [hsound.unknown id hid]
    rfl
  rw [setPod_of, hidle, World.setPod, ← hpod, Function.update_eq_self]

/-! ## Workflows and new executions -/

/-- What is added beside an execution leaves it served. -/
theorem Served.mono {ex : Execution} {d : Core.WorkflowDefinition} (h : Served cfg s ex d)
    (hposted : ∀ post ∈ s.posted, post ∈ t.posted) (hworkers : t.workers = s.workers)
    (hof : t.of ex.id = s.of ex.id) : Served cfg t ex d where
  snapshot := h.snapshot
  posted := by
    obtain ⟨post, hmem, hpost⟩ := h.posted
    exact ⟨post, hposted post hmem, hpost⟩
  uses := by simpa only [Uses, hworkers] using h.uses
  reaches := by
    rw [hof]
    exact h.reaches

theorem Sound.createWorkflow (hsound : Sound cfg s) (tenantId : Uuid)
    (body : CreateWorkflowRequest) (id : Uuid) :
    Sound cfg (s.createWorkflow cfg tenantId body id) := by
  unfold Engine.createWorkflow
  split
  · exact hsound
  · rename_i d hd
    dsimp only
    split
    · exact hsound
    · split
      · exact hsound
      · rename_i workflows hinsert
        have hposted : ∀ post ∈ s.posted,
            post ∈ s.posted ++ [(⟨id, tenantId, body.definition⟩ : Posted)] :=
          fun post hmem => List.mem_append_left _ hmem
        refine ⟨?_, ?_, hsound.unknown, hsound.tasks, hsound.sweeps⟩
        · intro wf hwf
          rcases (Table.mem_of_insert hinsert).mp hwf with hold | rfl
          · obtain ⟨d', ⟨post, hmem, hpost⟩, hdump⟩ := hsound.workflows wf hold
            exact ⟨d', ⟨post, hposted post hmem, hpost⟩, hdump⟩
          · refine ⟨d, ⟨⟨id, tenantId, body.definition⟩, ?_, rfl, hd⟩, rfl⟩
            exact List.mem_append_right _ (List.mem_singleton_self _)
        · intro ex hex
          obtain ⟨d', hserved⟩ := hsound.executions ex hex
          exact ⟨d', hserved.mono hposted rfl rfl⟩

theorem reaches_clock (config : Config) (w : World) (n : Nat) :
    Reaches (Workflow.step config) w { w with clock := w.clock + n } := by
  induction n with
  | zero => exact .refl w
  | succ n ih => exact ih.tail (a := .tick) rfl

/-- A new execution begins where its own service does, except for the clock. -/
theorem Sound.execute (hsound : Sound cfg s) (tenantId workflowId : Uuid)
    (inputs : List (String × Json)) (id : Uuid) :
    Sound cfg (s.execute tenantId workflowId inputs id) := by
  unfold Engine.execute
  split
  · exact hsound
  · rename_i workflow hfind
    split
    · exact hsound
    · split
      · exact hsound
      · rename_i executions hinsert
        have hnew : id ∉ s.ids := Table.notMem_of_insert hinsert
        have hlocal : Local cfg id { s with executions }
            ((Engine.setRow { s with executions } id
              (.settled { context := { contextVariables := inputs } })).setRequest id 0
                { phase := .enqueue }) :=
          ((Local.refl cfg id { s with executions }).setRow _).setRequest _
        obtain ⟨d, hposted, hdump⟩ := hsound.workflows workflow (Table.mem_of_find? hfind)
        have hworkflow : workflow.id = workflowId := by simpa using Table.of_find? hfind
        refine ⟨hsound.workflows, fun ex hex => ?_, fun other hother => ?_, fun task hmem => ?_,
          hsound.sweeps⟩
        · rcases (Table.mem_of_insert hinsert).mp hex with hold | rfl
          · obtain ⟨d', hserved⟩ := hsound.executions ex hold
            have hne : id ≠ ex.id := fun heq => hnew (heq ▸ List.mem_map_of_mem hold)
            exact ⟨d', hserved.mono (fun _ h => h) rfl (hlocal.others ex.id hne)⟩
          · refine ⟨d, by rw [hdump], by rwa [hworkflow] at hposted, ?_, ?_⟩
            · intro j process hj hid
              refine .inl ?_
              have hidle : process.worker.pc = .idle := by
                by_contra hbusy
                have hknown := hsound.known_of_worker hj hbusy
                rw [show process.executionId = id from hid] at hknown
                exact hnew hknown
              rw [hidle]
              rfl
            · have hblank : (Engine.setRow { s with executions } id
                  (.settled { context := { contextVariables := inputs } })).of id =
                  { blank s.clock with
                    row := .settled { context := { contextVariables := inputs } } } := by
                rw [of_setRow, ← hsound.unknown id hnew]
                rfl
              rw [of_setRequest, hblank]
              have hclock := reaches_clock (cfg.config (forExecutor d)) (.initial inputs) s.clock
              rw [show (World.initial inputs).clock + s.clock = s.clock from Nat.zero_add _]
                at hclock
              exact hclock
        · have hkeys := (not_congr (Table.mem_keys_of_insert (k := other) hinsert)).mp hother
          rw [not_or] at hkeys
          rw [hlocal.others other (Ne.symm hkeys.2)]
          exact hsound.unknown other hkeys.1
        · obtain ⟨known, hknown, htask⟩ := hsound.tasks task hmem
          exact ⟨known, (Table.mem_keys_of_insert hinsert).mpr (.inl hknown), htask⟩

/-! ## Runs -/

theorem sound_step {a : Action} (hsound : Sound cfg s) (h : step cfg s a = some s') :
    Sound cfg s' := by
  cases a with
  | createWorkflow tenantId body id =>
    cases h
    exact hsound.createWorkflow tenantId body id
  | execute tenantId workflowId inputs id =>
    cases h
    exact hsound.execute tenantId workflowId inputs id
  | request tenantId id r kind => exact hsound.startRequest h
  | flush id r => exact hsound.flushRequest h
  | commit id r => exact hsound.commitRequest h
  | enqueue id r => exact hsound.enqueueRequest h
  | enqueueFails id r => exact hsound.failEnqueue h
  | abort id r => exact hsound.abortRequest h
  | take i task => exact hsound.takeTask h
  | run i =>
    obtain ⟨process, hprocess, hrun⟩ := Option.bind_eq_some_iff.mp h
    exact hsound.runProcess hprocess hrun
  | fail i message =>
    obtain ⟨process, hprocess, hfail⟩ := Option.bind_eq_some_iff.mp h
    exact hsound.failProcess hprocess hfail
  | crash i =>
    obtain ⟨process, hprocess, hcrash⟩ := Option.bind_eq_some_iff.mp h
    exact hsound.crashProcess hprocess hcrash
  | scan p stale => exact hsound.scanPod h
  | pod p => exact hsound.runPod h
  | podFails p => exact hsound.failPod h
  | podCrash p => exact hsound.crashPod h
  | redeliver id =>
    simp only [step] at h
    split at h
    · rename_i hfound
      cases h
      obtain ⟨ex, hex⟩ := Option.isSome_iff_exists.mp hfound
      have hknown : id ∈ s.ids := by
        refine List.mem_map.mpr ⟨ex, Table.mem_of_find? hex, ?_⟩
        simpa using Table.of_find? hex
      refine hsound.of_action hknown (Local.refl cfg id s).addTask .redeliver fun d => ?_
      rw [of_addTask]
      rfl
    · cases h
  | expire id => exact hsound.expireLock h
  | tick =>
    cases h
    refine ⟨hsound.workflows, fun ex hex => ?_, fun id hid => ?_, hsound.tasks, hsound.sweeps⟩
    · obtain ⟨d, hserved⟩ := hsound.executions ex hex
      exact ⟨d, hserved.snapshot, hserved.posted, hserved.uses,
        hserved.reaches.tail (a := .tick) rfl⟩
    · have hblank := hsound.unknown id hid
      exact congrArg (fun w : World => { w with clock := w.clock + 1 }) hblank

/-- The service with some tenants and nothing else. -/
def start (tenants : List Uuid) : Engine := { tenants }

theorem sound_start (cfg : Settings) (tenants : List Uuid) : Sound cfg (start tenants) where
  workflows := fun _ h => absurd h List.not_mem_nil
  executions := fun _ h => absurd h List.not_mem_nil
  unknown := fun _ _ => rfl
  tasks := fun _ h => absurd h List.not_mem_nil
  sweeps := fun _ => List.nodup_nil

theorem sound_run {tenants : List Uuid} {as : List Action}
    (hrun : run (step cfg) (start tenants) as = some s) : Sound cfg s :=
  invariant_run (G := fun _ _ => True) (fun _ _ _ hI _ h => sound_step hI h)
    (sound_start cfg tenants) (along_of_mem (P := fun _ => True) (fun _ _ => trivial) _) hrun

/-- In every run of the service, whatever it does for other executions, the part of an
execution is one that the service of this execution alone reaches, with the definition
that was posted for its workflow. -/
theorem execution_of_run (cfg : Settings) {tenants : List Uuid} {as : List Action} {s : Engine}
    (hrun : run (step cfg) (start tenants) as = some s) :
    ∀ ex ∈ s.executions.rows, ∃ d, PostedFor cfg s ex.workflowId d ∧
      Reaches (Workflow.step (cfg.config (forExecutor d))) (.initial ex.inputs) (s.of ex.id) := by
  intro ex hex
  obtain ⟨d, hserved⟩ := (sound_run hrun).executions ex hex
  exact ⟨d, hserved.posted, hserved.reaches⟩

/-! ## A run with two tenants -/

def sampleSettings : Settings where
  lax := ⟨fun _ => none, fun _ => none⟩

/-- One step, behind a checkpoint. -/
def fetchWorkflow : CreateWorkflowRequest where
  name := "fetch"
  definition := .dict [("steps", .list [.dict [("config", .dict
    [("name", .str "fetch"), ("checkpoint_before", .str "yes")])]])]

/-- Two steps and no checkpoint. -/
def reportWorkflow : CreateWorkflowRequest where
  name := "report"
  definition := .dict [("steps", .list [.dict [("config", .dict [("name", .str "read")])],
    .dict [("config", .dict [("name", .str "write")])]]), ("version", .bool true)]

def fetchWorkflowId : Uuid := .repdigit 10
def reportWorkflowId : Uuid := .repdigit 11
def fetchExecutionId : Uuid := .repdigit 12
def reportExecutionId : Uuid := .repdigit 13

/-- Two workers take turns with the executions of two tenants, until both are done. -/
def twoExecutions : List Action :=
  [.createWorkflow (.repdigit 1) fetchWorkflow fetchWorkflowId,
    .createWorkflow (.repdigit 2) reportWorkflow reportWorkflowId,
    .execute (.repdigit 1) fetchWorkflowId [] fetchExecutionId,
    .execute (.repdigit 2) reportWorkflowId [] reportExecutionId,
    .enqueue reportExecutionId 0, .enqueue fetchExecutionId 0,
    .take 0 fetchExecutionId.str, .take 1 reportExecutionId.str] ++
  (List.replicate 20 [.run 0, .run 1]).flatten ++ List.replicate 3 (.run 1)

theorem execution_of_run_two :
    ∃ s, run (step sampleSettings) (start [.repdigit 1, .repdigit 2]) twoExecutions = some s ∧
      (s.rows fetchExecutionId).committed.status = .completed ∧
      (s.rows reportExecutionId).committed.status = .completed ∧
      ∀ ex ∈ s.executions.rows, ∃ d, PostedFor sampleSettings s ex.workflowId d ∧
        Reaches (Workflow.step (sampleSettings.config (forExecutor d))) (.initial ex.inputs)
          (s.of ex.id) := by
  have hend : (run (step sampleSettings) (start [.repdigit 1, .repdigit 2]) twoExecutions).any
      fun s => (s.rows fetchExecutionId).committed.status = .completed ∧
        (s.rows reportExecutionId).committed.status = .completed := by decide +kernel
  obtain ⟨s, hrun, hfirst, hother⟩ := exists_of_any hend
  exact ⟨s, hrun, hfirst, hother, execution_of_run sampleSettings hrun⟩

end Sutram.Workflow.Engine
