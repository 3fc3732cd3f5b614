/-
What a completed execution has gone through.

A run starts after the latest checkpoint and publishes the completion of each of its
steps on both streams, so the steps that no run reports are the ones up to a checkpoint.
The first part says so of the service of one execution, the second of every execution
of the whole service, in the terms of the definition that a client has posted.
-/
import Sutram.Workflow.EveryExecution
import Sutram.Workflow.Invariants

namespace Sutram.Workflow

open Sutram.Core Runs

/-! ## One execution -/

section One

variable {cfg : Config} {w w' : World} {i n : Nat} {s : Stream} {e : Effect}

def stepEvent (cfg : Config) (n : Nat) : ExecutionEvent :=
  .stepCompleted (cfg.stepConfig n).name n (cfg.stepCost n) (stepOutputs (cfg.stepConfig n).name)

/-- Step `m` is reported on both streams, or a committed checkpoint is at it or after it. -/
def Accounted (cfg : Config) (w : World) (m : Nat) : Prop :=
  (∀ s, .published s (stepEvent cfg m) ∈ w.log) ∨ ∃ c ∈ w.checkpoints, m ≤ c.stepIndex

/-- What holds where a worker stands. -/
def Pc.Reached (cfg : Config) (w : World) : Pc → Prop
  | .flushRunning start | .publishStarted start _ | .commitRunning start =>
    ∀ m < start, Accounted cfg w m
  | .refresh n | .writeCheckpoint n | .commitCheckpoint n | .execute n | .publishStep n .global =>
    n < cfg.steps.length ∧ ∀ m < n, Accounted cfg w m
  | .publishStep n .sse =>
    n < cfg.steps.length ∧ (∀ m < n, Accounted cfg w m) ∧
      .published .global (stepEvent cfg n) ∈ w.log
  | .flushStep n => ∀ m < n + 1, Accounted cfg w m
  | .flushCompleted | .publishCompleted _ | .commitCompleted =>
    ∀ m < cfg.steps.length, Accounted cfg w m
  | _ => True

/-- What a published event says of the steps is so. -/
def Truthful (cfg : Config) (w : World) : Effect → Prop
  | .published _ (.stepCompleted name n cost outputs) =>
    n < cfg.steps.length ∧ .stepCompleted name n cost outputs = stepEvent cfg n
  | .published _ (.completed _ _ totalSteps) =>
    totalSteps = cfg.steps.length ∧ ∀ m < cfg.steps.length, Accounted cfg w m
  | _ => True

structure StepsAccounted (cfg : Config) (w : World) : Prop where
  events : ∀ e ∈ w.log, Truthful cfg w e
  workers : ∀ i, (w.workers i).pc.Reached cfg w

/-! ### Histories grow -/

structure Grows (w w' : World) : Prop where
  log : ∀ e ∈ w.log, e ∈ w'.log
  checkpoints : ∀ c ∈ w.checkpoints, c ∈ w'.checkpoints

theorem Grows.accounted (h : Grows w w') {m : Nat} (hm : Accounted cfg w m) :
    Accounted cfg w' m := by
  rcases hm with hlog | ⟨c, hc, hle⟩
  · exact .inl fun s => h.log _ (hlog s)
  · exact .inr ⟨c, h.checkpoints c hc, hle⟩

theorem Grows.truthful (h : Grows w w') (he : Truthful cfg w e) : Truthful cfg w' e := by
  unfold Truthful at he ⊢
  split
  · exact he
  · exact ⟨he.1, fun m hm => h.accounted (he.2 m hm)⟩
  · trivial

theorem Grows.reached (h : Grows w w') {pc : Pc} (hpc : pc.Reached cfg w) :
    pc.Reached cfg w' := by
  have haccounted : ∀ {m}, Accounted cfg w m → Accounted cfg w' m := h.accounted
  cases pc with
  | flushRunning | publishStarted | commitRunning | flushStep | flushCompleted | publishCompleted
  | commitCompleted => exact fun m hm => haccounted (hpc m hm)
  | refresh | writeCheckpoint | commitCheckpoint | execute =>
    exact ⟨hpc.1, fun m hm => haccounted (hpc.2 m hm)⟩
  | publishStep n s =>
    cases s with
    | global => exact ⟨hpc.1, fun m hm => haccounted (hpc.2 m hm)⟩
    | sse => exact ⟨hpc.1, fun m hm => haccounted (hpc.2.1 m hm), h.log _ hpc.2.2⟩
  | _ => trivial

theorem ran_grows (h : Ran cfg w i w') : Grows w w' := by
  refine ⟨fun e he => ?_, fun c hc => ?_⟩
  · obtain ⟨l, hl⟩ := ran_log h
    rw [hl]
    exact List.mem_append_left l he
  · cases h with
    | commitCheckpoint | commitCompleted | commitPaused | closeReturned =>
      exact List.mem_append_left _ hc
    | _ => exact hc

theorem moved_grows {a : Action} (h : Moved cfg w a w') : Grows w w' := by
  cases h with
  | run h => exact ran_grows h
  | bystander _ h =>
    refine ⟨fun e he => ?_, fun c hc => ?_⟩
    · rwa [h.log]
    · rwa [h.checkpoints]
  | _ => exact ⟨fun e he => he, fun c hc => hc⟩

/-! ### The worker that moves -/

theorem accounted_startIndex {m : Nat}
    (h : m < startIndex (CheckpointManager.getLatest w.checkpoints)) : Accounted cfg w m := by
  cases hlatest : CheckpointManager.getLatest w.checkpoints with
  | none =>
    rw [hlatest] at h
    exact absurd h (Nat.not_lt_zero m)
  | some c =>
    rw [hlatest] at h
    exact .inr ⟨c, CheckpointManager.getLatest_mem hlatest, Nat.le_of_lt_succ h⟩

theorem reached_next (h : ∀ m < n, Accounted cfg w m) : (cfg.next n).Reached cfg w := by
  unfold Config.next
  split
  · rename_i hn
    exact ⟨hn, h⟩
  · rename_i hn
    exact fun m hm => h m (hm.trans_le (Nat.le_of_not_lt hn))

/-- Both reports of a step, and it is accounted for. -/
theorem accounted_succ (h : ∀ m < n, Accounted cfg w m)
    (hglobal : .published .global (stepEvent cfg n) ∈ w.log)
    (hsse : .published .sse (stepEvent cfg n) ∈ w.log) : ∀ m < n + 1, Accounted cfg w m := by
  intro m hm
  rcases Nat.lt_succ_iff_lt_or_eq.mp hm with hlt | rfl
  · exact h m hlt
  · refine .inl fun s => ?_
    cases s
    · exact hglobal
    · exact hsse

theorem reached_ran (hI : StepsAccounted cfg w) (h : Ran cfg w i w')
    (hother : ∀ n s, (w.workers i).pc ≠ .publishStep n s) : (w'.workers i).pc.Reached cfg w' := by
  have hgrows := ran_grows h
  have hpast : (w.workers i).pc.Reached cfg w' := hgrows.reached (hI.workers i)
  cases h with
  | publishStep hpc => exact absurd hpc (hother _ _)
  | setup hpc hs =>
    simp only [World.set, Function.update_self]
    exact fun m hm => hgrows.accounted (accounted_startIndex hm)
  | commitRunning hpc =>
    rw [hpc] at hpast
    simp only [World.set, Function.update_self, Worker.goto]
    exact reached_next hpast
  | flushStep hpc hrow =>
    rw [hpc] at hpast
    simp only [World.set, Function.update_self]
    exact reached_next hpast
  | flushRunning hpc | writeCheckpoint hpc | commitCheckpoint hpc | execute hpc
  | flushCompleted hpc =>
    rw [hpc] at hpast
    simp only [World.set, Function.update_self]
    exact hpast
  | refresh hpc hs =>
    rw [hpc] at hpast
    simp only [World.set, Function.update_self]
    split <;> exact hpast
  | publishStarted hpc hnext =>
    rw [hpc] at hpast
    simp only [World.set, Function.update_self, Worker.goto]
    rcases hnext with rfl | rfl <;> exact hpast
  | publishCompleted hpc hnext =>
    rw [hpc] at hpast
    simp only [World.set, Function.update_self, Worker.goto]
    rcases hnext with rfl | rfl <;> exact hpast
  | publishPaused hpc hnext =>
    simp only [World.set, Function.update_self, Worker.goto]
    rcases hnext with rfl | rfl <;> trivial
  | _ =>
    simp only [World.set, World.finish, Function.update_self, Worker.goto]
    trivial

theorem reached_runWorker (hI : StepsAccounted cfg w) (hrun : runWorker cfg w i = some w') :
    (w'.workers i).pc.Reached cfg w' := by
  have hpast : (w.workers i).pc.Reached cfg w' :=
    (ran_grows (runWorker_ran hrun)).reached (hI.workers i)
  cases hpc : (w.workers i).pc with
  | publishStep n s =>
    rw [hpc] at hpast
    cases s with
    | global =>
      simp only [runWorker, hpc] at hrun
      cases hrun
      simp only [World.set, Function.update_self, Worker.goto]
      refine ⟨hpast.1, hpast.2, ?_⟩
      exact List.mem_append_right _ (List.mem_singleton_self _)
    | sse =>
      simp only [runWorker, hpc] at hrun
      cases hrun
      simp only [World.set, Function.update_self, Worker.goto]
      refine accounted_succ hpast.2.1 hpast.2.2 ?_
      exact List.mem_append_right _ (List.mem_singleton_self _)
  | _ => exact reached_ran hI (runWorker_ran hrun) fun n s => by simp [hpc]

/-- What the worker publishes is so. -/
theorem truthful_ran (hI : StepsAccounted cfg w) (h : Ran cfg w i w') :
    ∀ e ∈ w'.log, Truthful cfg w' e := by
  have hgrows := ran_grows h
  have hold : ∀ e ∈ w.log, Truthful cfg w' e := fun e he => hgrows.truthful (hI.events e he)
  have hpast := hI.workers i
  cases h with
  | @publishStep n s pc hpc hnext =>
    rw [hpc] at hpast
    have hn : n < cfg.steps.length := by
      cases s
      · exact hpast.1
      · exact hpast.1
    intro e he
    rcases List.mem_append.mp he with he | he
    · exact hold e he
    · rw [List.mem_singleton.mp he]
      exact ⟨hn, rfl⟩
  | publishCompleted hpc hnext =>
    rw [hpc] at hpast
    intro e he
    rcases List.mem_append.mp he with he | he
    · exact hold e he
    · rw [List.mem_singleton.mp he]
      exact ⟨rfl, fun m hm => hgrows.accounted (hpast m hm)⟩
  | publishStarted hpc | publishPaused hpc | refresh hpc | writeCheckpoint hpc =>
    intro e he
    rcases List.mem_append.mp he with he | he
    · exact hold e he
    · rw [List.mem_singleton.mp he]
      trivial
  | _ => exact hold

theorem reached_onFail {pc : Pc} {message : String} (hidle : pc ≠ .idle) :
    (pc.onFail message).Reached cfg w := by
  cases pc with
  | idle => exact absurd rfl hidle
  | _ => trivial

theorem stepsAccounted_step {a : Action} (hI : StepsAccounted cfg w) (h : step cfg w a = some w') :
    StepsAccounted cfg w' := by
  have hmoved := step_moved h
  have hgrows := moved_grows hmoved
  refine ⟨?_, fun j => ?_⟩
  · cases hmoved with
    | run h => exact truthful_ran hI h
    | bystander _ h =>
      rw [h.log]
      exact fun e he => hgrows.truthful (hI.events e he)
    | _ => exact fun e he => hgrows.truthful (hI.events e he)
  · by_cases hj : actor a = some j
    · cases hmoved with
      | run h' =>
        cases hj
        exact reached_runWorker hI h
      | take | crash =>
        cases hj
        simp only [World.set, Function.update_self]
        trivial
      | failClose hpc =>
        cases hj
        simp only [World.finish, World.set, Function.update_self]
        trivial
      | failDatabase hdb =>
        cases hj
        simp only [World.set, Function.update_self]
        refine reached_onFail fun hidle => ?_
        rw [hidle] at hdb
        cases hdb
      | fail hidle hclose hdb =>
        cases hj
        simp only [World.set, Function.update_self, Worker.goto]
        exact reached_onFail hidle
      | bystander ha =>
        rw [writer_of_actor hj] at ha
        cases ha
      | _ => cases hj
    · rw [(moved_frame hmoved hj).worker]
      exact hgrows.reached (hI.workers j)

theorem stepsAccounted_initial (inputs : List (String × Json)) :
    StepsAccounted cfg (World.initial inputs) :=
  ⟨fun _ h => absurd h List.not_mem_nil, fun _ => trivial⟩

end One

/-! ## Every execution of the service -/

theorem mem_own {α : Type} {id : Uuid} {a : α} {entries : List (Uuid × α)} :
    a ∈ own id entries ↔ (id, a) ∈ entries := by
  simp [own]

theorem streamName_global_ne (id other : Uuid) :
    streamName id .global ≠ streamName other .sse := by
  intro h
  have hlength := congrArg (fun name => name.toList.length) h
  simp only [streamName, String.toList_append, List.length_append, Uuid.length_str] at hlength
  exact absurd hlength (by decide)

/-- Executions share the global stream only. -/
theorem streamName_eq {id other : Uuid} {s t : Stream} (h : streamName id s = streamName other t) :
    s = t ∧ (t = .sse → id = other) := by
  cases s <;> cases t
  · exact ⟨rfl, nofun⟩
  · exact absurd h (streamName_global_ne id other)
  · exact absurd h.symm (streamName_global_ne other id)
  · have hchars := congrArg String.toList h
    simp only [streamName, String.toList_append] at hchars
    have hstr := String.toList_inj.mp (List.append_cancel_left hchars)
    exact ⟨rfl, fun _ => Uuid.str_injective hstr⟩

namespace Engine

variable {cfg : Settings} {s : Engine} {id : Uuid} {target : Stream} {event : ExecutionEvent}

theorem mem_stream_name {name : String} : (id, event) ∈ s.stream name ↔
    ∃ target, streamName id target = name ∧ .published target event ∈ (s.of id).log := by
  constructor
  · intro h
    obtain ⟨⟨source, effect⟩, hmem, heq⟩ := List.mem_filterMap.mp h
    cases effect with
    | published target e =>
      by_cases hname : streamName source target = name
      · simp only [hname, if_true, Option.some.injEq, Prod.mk.injEq] at heq
        obtain ⟨rfl, rfl⟩ := heq
        exact ⟨target, hname, mem_own.mpr hmem⟩
      · simp [hname] at heq
    | _ => simp at heq
  · rintro ⟨target, hname, hlog⟩
    refine List.mem_filterMap.mpr ⟨(id, .published target event), mem_own.mp hlog, ?_⟩
    simp [hname]

theorem mem_stream :
    (id, event) ∈ s.stream (streamName id target) ↔ .published target event ∈ (s.of id).log := by
  refine mem_stream_name.trans ⟨?_, fun h => ⟨target, rfl, h⟩⟩
  rintro ⟨source, hname, hlog⟩
  rwa [(streamName_eq hname).1] at hlog

/-- What the executor reports of a step that a client has posted. -/
def completion (cfg : Settings) (step : Core.WorkflowStep) (n : Nat) : ExecutionEvent :=
  .stepCompleted step.config.name n (cfg.stepCost n) (stepOutputs step.config.name)

/-- What an event on a stream of the execution says of the definition's steps is so: each
step it counts is reported on both streams, or a committed checkpoint is at it or after
it. -/
def Tells (cfg : Settings) (d : Core.WorkflowDefinition) (s : Engine) (id : Uuid) :
    ExecutionEvent → Prop
  | .stepCompleted name n cost outputs =>
    ∃ step, d.steps[n]? = some step ∧ .stepCompleted name n cost outputs = completion cfg step n
  | .completed _ _ totalSteps =>
    totalSteps = d.steps.length ∧ ∀ m step, d.steps[m]? = some step →
      (∀ target, (id, completion cfg step m) ∈ s.stream (streamName id target)) ∨
        ∃ c ∈ own id s.checkpoints, m ≤ c.stepIndex
  | _ => True

section Posted

variable {d : Core.WorkflowDefinition} {n : Nat}

theorem steps_forExecutor : (cfg.config (forExecutor d)).steps.length = d.steps.length :=
  List.length_map _

theorem stepEvent_forExecutor {step : Core.WorkflowStep} (h : d.steps[n]? = some step) :
    stepEvent (cfg.config (forExecutor d)) n = completion cfg step n := by
  have hstep : (cfg.config (forExecutor d)).steps[n]? =
      some ⟨⟨step.config.name, step.config.checkpointBefore⟩⟩ := by
    simp [Settings.config, Config.steps, Config.definition, forExecutor, h]
  simp only [stepEvent, Config.stepConfig, hstep]
  rfl

theorem tells_of_truthful
    (h : Truthful (cfg.config (forExecutor d)) (s.of id) (.published target event)) :
    Tells cfg d s id event := by
  cases event with
  | stepCompleted name n cost outputs =>
    obtain ⟨hn, hevent⟩ := h
    rw [steps_forExecutor] at hn
    have hstep := List.getElem?_eq_getElem hn
    exact ⟨d.steps[n], hstep, hevent.trans (stepEvent_forExecutor hstep)⟩
  | completed status total totalSteps =>
    obtain ⟨htotal, haccounted⟩ := h
    rw [steps_forExecutor] at htotal haccounted
    refine ⟨htotal, fun m step hstep => ?_⟩
    obtain ⟨hm, -⟩ := List.getElem?_eq_some_iff.mp hstep
    rcases haccounted m hm with hlog | hcheckpoint
    · rw [stepEvent_forExecutor hstep] at hlog
      exact .inl fun target => mem_stream.mpr (hlog target)
    · exact .inr hcheckpoint
  | _ => trivial

end Posted

/-- In every run of the service, the stream of an execution has events of this execution
only, and what they say, there and on the global stream, is so of the definition that a
client has posted for its workflow. -/
theorem streams_of_run (cfg : Settings) {tenants : List Uuid} {as : List Action} {s : Engine}
    (hrun : run (step cfg) (start tenants) as = some s) :
    ∀ ex ∈ s.executions.rows, ∃ d, PostedFor cfg s ex.workflowId d ∧
      (∀ entry ∈ s.stream (streamName ex.id .sse), entry.1 = ex.id) ∧
      ∀ target event, (ex.id, event) ∈ s.stream (streamName ex.id target) →
        Tells cfg d s ex.id event := by
  intro ex hex
  obtain ⟨d, hserved⟩ := (sound_run hrun).executions ex hex
  have hsteps : StepsAccounted (cfg.config (forExecutor d)) (s.of ex.id) :=
    hserved.reaches.invariant (fun _ _ _ hI h => stepsAccounted_step hI h)
      (stepsAccounted_initial ex.inputs)
  refine ⟨d, hserved.posted, fun entry hentry => ?_, fun target event hevent => ?_⟩
  · obtain ⟨source, hname, -⟩ := mem_stream_name.mp hentry
    exact (streamName_eq hname).2 rfl
  · exact tells_of_truthful (hsteps.events _ (mem_stream.mp hevent))

theorem streams_of_run_two :
    ∃ s, run (step sampleSettings) (start [.repdigit 1, .repdigit 2]) twoExecutions = some s ∧
      (reportExecutionId, .completed .completed 0 2) ∈
        s.stream (streamName reportExecutionId .sse) ∧
      ∀ ex ∈ s.executions.rows, ∃ d, PostedFor sampleSettings s ex.workflowId d ∧
        (∀ entry ∈ s.stream (streamName ex.id .sse), entry.1 = ex.id) ∧
        ∀ target event, (ex.id, event) ∈ s.stream (streamName ex.id target) →
          Tells sampleSettings d s ex.id event := by
  have hend : (run (step sampleSettings) (start [.repdigit 1, .repdigit 2]) twoExecutions).any
      fun s => (reportExecutionId, ExecutionEvent.completed .completed 0 2) ∈
        s.stream (streamName reportExecutionId .sse) := by decide +kernel
  obtain ⟨s, hrun, hcompleted⟩ := exists_of_any hend
  exact ⟨s, hrun, hcompleted, streams_of_run sampleSettings hrun⟩

end Engine

end Sutram.Workflow
