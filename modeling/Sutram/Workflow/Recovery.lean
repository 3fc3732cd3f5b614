/-
Recovery of a crashed execution.

A crash after the first commit leaves the row in RUNNING.  Recovery enqueues a task
and does not touch the row, and the task's FSM accepts `submit` in PENDING only.
-/
import Sutram.Workflow.Redelivery

namespace Sutram.Workflow

open Sutram.Core Runs

/-- A worker that will not process the row unless it reads it again. -/
def Pc.Barred (cached : ExecutionStatus) : Pc → Prop
  | .idle | .read | .release _ | .close _ => True
  | .acquire | .setup => cached ≠ .pending
  | _ => False

def BarredAt (w : World) (i : Nat) : Prop :=
  (w.workers i).pc.Barred (w.workers i).execution.current.status

/-- RUNNING is committed and nobody is running the execution. -/
structure Stuck (w : World) : Prop where
  sound : Sound w
  requests : NoRequestOpen w
  running : w.row.committed.status = .running
  barred : ∀ i, BarredAt w i

theorem ran_stuck {cfg : Config} {w w' : World} {i : Nat} (hI : SoundAt w i)
    (hbarred : BarredAt w i) (hs : w.row.committed.status = .running) (h : Ran cfg w i w') :
    w'.row.committed.status = .running ∧ BarredAt w' i := by
  unfold BarredAt at hbarred
  cases h with
  | readTerminal hpc | refused hpc | setupRaises hpc | release hpc =>
    exact ⟨hs, by simp [BarredAt, Pc.Barred]⟩
  | read hpc ht => exact ⟨hs, by simp [BarredAt, Pc.Barred, hs]⟩
  | acquired hpc hlock =>
    rw [hpc] at hbarred
    exact ⟨hs, by simpa [BarredAt, Pc.Barred] using hbarred⟩
  | setup hpc hpending =>
    rw [hpc] at hbarred
    exact absurd hpending hbarred
  | closeReturned hpc =>
    have hown := hI.own
    rw [hpc] at hown
    refine ⟨?_, by simp [BarredAt, Pc.Barred]⟩
    have hcommit : (w.row.commit (.worker i)).committed.status = w.row.committed.status ∨ _ :=
      commit_status (s := .running) fun r hr => .inl (hown r hr)
    rcases hcommit with hstatus | hstatus
    · exact hstatus.trans hs
    · exact hstatus
  | closeRaised hpc => exact ⟨by simpa using hs, by simp [BarredAt, Pc.Barred]⟩
  | _ hpc =>
    rw [hpc] at hbarred
    exact hbarred.elim

theorem moved_stuck {cfg : Config} {w w' : World} {a : Action} {i : Nat} (hI : SoundAt w i)
    (hbarred : BarredAt w i) (hs : w.row.committed.status = .running) (h : Moved cfg w a w')
    (hi : actor a = some i) : w'.row.committed.status = .running ∧ BarredAt w' i := by
  cases h with
  | @run j _ h =>
    obtain rfl : j = i := by simpa [actor] using hi
    exact ran_stuck hI hbarred hs h
  | @take j =>
    obtain rfl : j = i := by simpa [actor] using hi
    exact ⟨hs, by simp [BarredAt, Pc.Barred]⟩
  | @failClose j | @crash j =>
    obtain rfl : j = i := by simpa [actor] using hi
    exact ⟨by simpa using hs, by simp [BarredAt, Pc.Barred]⟩
  | @failDatabase j | @fail j =>
    obtain rfl : j = i := by simpa [actor] using hi
    refine ⟨by simpa using hs, ?_⟩
    unfold BarredAt at hbarred ⊢
    cases hpc : (w.workers j).pc <;> simp_all [Pc.Barred, Pc.onFail]
  | bystander hnone _ =>
    rw [writer_of_actor hi] at hnone
    cases hnone
  | _ => cases hi

theorem stuck_step {cfg : Config} {w w' : World} {a : Action} (hI : Stuck w)
    (hG : a.isRequest = false) (h : step cfg w a = some w') : Stuck w' := by
  have hmoved := step_moved h
  have barred_other : ∀ j, actor a ≠ some j → BarredAt w' j := by
    intro j hj
    unfold BarredAt
    rw [(moved_frame hmoved hj).worker]
    exact hI.barred j
  have hkeep : w'.row.committed.status = .running ∧ ∀ j, BarredAt w' j := by
    cases ha : actor a with
    | none =>
      refine ⟨?_, fun j => barred_other j (by rw [ha]; simp)⟩
      rw [moved_no_request hI.requests hG hmoved ha]
      exact hI.running
    | some i =>
      obtain ⟨hs, hi⟩ := moved_stuck (hI.sound i) (hI.barred i) hI.running hmoved ha
      refine ⟨hs, fun j => ?_⟩
      by_cases hj : j = i
      · subst hj
        exact hi
      · exact barred_other j (by rw [ha]; simpa using Ne.symm hj)
  exact ⟨sound_step hI.sound h, noRequestOpen_moved hI.requests hG hmoved, hkeep.1, hkeep.2⟩

theorem stuck_run {cfg : Config} {w w' : World} {as : List Action} (hI : Stuck w)
    (hG : ∀ a ∈ as, a.isRequest = false) (h : run (step cfg) w as = some w') : Stuck w' :=
  invariant_run (fun _ _ _ => stuck_step) hI (along_of_mem hG w) h

/-- The crash of the only worker leaves the execution stuck. -/
theorem stuck_of_crash {cfg : Config} {w w' : World} {i : Nat} (hsound : Sound w)
    (hrequests : NoRequestOpen w) (hs : w.row.committed.status = .running)
    (hidle : ∀ k, k ≠ i → (w.workers k).pc = .idle) (h : step cfg w (.crash i) = some w') :
    Stuck w' := by
  have hmoved := step_moved h
  refine ⟨sound_step hsound h, noRequestOpen_moved hrequests rfl hmoved, ?_, fun k => ?_⟩
  · cases hmoved with
    | crash => simpa using hs
    | bystander hnone _ => cases hnone
  · by_cases hk : k = i
    · subst hk
      cases hmoved with
      | crash => simp [BarredAt, Pc.Barred]
      | bystander hnone _ => cases hnone
    · unfold BarredAt
      rw [(moved_frame hmoved (by simpa [actor] using Ne.symm hk)).worker, hidle k hk]
      trivial

/-! ## The operations of a recovered task -/

section Operations

variable (cfg : Config) {w : World} {j : Nat}

theorem take_next (hpc : (w.workers j).pc = .idle) (htask : 0 < w.tasks) :
    ∃ w', step cfg w (.take j) = some w' ∧ (w'.workers j).pc = .read ∧ w'.row = w.row ∧
      w'.lock = w.lock ∧ w'.ended = w.ended := by
  refine ⟨World.set { w with tasks := w.tasks - 1 } j { pc := .read }, ?_, by simp, rfl, rfl, rfl⟩
  simp [step, takeTask, hpc, htask]

theorem read_next (hpc : (w.workers j).pc = .read) (ht : ¬ Terminal w.row.committed.status) :
    ∃ w', step cfg w (.run j) = some w' ∧ (w'.workers j).pc = .acquire ∧
      (w'.workers j).execution.current.status = w.row.committed.status ∧
      w'.lock = w.lock ∧ w'.ended = w.ended := by
  refine ⟨w.set j { w.workers j with execution := .ofRow w.row.committed, pc := .acquire }, ?_,
    by simp, by simp, rfl, rfl⟩
  simp [step, runWorker, hpc, ht]

theorem acquire_next (hpc : (w.workers j).pc = .acquire) (hfree : w.lock = none) :
    ∃ w', step cfg w (.run j) = some w' ∧ (w'.workers j).pc = .setup ∧
      (w'.workers j).execution = (w.workers j).execution ∧ w'.ended = w.ended := by
  refine ⟨{ w.set j ((w.workers j).goto .setup) with lock := some (.worker j) }, ?_,
    by simp, by simp, rfl⟩
  simp [step, runWorker, hpc, hfree]

theorem setup_next_refused (hpc : (w.workers j).pc = .setup)
    (hs : (w.workers j).execution.current.status ≠ .pending) :
    ∃ w', step cfg w (.run j) = some w' ∧ (w'.workers j).pc = .release .raised ∧
      w'.ended = w.ended := by
  refine ⟨w.set j ((w.workers j).goto (.release .raised)), ?_, by simp, rfl⟩
  simp [step, runWorker, hpc, transition_submit_refused hs]

theorem release_next {o : Outcome} (hpc : (w.workers j).pc = .release o) :
    ∃ w', step cfg w (.run j) = some w' ∧ (w'.workers j).pc = .close o ∧
      w'.ended = w.ended := by
  refine ⟨{ w.set j ((w.workers j).goto (.close o)) with
    lock := if w.lock = some (.worker j) then none else w.lock }, ?_, by simp, rfl⟩
  simp [step, runWorker, hpc]

theorem close_next_raised (hpc : (w.workers j).pc = .close .raised) :
    ∃ w', step cfg w (.run j) = some w' ∧ (w'.workers j).pc = .idle ∧
      w'.ended = w.ended ++ [(j, .raised)] := by
  refine ⟨World.finish { w with row := w.row.rollback (.worker j) } j .raised, ?_, by simp, by simp⟩
  simp [step, runWorker, hpc]

end Operations

/-- A recovered task, from the queue to its end. -/
def recoveredTask (j : Nat) : List Action := .take j :: List.replicate 5 (.run j)

/-- The task reads RUNNING, takes the lock, is refused by the FSM and raises. -/
theorem stuck_task_raises {cfg : Config} {w : World} {j : Nat} (hI : Stuck w)
    (hidle : (w.workers j).pc = .idle) (htask : 0 < w.tasks) (hfree : w.lock = none) :
    ∃ w', run (step cfg) w (recoveredTask j) = some w' ∧ (w'.workers j).pc = .idle ∧
      w'.ended = w.ended ++ [(j, .raised)] := by
  obtain ⟨w₁, h₁, hpc₁, hrow₁, hlock₁, hended₁⟩ := take_next cfg hidle htask
  have hs₁ : w₁.row.committed.status = .running := by rw [hrow₁, hI.running]
  obtain ⟨w₂, h₂, hpc₂, hs₂, hlock₂, hended₂⟩ :=
    read_next cfg hpc₁ (by rw [hs₁]; decide)
  obtain ⟨w₃, h₃, hpc₃, hexec₃, hended₃⟩ :=
    acquire_next cfg hpc₂ (by rw [hlock₂, hlock₁, hfree])
  obtain ⟨w₄, h₄, hpc₄, hended₄⟩ :=
    setup_next_refused cfg hpc₃ (by rw [hexec₃, hs₂, hs₁]; decide)
  obtain ⟨w₅, h₅, hpc₅, hended₅⟩ := release_next cfg hpc₄
  obtain ⟨w₆, h₆, hpc₆, hended₆⟩ := close_next_raised cfg hpc₅
  refine ⟨w₆, ?_, hpc₆, by rw [hended₆, hended₅, hended₄, hended₃, hended₂, hended₁]⟩
  rw [recoveredTask, run_cons_some h₁]
  show run (step cfg) w₁ [.run j, .run j, .run j, .run j, .run j] = some w₆
  rw [run_cons_some h₂, run_cons_some h₃, run_cons_some h₄, run_cons_some h₅, run_cons_some h₆,
    run_nil]

/-- Wherever the worker crashes with RUNNING committed, and whatever recovery does
next without an API request, the task it leads to raises and the execution stays in
RUNNING. -/
theorem recovered_execution_raises (cfg : Config) (inputs : List (String × Core.Json))
    (as : List Action) (w : World) (i : Nat) (w₁ : World) (bs : List Action) (w₂ : World)
    (j : Nat) (hrun : run (step cfg) (World.initial inputs) as = some w)
    (hrunning : w.row.committed.status = .running)
    (hidle : ∀ k, k ≠ i → (w.workers k).pc = .idle) (hrequests : NoRequestOpen w)
    (hcrash : step cfg w (.crash i) = some w₁) (hbs : ∀ b ∈ bs, b.isRequest = false)
    (hrecovery : run (step cfg) w₁ bs = some w₂) (hj : (w₂.workers j).pc = .idle)
    (htask : 0 < w₂.tasks) (hfree : w₂.lock = none) :
    ∃ w₃, run (step cfg) w₂ (recoveredTask j) = some w₃ ∧ (w₃.workers j).pc = .idle ∧
      w₃.ended = w₂.ended ++ [(j, .raised)] ∧ w₃.row.committed.status = .running := by
  have hsound := sound_run hrun
  have hstuck := stuck_run (stuck_of_crash hsound hrequests hrunning hidle hcrash) hbs hrecovery
  obtain ⟨w₃, hw₃, hpc, hended⟩ := stuck_task_raises hstuck hj htask hfree
  have hstuck₃ := stuck_run hstuck (by simp [recoveredTask, Action.isRequest]) hw₃
  exact ⟨w₃, hw₃, hpc, hended, hstuck₃.running⟩

/-! ## A crash before the first step -/

/-- The worker commits RUNNING and refreshes the row. -/
def untilCrash : List Action := .enqueue 0 :: deliver 8

/-- The lock expires, the heartbeat goes stale, and a pod enqueues the execution. -/
def recovery : List Action :=
  .expire :: List.replicate 301 .tick ++ [.scan 0, .pod 0, .pod 0, .pod 0]

theorem crash_not_recovered :
    ∃ w, run (step oneStep) (World.initial [])
        (untilCrash ++ [.crash 0] ++ recovery ++ recoveredTask 0) = some w ∧
      w.ended = [(0, .raised)] ∧ w.row.committed.status = .running := by
  exact exists_of_any (by decide +kernel)

theorem recovered_execution_raises_early :
    ∃ w w₁ w₂ w₃, run (step oneStep) (World.initial []) untilCrash = some w ∧
      step oneStep w (.crash 0) = some w₁ ∧ run (step oneStep) w₁ recovery = some w₂ ∧
      run (step oneStep) w₂ (recoveredTask 0) = some w₃ ∧ (w₃.workers 0).pc = .idle ∧
      w₃.ended = w₂.ended ++ [(0, .raised)] ∧ w₃.row.committed.status = .running := by
  have hall : (run (step oneStep) (World.initial []) untilCrash).any fun w =>
      w.row.committed.status = .running ∧ (w.requests 0).phase = .idle ∧
        (step oneStep w (.crash 0)).any fun w₁ =>
          (run (step oneStep) w₁ recovery).any fun w₂ =>
            (w₂.workers 0).pc = .idle ∧ 0 < w₂.tasks ∧ w₂.lock = none := by
    decide +kernel
  obtain ⟨w, hrun, hrunning, hphase, hw⟩ := exists_of_any hall
  obtain ⟨w₁, hcrash, hw₁⟩ := (Option.any_eq_true _ _).mp hw
  obtain ⟨w₂, hrecovery, hidle, htask, hfree⟩ := exists_of_any hw₁
  have hothers : ∀ k, k ≠ 0 → (w.workers k).pc = .idle := by
    intro k hk
    have hactors : ∀ a ∈ untilCrash, actor a = none ∨ actor a = some 0 := by decide
    rw [run_workers_other hrun fun a ha hact => hk ?_]
    · rfl
    · simpa [hact] using hactors a ha
  have hrequests : NoRequestOpen w := by
    intro r
    have hwriters : ∀ a ∈ untilCrash, writer a = some (.request 0) ∨
        writer a = some (.worker 0) := by decide
    by_cases hr : r = 0
    · subst hr
      exact .inl hphase
    · left
      rw [run_requests_other hrun fun a ha hwr => hr ?_]
      · simp [World.initial, hr]
      · simpa [hwr] using hwriters a ha
  obtain ⟨w₃, h⟩ := recovered_execution_raises oneStep [] untilCrash w 0 w₁ recovery w₂ 0 hrun
    hrunning hothers hrequests hcrash (by decide +kernel) hrecovery hidle htask hfree
  exact ⟨w, w₁, w₂, w₃, hrun, hcrash, hrecovery, h⟩

end Sutram.Workflow
