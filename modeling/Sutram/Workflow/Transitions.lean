/-
Committed status changes and the transition table.

A writer checks its FSM on a status it read or cached and then updates the row by
primary key.  Between the two another writer may commit, so what matters for the
table is the status that is committed when the UPDATE goes through.
-/
import Sutram.Workflow.Steps

namespace Sutram.Workflow

open Sutram.Core Runs

/-- The session object whose changed columns the action writes. -/
def flushing (w : World) : Action → Option (Writer × Orm)
  | .run i =>
    match (w.workers i).pc with
    | .flushRunning _ =>
      some (.worker i, updateStatus .running w.clock (w.workers i).execution)
    | .flushStep _ => some (.worker i, (w.workers i).execution)
    | .flushCompleted =>
      some (.worker i, updateStatus .completed w.clock (w.workers i).execution)
    | .flushPaused why => some (.worker i, why.updateStatus w.clock (w.workers i).execution)
    | _ => none
  | .flush r =>
    match (w.requests r).phase with
    | .flush kind => some (.request r, (w.requests r).execution.assign
        (kind.route.assign (w.requests r).fsm.status))
    | _ => none
  | _ => none

/-- An UPDATE that changes the status finds a committed status from which the
table still leads to the new one, as it did when the writer checked its FSM. -/
def UpdatesInStep (w : World) (a : Action) : Prop :=
  ∀ p ∈ flushing w a, p.2.current.status ≠ p.2.loaded.status →
    Admits w.row.committed.status p.2.current.status

instance (w : World) (a : Action) : Decidable (UpdatesInStep w a) :=
  match h : flushing w a with
  | none => isTrue (by simp [UpdatesInStep, h])
  | some p => decidable_of_iff (p.2.current.status ≠ p.2.loaded.status →
      Admits w.row.committed.status p.2.current.status) (by simp [UpdatesInStep, h])

/-- A committed status is replaced along an edge of the table only. -/
def TableChange (w : World) (_ : Action) (w' : World) : Prop :=
  w.row.committed.status ≠ w'.row.committed.status →
    Edge w.row.committed.status w'.row.committed.status

instance (w : World) (a : Action) (w' : World) : Decidable (TableChange w a w') :=
  inferInstanceAs (Decidable (_ → _))

/-! ## What an action does to the row -/

theorem ran_row {cfg : Config} {w w' : World} {i : Nat} (h : Ran cfg w i w') :
    w'.row = w.row ∨
      (∃ o, flushing w (.run i) = some (.worker i, o) ∧
        flushRow w.row (.worker i) o = some w'.row) ∨
      w'.row = w.row.commit (.worker i) ∨ w'.row = w.row.rollback (.worker i) := by
  cases h with
  | flushRunning hpc hrow => exact .inr (.inl ⟨_, by simp only [flushing, hpc], hrow⟩)
  | flushStep hpc hrow => exact .inr (.inl ⟨_, by simp only [flushing, hpc], hrow⟩)
  | flushCompleted hpc hrow => exact .inr (.inl ⟨_, by simp only [flushing, hpc], hrow⟩)
  | flushPaused hpc hrow => exact .inr (.inl ⟨_, by simp only [flushing, hpc], hrow⟩)
  | commitRunning hpc => exact .inr (.inr (.inl rfl))
  | commitCheckpoint hpc => exact .inr (.inr (.inl rfl))
  | commitCompleted hpc => exact .inr (.inr (.inl rfl))
  | commitPaused hpc => exact .inr (.inr (.inl rfl))
  | closeReturned hpc => exact .inr (.inr (.inl rfl))
  | closeRaised hpc => exact .inr (.inr (.inr rfl))
  | _ => exact .inl rfl

theorem moved_row {cfg : Config} {w w' : World} {a : Action} (h : Moved cfg w a w') :
    w'.row = w.row ∨
      (∃ wr o, flushing w a = some (wr, o) ∧ flushRow w.row wr o = some w'.row) ∨
      (∃ wr, w'.row = w.row.commit wr) ∨ ∃ wr, w'.row = w.row.rollback wr := by
  cases h with
  | run h =>
    rcases ran_row h with hrow | ⟨o, ho, hrow⟩ | hrow | hrow
    · exact .inl hrow
    · exact .inr (.inl ⟨_, o, ho, hrow⟩)
    · exact .inr (.inr (.inl ⟨_, hrow⟩))
    · exact .inr (.inr (.inr ⟨_, hrow⟩))
  | flush hphase hrow => exact .inr (.inl ⟨_, _, by simp only [flushing, hphase], hrow⟩)
  | commitResume hphase => exact .inr (.inr (.inl ⟨_, rfl⟩))
  | commit hphase hkind => exact .inr (.inr (.inl ⟨_, rfl⟩))
  | failClose hpc => exact .inr (.inr (.inr ⟨_, rfl⟩))
  | failDatabase hdb => exact .inr (.inr (.inr ⟨_, rfl⟩))
  | crash hpc => exact .inr (.inr (.inr ⟨_, rfl⟩))
  | abort hphase => exact .inr (.inr (.inr ⟨_, rfl⟩))
  | bystander _ h => exact .inl h.row
  | _ => exact .inl rfl

/-! ## The invariant -/

/-- The uncommitted status, where there is one, may replace the committed one. -/
def PendingAdmitted (w : World) : Prop :=
  ∀ wr r, w.row.uncommitted = some (wr, r) → Admits w.row.committed.status r.status

theorem admits_view {w : World} (hI : PendingAdmitted w) (wr : Writer) :
    Admits w.row.committed.status (w.row.view wr).status := by
  by_cases h : ∃ r, w.row.uncommitted = some (wr, r)
  · obtain ⟨r, hr⟩ := h
    rw [Versioned.view_own hr]
    exact hI wr r hr
  · rw [Versioned.view_eq_committed fun r hr => h ⟨r, hr⟩]
    exact .inl rfl

/-- One step keeps the invariant and commits along the table. -/
theorem pendingAdmitted_step {cfg : Config} {w w' : World} {a : Action} (hI : PendingAdmitted w)
    (hG : UpdatesInStep w a) (h : step cfg w a = some w') :
    PendingAdmitted w' ∧ TableChange w a w' := by
  rcases moved_row (step_moved h) with hrow | ⟨wr, o, ho, hrow⟩ | ⟨wr, hrow⟩ | ⟨wr, hrow⟩
  · have hsame : w'.row = w.row := hrow
    refine ⟨?_, fun hne => absurd (by rw [hsame]) hne⟩
    intro wr r hr
    rw [hsame] at hr ⊢
    exact hI wr r hr
  · obtain ⟨hc, hnew⟩ := flushRow_eq_some hrow
    refine ⟨?_, fun hne => absurd (by rw [hc]) hne⟩
    intro wr' r hr
    rw [hc]
    rcases hnew with hsame | ⟨hu, -⟩
    · rw [hsame] at hr
      exact hI wr' r hr
    · rw [hu] at hr
      obtain ⟨-, rfl⟩ : wr = wr' ∧ o.patch (w.row.view wr) = r := by simpa using hr
      by_cases hstatus : o.current.status = o.loaded.status
      · rw [Orm.patch_status_of_clean hstatus]
        exact admits_view hI wr
      · rw [Orm.patch_status_of_dirty hstatus]
        exact hG (wr, o) ho hstatus
  · rcases Versioned.commit_cases w.row wr with ⟨r, hr, hcommit⟩ | ⟨-, hcommit⟩
    · rw [hcommit] at hrow
      constructor
      · intro wr' r' hr'
        rw [hrow] at hr'
        cases hr'
      · unfold TableChange
        rw [hrow]
        exact fun hne => (hI wr r hr).resolve_left hne
    · rw [hcommit] at hrow
      refine ⟨?_, fun hne => absurd (by rw [hrow]) hne⟩
      intro wr' r' hr'
      rw [hrow] at hr' ⊢
      exact hI wr' r' hr'
  · have hcommitted : w'.row.committed = w.row.committed := by
      rw [hrow, Versioned.rollback_committed]
    refine ⟨?_, fun hne => absurd (by rw [hcommitted]) hne⟩
    intro wr' r hr
    rw [hcommitted]
    rw [hrow] at hr
    exact hI wr' r (Versioned.rollback_eq_some hr).1

theorem pendingAdmitted_initial (inputs : List (String × Core.Json)) :
    PendingAdmitted (World.initial inputs) := by
  intro wr r hr
  cases hr

/-- With every status-changing UPDATE in step with the committed row, all
committed changes are edges of the table, whatever workers and requests do. -/
theorem committed_changes_are_edges (cfg : Config) (inputs : List (String × Core.Json))
    (as : List Action)
    (h : Along (step cfg) (fun w a _ => UpdatesInStep w a) (World.initial inputs) as) :
    Along (step cfg) TableChange (World.initial inputs) as :=
  along_of_invariant (fun _ _ _ hI hG hs => (pendingAdmitted_step hI hG hs).1)
    (fun _ _ _ hI hG hs => (pendingAdmitted_step hI hG hs).2) (pendingAdmitted_initial inputs) h

/-- A terminal status that is committed then stays. -/
theorem terminal_status_stays (cfg : Config) (inputs : List (String × Core.Json))
    (as : List Action)
    (h : Along (step cfg) (fun w a _ => UpdatesInStep w a) (World.initial inputs) as) :
    Along (step cfg) (fun w _ w' => Terminal w.row.committed.status →
      w'.row.committed.status = w.row.committed.status) (World.initial inputs) as := by
  refine along_of_invariant (fun _ _ _ hI hG hs => (pendingAdmitted_step hI hG hs).1)
    (fun w a w' hI hG hs hterminal => ?_) (pendingAdmitted_initial inputs) h
  by_contra hne
  exact terminal_no_edge hterminal ((pendingAdmitted_step hI hG hs).2 (Ne.symm hne))

/-! ## A cancel behind the worker's last flush -/

/-- A cancel reads RUNNING while the worker is inside the last step, waits for the
row lock of the worker's flush, and then updates the COMPLETED row. -/
def lateCancel : List Action :=
  [.enqueue 0] ++ deliver 10 ++ [.request 1 .cancel] ++ List.replicate 6 (.run 0) ++
    [.flush 1, .commit 1]

theorem completed_overwritten_by_cancel :
    ¬ Along (step oneStep) TableChange (World.initial []) lateCancel := by
  decide +kernel

theorem committed_changes_are_edges_deliver :
    Along (step oneStep) TableChange (World.initial []) (.enqueue 0 :: deliver 18) :=
  committed_changes_are_edges oneStep [] _ (by decide +kernel)

end Sutram.Workflow
