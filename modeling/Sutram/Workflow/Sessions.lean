/-
What the open transaction of a request holds.

A route computes its new status from the row it has selected and writes that status
and nothing of the context.  Together with what a worker commits this says who can
give the row which status.
-/
import Sutram.Workflow.Invariants

namespace Sutram.Workflow

open Sutram.Core Runs

/-- The status a request gives the row. -/
def RequestKind.target : RequestKind → ExecutionStatus
  | .pause => .paused
  | .resume => .pending
  | .cancel => .cancelled

theorem transition_target {s : ExecutionStatus} {kind : RequestKind} {fsm : ExecutionFSM}
    (h : (ExecutionFSM.mk s).transition kind.route.trigger = .ok fsm) :
    fsm.status = kind.target ∧ s ≠ kind.target := by
  cases kind <;> cases s <;> cases h <;> exact ⟨rfl, by decide⟩

theorem route_assign_context (kind : RequestKind) (s : ExecutionStatus) (row : ExecutionRow) :
    (kind.route.assign s row).context = row.context := by
  cases kind <;> rfl

structure SessionAt (w : World) (r : Nat) : Prop where
  flush : ∀ kind, (w.requests r).phase = .flush kind →
    (w.requests r).fsm.status = kind.target ∧
      (w.requests r).execution.current = (w.requests r).execution.loaded ∧
      (w.requests r).execution.loaded.status ≠ kind.target
  own : ∀ v, w.row.uncommitted = some (.request r, v) → ∃ kind,
    (w.requests r).phase = .commit kind ∧ v.status = kind.target ∧
      v.context = w.row.committed.context

def Sessions (w : World) : Prop := ∀ r, SessionAt w r

/-- A request with nothing uncommitted that is not about to flush. -/
theorem SessionAt.settled {w : World} {r : Nat}
    (hphase : ∀ kind, (w.requests r).phase ≠ .flush kind)
    (hrow : ∀ v, w.row.uncommitted ≠ some (.request r, v)) : SessionAt w r :=
  ⟨fun kind h => absurd h (hphase kind), fun v hv => absurd hv (hrow v)⟩

theorem SessionAt.other {w w' : World} {r : Nat} {wr : Writer} (hI : SessionAt w r)
    (hrequest : w'.requests r = w.requests r) (hwr : wr ≠ .request r)
    (hmoves : w.row.Moves wr w'.row) : SessionAt w' r := by
  constructor
  · rw [hrequest]
    exact hI.flush
  · intro v hv
    have hv' := (hmoves.uncommitted_of_ne hwr.symm).mp hv
    rw [hrequest, hmoves.committed_of_ne hwr.symm hv']
    exact hI.own v hv'

/-- A request that has not updated the row has nothing uncommitted. -/
theorem SessionAt.none_of_flush {w : World} {r : Nat} {kind : RequestKind} (hI : SessionAt w r)
    (hphase : (w.requests r).phase = .flush kind) (v : ExecutionRow) :
    w.row.uncommitted ≠ some (.request r, v) := by
  intro hv
  obtain ⟨kind', hcommit, -⟩ := hI.own v hv
  rw [hphase] at hcommit
  cases hcommit

/-- The UPDATE of a route: its status, and the context it finds. -/
theorem SessionAt.flushed {w : World} {r : Nat} {kind : RequestKind}
    {row : Versioned Writer ExecutionRow} (hI : SessionAt w r)
    (hphase : (w.requests r).phase = .flush kind)
    (hrow : flushRow w.row (.request r) ((w.requests r).execution.assign
      (kind.route.assign (w.requests r).fsm.status)) = some row) {v : ExecutionRow}
    (hv : row.uncommitted = some (.request r, v)) :
    v.status = kind.target ∧ v.context = row.committed.context := by
  obtain ⟨htarget, hclean, hne⟩ := hI.flush kind hphase
  have hnone := hI.none_of_flush hphase
  obtain ⟨hc, hsame | ⟨hu, -⟩⟩ := flushRow_eq_some hrow
  · rw [hsame] at hv
    exact absurd hv (hnone v)
  · rw [hu, Versioned.view_eq_committed hnone] at hv
    cases hv
    constructor
    · rw [Orm.patch_status_of_dirty]
      · rw [Orm.assign_current, route_assign_status, htarget]
      · rw [Orm.assign_current, route_assign_status, htarget, Orm.assign_loaded]
        exact hne.symm
    · simp [Orm.patch, patchColumn, route_assign_context, hclean, hc]

theorem sessionAt_step {cfg : Config} {w w' : World} {a : Action} (hI : Sessions w)
    (h : Moved cfg w a w') (r : Nat) : SessionAt w' r := by
  by_cases hr : writer a = some (.request r)
  · cases h with
    | conflict => exact ⟨(hI r).flush, (hI r).own⟩
    | @request r' kind fsm hphase hfsm =>
      obtain rfl : r' = r := by simpa [writer] using hr
      refine ⟨fun kind' hk => ?_, fun v hv => ?_⟩
      · obtain rfl : kind = kind' := by simpa using hk
        simpa using transition_target hfsm
      · obtain ⟨kind', hcommit, -⟩ := (hI r').own v hv
        rw [hphase] at hcommit
        cases hcommit
    | @flush r' kind hphase row hrow =>
      obtain rfl : r' = r := by simpa [writer] using hr
      refine ⟨fun kind' hk => by simp at hk, fun v hv => ⟨kind, by simp, ?_⟩⟩
      exact (hI r').flushed hphase hrow hv
    | @commitResume r' hphase | @commit r' _ hphase =>
      obtain rfl : r' = r := by simpa [writer] using hr
      exact .settled (by simp) fun v => Versioned.commit_uncommitted _ _ v
    | @enqueue r' hphase | @enqueueFails r' hphase =>
      obtain rfl : r' = r := by simpa [writer] using hr
      refine .settled (by simp) fun v hv => ?_
      obtain ⟨kind, hcommit, -⟩ := (hI r').own v hv
      rw [hphase] at hcommit
      cases hcommit
    | @abort r' hphase =>
      obtain rfl : r' = r := by simpa [writer] using hr
      exact .settled (by simp) fun v => Versioned.rollback_uncommitted _ _ v
    | bystander hnone _ =>
      rw [hr] at hnone
      cases hnone
    | _ => cases hr
  · obtain ⟨wr, hwr, hmoves⟩ := moved_moves_other h hr
    exact (hI r).other (moved_requests_other h hr) hwr hmoves

theorem sessions_initial (inputs : List (String × Core.Json)) :
    Sessions (World.initial inputs) := by
  intro r
  refine .settled (fun kind => ?_) (by simp [World.initial])
  by_cases hr : r = 0
  · subst hr
    simp [World.initial]
  · simp [World.initial, hr]

/-! ## Who gives the row which status -/

/-- A route's commit gives the row the route's target. -/
theorem SessionAt.commit {w : World} {r : Nat} (hI : SessionAt w r)
    (hne : (w.row.commit (.request r)).committed.status ≠ w.row.committed.status) :
    ∃ kind, (w.requests r).phase = .commit kind ∧
      (w.row.commit (.request r)).committed.status = kind.target := by
  rcases Versioned.commit_cases w.row (.request r) with ⟨v, hv, hc⟩ | ⟨-, hc⟩
  · obtain ⟨kind, hphase, htarget, -⟩ := hI.own v hv
    exact ⟨kind, hphase, by rw [hc, Versioned.settled_committed, htarget]⟩
  · exact absurd (by rw [hc]) hne

/-- A worker that has left the lock changes the committed status no more. -/
theorem inLock_of_status_change {cfg : Config} {w w' : World} {i : Nat} (hI : SoundAt w i)
    (h : Ran cfg w i w') (hne : w'.row.committed.status ≠ w.row.committed.status) :
    (w.workers i).pc.inLock := by
  have hown := hI.own
  cases h with
  | closeReturned hpc =>
    rw [hpc] at hown
    have hsame : (w.row.commit (.worker i)).committed.status = w.row.committed.status :=
      (commit_status fun r hr => .inl (hown r hr)).elim id id
    exact absurd hsame hne
  | closeRaised hpc => exact absurd (by simp) hne
  | readTerminal | read | refused | acquired => exact absurd rfl hne
  | _ hpc =>
    rw [hpc]
    rfl

/-- While a worker is inside the lock, another party changes the committed status only
by the commit of a route. -/
theorem status_change_other {cfg : Config} {w w' : World} {a : Action} {i : Nat}
    (hsound : Sound w) (hsessions : Sessions w) (h : Moved cfg w a w') (hi : actor a ≠ some i)
    (hin : (w.workers i).pc.inLock)
    (hne : w'.row.committed.status ≠ w.row.committed.status) :
    ∃ r kind, a = .commit r ∧ (w.requests r).phase = .commit kind ∧
      w'.row.committed.status = kind.target := by
  cases h with
  | @run j _ h =>
    -- Two workers inside the lock are one.
    have hj := (hsound j).mutex (inLock_of_status_change (hsound j) h hne)
    rw [(hsound i).mutex hin] at hj
    obtain rfl : i = j := by simpa using hj
    exact absurd rfl hi
  | @commitResume r | @commit r =>
    obtain ⟨kind, hphase, htarget⟩ := (hsessions r).commit hne
    exact ⟨r, kind, rfl, hphase, htarget⟩
  | flush hphase hrow => exact absurd (by simp [(flushRow_eq_some hrow).1]) hne
  | failClose | failDatabase | crash | abort => exact absurd (by simp) hne
  | bystander _ h => exact absurd (by rw [h.row]) hne
  | _ => exact absurd rfl hne

theorem status_ne_completed {cfg : Config} {w w' : World} {a : Action} {i : Nat}
    (hsound : Sound w) (hsessions : Sessions w) (h : Moved cfg w a w')
    (hi : actor a ≠ some i) (hin : (w.workers i).pc.inLock)
    (hs : w.row.committed.status ≠ .completed) : w'.row.committed.status ≠ .completed := by
  by_cases hne : w'.row.committed.status = w.row.committed.status
  · rwa [hne]
  · obtain ⟨r, kind, -, -, htarget⟩ := status_change_other hsound hsessions h hi hin hne
    rw [htarget]
    cases kind <;> decide

end Sutram.Workflow
