/-
Deliveries after the end.

The terminal guard and the FSM both decide on the row `_run` read before it had
the lock.  A delivery that read PENDING keeps that reading while it waits, so the
state that matters is the one in which it takes the lock.
-/
import Sutram.Workflow.Transitions
import Sutram.Workflow.Invariants

namespace Sutram.Workflow

open Sutram.Core Runs

/-- Once a terminal status is committed nothing is started, written or published
and the status stays. -/
def SilentAfterEnd (w : World) (_ : Action) (w' : World) : Prop :=
  Terminal w.row.committed.status →
    w'.row.committed.status = w.row.committed.status ∧ w'.checkpoints = w.checkpoints ∧
      w'.log = w.log

instance (w : World) (a : Action) (w' : World) : Decidable (SilentAfterEnd w a w') :=
  inferInstanceAs (Decidable (_ → _))

def Action.isRequest : Action → Bool
  | .request _ _ => true
  | _ => false

/-- A delivery that read PENDING takes the free lock only while no terminal status
has been committed since. -/
def AcquiresInTime (w : World) : Action → Prop
  | .run i => (w.workers i).pc = .acquire ∧ w.lock = none ∧
      (w.workers i).execution.current.status = .pending → ¬ Terminal w.row.committed.status
  | _ => True

instance (w : World) : ∀ a, Decidable (AcquiresInTime w a)
  | .run _ => inferInstanceAs (Decidable (_ → _))
  | .take _ | .fail _ _ | .crash _ | .request _ _ | .flush _ | .commit _ | .enqueue _
  | .enqueueFails _ | .abort _ | .scan _ | .pod _ | .podCrash _ | .redeliver | .expire
  | .tick => isTrue trivial

/-! ## The invariant -/

/-- A worker that has nothing left to do but leave. -/
def Pc.Spent (cached : ExecutionStatus) : Pc → Prop
  | .idle | .read | .acquire | .release _ | .close _ => True
  | .setup => cached ≠ .pending
  | _ => False

def SpentAt (w : World) (i : Nat) : Prop :=
  (w.workers i).pc.Spent (w.workers i).execution.current.status

/-- No request is between its SELECT and its commit. -/
def NoRequestOpen (w : World) : Prop :=
  ∀ r, (w.requests r).phase = .idle ∨ (w.requests r).phase = .enqueue

structure Ended (w : World) : Prop where
  sound : Sound w
  requests : NoRequestOpen w
  spent : Terminal w.row.committed.status → ∀ i, SpentAt w i

/-! ## Workers after the end -/

theorem ran_after_end {cfg : Config} {w w' : World} {i : Nat} (hI : SoundAt w i)
    (hspent : SpentAt w i) (hT : Terminal w.row.committed.status)
    (hG : AcquiresInTime w (.run i)) (h : Ran cfg w i w') :
    SilentAfterEnd w (.run i) w' ∧ SpentAt w' i := by
  unfold SpentAt at hspent
  cases h with
  | readTerminal hpc | refused hpc | setupRaises hpc =>
    exact ⟨fun _ => ⟨rfl, rfl, rfl⟩, by simp [SpentAt, Pc.Spent]⟩
  | read hpc ht => exact absurd hT ht
  | acquired hpc hlock =>
    have hne : (w.workers i).execution.current.status ≠ .pending :=
      fun hs => hG ⟨hpc, hlock, hs⟩ hT
    exact ⟨fun _ => ⟨rfl, rfl, rfl⟩, by simpa [SpentAt, Pc.Spent] using hne⟩
  | setup hpc hs =>
    rw [hpc] at hspent
    exact absurd hs hspent
  | release hpc => exact ⟨fun _ => ⟨rfl, rfl, rfl⟩, by simp [SpentAt, Pc.Spent]⟩
  | closeReturned hpc =>
    have hadded : (w.workers i).added = [] := hI.added (by rw [hpc]; rfl)
    refine ⟨fun _ => ⟨?_, by simp [hadded], rfl⟩, by simp [SpentAt, Pc.Spent]⟩
    show (w.row.commit (.worker i)).committed.status = w.row.committed.status
    rcases Versioned.commit_cases w.row (.worker i) with ⟨r, hr, hcommit⟩ | ⟨-, hcommit⟩
    · rw [hcommit]
      simpa [hpc, Pc.OwnStatus] using hI.own r hr
    · rw [hcommit]
  | closeRaised hpc =>
    exact ⟨fun _ => ⟨by simp, rfl, rfl⟩, by simp [SpentAt, Pc.Spent]⟩
  | _ hpc =>
    rw [hpc] at hspent
    exact hspent.elim

theorem moved_after_end {cfg : Config} {w w' : World} {a : Action} {i : Nat} (hI : SoundAt w i)
    (hspent : SpentAt w i) (hT : Terminal w.row.committed.status) (hG : AcquiresInTime w a)
    (h : Moved cfg w a w') (hi : actor a = some i) :
    SilentAfterEnd w a w' ∧ SpentAt w' i := by
  cases h with
  | @run j _ h =>
    obtain rfl : j = i := by simpa [actor] using hi
    exact ran_after_end hI hspent hT hG h
  | @take j hpc =>
    obtain rfl : j = i := by simpa [actor] using hi
    exact ⟨fun _ => ⟨rfl, rfl, rfl⟩, by simp [SpentAt, Pc.Spent]⟩
  | @failClose j _ _ hpc | @crash j hpc =>
    obtain rfl : j = i := by simpa [actor] using hi
    exact ⟨fun _ => ⟨by simp, rfl, rfl⟩, by simp [SpentAt, Pc.Spent]⟩
  | @failDatabase j message hdb =>
    obtain rfl : j = i := by simpa [actor] using hi
    refine ⟨fun _ => ⟨by simp, rfl, rfl⟩, ?_⟩
    unfold SpentAt at hspent ⊢
    cases hpc : (w.workers j).pc <;> simp_all [Pc.Spent, Pc.usesDatabase, Pc.onFail]
  | @fail j message hidle hclose hdb =>
    obtain rfl : j = i := by simpa [actor] using hi
    refine ⟨fun _ => ⟨rfl, rfl, rfl⟩, ?_⟩
    unfold SpentAt at hspent ⊢
    cases hpc : (w.workers j).pc <;> simp_all [Pc.Spent, Pc.usesDatabase, Pc.onFail]
  | bystander hnone _ =>
    rw [writer_of_actor hi] at hnone
    cases hnone
  | _ => cases hi

/-! ## The step that ends the execution -/

theorem spent_of_not_inLock {pc : Pc} (cached : ExecutionStatus) (h : pc.inLock = false) :
    pc.Spent cached := by
  cases pc <;> simp_all [Pc.inLock, Pc.Spent]

/-- Only the commit of COMPLETED by the holder of the lock makes the status
terminal, and that worker leaves. -/
theorem ran_ends {cfg : Config} {w w' : World} {i : Nat} (hI : SoundAt w i)
    (hT : ¬ Terminal w.row.committed.status) (hT' : Terminal w'.row.committed.status)
    (h : Ran cfg w i w') : (w.workers i).pc.inLock ∧ SpentAt w' i := by
  have hne : w'.row.committed.status ≠ w.row.committed.status := fun heq => hT (by rwa [← heq])
  rcases ran_status_change hI h hne with hs | ⟨-, hpc⟩ | hs
  · rw [hs] at hT'
    exact absurd hT' (by decide)
  · refine ⟨by rw [hpc]; rfl, ?_⟩
    cases h with
    | commitCompleted _ => simp [SpentAt, Pc.Spent]
    | _ hpc' =>
      rw [hpc] at hpc'
      cases hpc'
  · rw [hs] at hT'
    exact absurd hT' (by decide)

/-! ## Moves that are no worker's -/

/-- With no request open the committed row belongs to the workers. -/
theorem moved_no_request {cfg : Config} {w w' : World} {a : Action} (hI : NoRequestOpen w)
    (hG : a.isRequest = false) (h : Moved cfg w a w') (ha : actor a = none) :
    w'.row.committed = w.row.committed := by
  cases h with
  | conflict | request => cases hG
  | @flush r _ hphase | @commitResume r hphase | @commit r _ hphase =>
    rcases hI r with hr | hr <;> rw [hphase] at hr <;> cases hr
  | enqueue | enqueueFails => rfl
  | abort => simp
  | bystander _ h => rw [h.row]
  | _ => cases ha

theorem noRequestOpen_set {w : World} {r : Nat} (hI : NoRequestOpen w) :
    NoRequestOpen (w.setRequest r {}) := by
  intro r'
  by_cases hr : r' = r
  · subst hr
    simp
  · simpa [hr] using hI r'

theorem noRequestOpen_moved {cfg : Config} {w w' : World} {a : Action} (hI : NoRequestOpen w)
    (hG : a.isRequest = false) (h : Moved cfg w a w') : NoRequestOpen w' := by
  cases h with
  | conflict | request => cases hG
  | @flush r _ hphase | @commitResume r hphase | @commit r _ hphase =>
    rcases hI r with hr | hr <;> rw [hphase] at hr <;> cases hr
  | @enqueue r _ | @enqueueFails r _ | @abort r _ => exact noRequestOpen_set (r := r) hI
  | run h =>
    unfold NoRequestOpen
    rw [ran_requests h]
    exact hI
  | bystander _ h =>
    unfold NoRequestOpen
    rw [h.requests]
    exact hI
  | _ => exact hI

/-! ## One step -/

theorem spentAt_frame {w w' : World} {j : Nat} (hI : SpentAt w j) (h : Frame j w w') :
    SpentAt w' j := by
  unfold SpentAt
  rw [h.worker]
  exact hI

theorem ended_step {cfg : Config} {w w' : World} {a : Action} (hI : Ended w)
    (hG : a.isRequest = false ∧ AcquiresInTime w a) (h : step cfg w a = some w') :
    Ended w' ∧ SilentAfterEnd w a w' := by
  have hmoved := step_moved h
  have hsound : Sound w' := sound_step hI.sound h
  have hrequests := noRequestOpen_moved hI.requests hG.1 hmoved
  cases ha : actor a with
  | none =>
    have hc := moved_no_request hI.requests hG.1 hmoved ha
    obtain ⟨hlog, hcheck⟩ := moved_log_other hmoved ha
    refine ⟨⟨hsound, hrequests, fun hT j => ?_⟩, fun _ => ⟨by rw [hc], hcheck, hlog⟩⟩
    rw [hc] at hT
    exact spentAt_frame (hI.spent hT j) (moved_frame hmoved (by rw [ha]; simp))
  | some i =>
    have others : ∀ j, j ≠ i → Frame j w w' := fun j hj =>
      moved_frame hmoved (by rw [ha]; simpa using Ne.symm hj)
    by_cases hT : Terminal w.row.committed.status
    · obtain ⟨hsilent, hi⟩ := moved_after_end (hI.sound i) (hI.spent hT i) hT hG.2 hmoved ha
      refine ⟨⟨hsound, hrequests, fun _ j => ?_⟩, hsilent⟩
      by_cases hj : j = i
      · subst hj
        exact hi
      · exact spentAt_frame (hI.spent hT j) (others j hj)
    · refine ⟨⟨hsound, hrequests, fun hT' j => ?_⟩, fun h => absurd h hT⟩
      obtain ⟨hin, hi⟩ : (w.workers i).pc.inLock ∧ SpentAt w' i := by
        cases hmoved with
        | @run k _ hran =>
          obtain rfl : k = i := by simpa [actor] using ha
          exact ran_ends (hI.sound k) hT hT' hran
        | failClose | failDatabase | crash => exact absurd hT' (by simpa using hT)
        | take | fail => exact absurd hT' hT
        | bystander hnone _ =>
          rw [writer_of_actor ha] at hnone
          cases hnone
        | _ => cases ha
      by_cases hj : j = i
      · subst hj
        exact hi
      · -- The lock is `i`'s, so no other worker is inside it.
        refine spentAt_frame (spent_of_not_inLock _ ?_) (others j hj)
        refine Bool.eq_false_iff.mpr fun hinj => hj ?_
        have hlock := (hI.sound i).mutex hin
        rw [(hI.sound j).mutex hinj] at hlock
        cases hlock
        rfl

theorem ended_initial (inputs : List (String × Core.Json)) : Ended (World.initial inputs) := by
  refine ⟨sound_initial inputs, fun r => ?_, fun hT => ?_⟩
  · by_cases hr : r = 0
    · subst hr
      exact .inr rfl
    · exact .inl (by simp [World.initial, hr])
  · exact absurd hT (show ¬ Terminal .pending by decide)

/-- Without API requests, deliveries that take the lock in time do nothing after a
terminal status. -/
theorem deliveries_silent_after_end (cfg : Config) (inputs : List (String × Core.Json))
    (as : List Action)
    (h : Along (step cfg) (fun w a _ => a.isRequest = false ∧ AcquiresInTime w a)
      (World.initial inputs) as) :
    Along (step cfg) SilentAfterEnd (World.initial inputs) as :=
  along_of_invariant (fun _ _ _ hI hG hs => (ended_step hI hG hs).1)
    (fun _ _ _ hI hG hs => (ended_step hI hG hs).2) (ended_initial inputs) h

/-! ## Two deliveries that both read PENDING -/

/-- The second delivery reads the row and waits; the first completes the
execution and leaves the lock; the second takes it and writes RUNNING. -/
def doubleDelivery : List Action :=
  [.enqueue 0, .redeliver, .take 1, .run 1] ++ deliver 18 ++ List.replicate 7 (.run 1)

theorem second_delivery_runs_after_completion :
    (∀ a ∈ doubleDelivery, a.isRequest = false) ∧
      ¬ Along (step oneStep) SilentAfterEnd (World.initial []) doubleDelivery := by
  decide +kernel

/-- The second delivery waits until the lock is taken, and is refused. -/
theorem deliveries_silent_after_end_refused :
    Along (step oneStep) SilentAfterEnd (World.initial [])
      ([.enqueue 0, .redeliver, .take 1, .run 1] ++ deliver 16 ++
        [.run 1, .run 0, .run 0, .run 1]) :=
  deliveries_silent_after_end oneStep [] _ (by decide +kernel)

end Sutram.Workflow
