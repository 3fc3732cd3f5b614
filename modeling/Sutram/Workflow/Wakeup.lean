/-
Who carries a PENDING execution.

A committed PENDING has to be taken to RUNNING by some delivery.  `Carried` names
a delivery that will do so, or the task or request it comes from; `Kept`, which is
what is to be shown, also counts deliveries that are past that point.
-/
import Sutram.Workflow.Invariants

namespace Sutram.Workflow

open Sutram.Core Runs

/-- Before the lock acquisition, or inside the lock with steps to come. -/
def Pc.mayProcess : Pc → Bool
  | .read | .acquire | .setup | .flushRunning _ | .publishStarted _ _ | .commitRunning _
  | .refresh _ | .writeCheckpoint _ | .commitCheckpoint _ | .execute _ | .publishStep _ _
  | .flushStep _ => true
  | _ => false

def Kept (w : World) : Prop :=
  w.row.committed.status = .pending →
    0 < w.tasks ∨ (∃ r, (w.requests r).phase = .enqueue) ∨ ∃ i, (w.workers i).pc.mayProcess

/-- A delivery on its way to take PENDING to RUNNING. -/
def Serving (k : Worker) : Bool :=
  match k.pc with
  | .read | .flushRunning _ | .publishStarted _ _ | .commitRunning _ => true
  | .acquire | .setup => k.execution.current.status = .pending
  | _ => false

/-- The lock is free, or its holder is a worker inside that serves the row itself. -/
def LockServes (w : World) : Option Holder → Prop
  | none => True
  | some (.worker j) => (w.workers j).pc.inLock ∧ Serving (w.workers j)
  | some (.pod _) => False

instance (w : World) : ∀ l, Decidable (LockServes w l)
  | none => isTrue trivial
  | some (.worker _) => inferInstanceAs (Decidable (_ ∧ _))
  | some (.pod _) => isFalse id

/-- While PENDING is committed, a delivery that read PENDING is not refused the lock
by a holder that no longer serves the row, and no serving delivery raises.  The
broker takes every task. -/
def HandsOver (w : World) : Action → Prop
  | .run i => w.row.committed.status = .pending ∧ (w.workers i).pc = .acquire ∧
      (w.workers i).execution.current.status = .pending → LockServes w w.lock
  | .fail i _ => w.row.committed.status = .pending → Serving (w.workers i) = false
  | .enqueueFails _ => False
  | _ => True

instance (w : World) : ∀ a, Decidable (HandsOver w a)
  | .run _ => inferInstanceAs (Decidable (_ → _))
  | .fail _ _ => inferInstanceAs (Decidable (_ → _))
  | .enqueueFails _ => isFalse id
  | .take _ | .crash _ | .request _ _ | .flush _ | .commit _ | .enqueue _ | .abort _ | .scan _
  | .pod _ | .podCrash _ | .redeliver | .expire | .tick => isTrue trivial

/-! ## The invariant -/

/-- An open request's transaction writes PENDING over another status only for a
resume. -/
structure RequestAt (w : World) (r : Nat) : Prop where
  fsm : ∀ kind, (w.requests r).phase = .flush kind → (w.requests r).fsm.status = .pending →
    kind = .resume
  own : ∀ v, w.row.uncommitted = some (.request r, v) → ∃ kind,
    (w.requests r).phase = .commit kind ∧
      (v.status = .pending → w.row.committed.status = .pending ∨ kind = .resume)

def Carried (w : World) : Prop :=
  w.row.committed.status = .pending →
    0 < w.tasks ∨ (∃ r, (w.requests r).phase = .enqueue) ∨ ∃ i, Serving (w.workers i)

structure Watched (w : World) : Prop where
  sound : Sound w
  requests : ∀ r, RequestAt w r
  carried : Carried w

theorem mayProcess_of_serving {k : Worker} (h : Serving k) : k.pc.mayProcess := by
  unfold Serving at h
  cases hpc : k.pc <;> simp_all [Pc.mayProcess]

theorem kept_of_carried {w : World} (h : Carried w) : Kept w := by
  intro hp
  rcases h hp with htasks | hr | ⟨i, hi⟩
  · exact .inl htasks
  · exact .inr (.inl hr)
  · exact .inr (.inr ⟨i, mayProcess_of_serving hi⟩)

/-! ## Requests -/

theorem transition_pending {s : ExecutionStatus} {kind : RequestKind} {fsm : ExecutionFSM}
    (h : (ExecutionFSM.mk s).transition kind.route.trigger = .ok fsm)
    (hp : fsm.status = .pending) : kind = .resume := by
  cases kind
  · cases s <;> cases h
    cases hp
  · rfl
  · cases s <;> cases h
    all_goals cases hp

/-- A request's facts survive every move of another party. -/
theorem requestAt_other {w w' : World} {r : Nat} {wr : Writer} (hI : RequestAt w r)
    (hrequest : w'.requests r = w.requests r) (hwr : wr ≠ .request r)
    (hmoves : w.row.Moves wr w'.row) : RequestAt w' r := by
  constructor
  · rw [hrequest]
    exact hI.fsm
  · intro v hv
    have hv' := (hmoves.uncommitted_of_ne hwr.symm).mp hv
    rw [hrequest, hmoves.committed_of_ne hwr.symm hv']
    exact hI.own v hv'

/-- A request with nothing uncommitted that is not about to flush. -/
theorem requestAt_settled {w : World} {r : Nat}
    (hphase : ∀ kind, (w.requests r).phase ≠ .flush kind)
    (hrow : ∀ v, w.row.uncommitted ≠ some (.request r, v)) : RequestAt w r :=
  ⟨fun kind h => absurd h (hphase kind), fun v hv => absurd hv (hrow v)⟩

theorem requestAt_flush {w : World} {r : Nat} {kind : RequestKind} {o : Orm}
    {row : Versioned Writer ExecutionRow} (hI : RequestAt w r)
    (hphase : (w.requests r).phase = .flush kind)
    (ho : o.current.status = (w.requests r).fsm.status)
    (hrow : flushRow w.row (.request r) o = some row) {v : ExecutionRow}
    (hv : row.uncommitted = some (.request r, v)) (hp : v.status = .pending) :
    row.committed.status = .pending ∨ kind = .resume := by
  have hnone : ∀ v, w.row.uncommitted ≠ some (.request r, v) := by
    intro v hv
    obtain ⟨kind', hcommit, -⟩ := hI.own v hv
    rw [hphase] at hcommit
    cases hcommit
  obtain ⟨hc, hsame | ⟨hu, -⟩⟩ := flushRow_eq_some hrow
  · rw [hsame] at hv
    exact absurd hv (hnone v)
  · have hpatch : o.patch (w.row.view (.request r)) = v := by simpa [hu] using hv
    rw [Versioned.view_eq_committed hnone] at hpatch
    rcases Orm.patch_status o w.row.committed with hs | hs
    · rw [hpatch, hp] at hs
      exact .inl (by rw [hc, ← hs])
    · rw [hpatch, hp, ho] at hs
      exact .inr (hI.fsm kind hphase hs.symm)

theorem requestAt_step {cfg : Config} {w w' : World} {a : Action} (hI : ∀ r, RequestAt w r)
    (h : Moved cfg w a w') (r : Nat) : RequestAt w' r := by
  by_cases hr : writer a = some (.request r)
  · cases h with
    | conflict =>
      exact ⟨(hI r).fsm, (hI r).own⟩
    | @request r' kind fsm hphase hfsm =>
      obtain rfl : r' = r := by simpa [writer] using hr
      refine ⟨fun kind' hk hp => ?_, fun v hv => ?_⟩
      · obtain rfl : kind = kind' := by simpa using hk
        exact transition_pending hfsm (by simpa using hp)
      · obtain ⟨kind', hcommit, -⟩ := (hI r').own v hv
        rw [hphase] at hcommit
        cases hcommit
    | @flush r' kind hphase row hrow =>
      obtain rfl : r' = r := by simpa [writer] using hr
      refine ⟨fun kind' hk => by simp at hk, fun v hv => ⟨kind, by simp, fun hp => ?_⟩⟩
      exact requestAt_flush (hI r') hphase (route_assign_status _ _ _) hrow hv hp
    | @commitResume r' hphase | @commit r' _ hphase =>
      obtain rfl : r' = r := by simpa [writer] using hr
      exact requestAt_settled (by simp) fun v => Versioned.commit_uncommitted _ _ v
    | @enqueue r' hphase | @enqueueFails r' hphase =>
      obtain rfl : r' = r := by simpa [writer] using hr
      refine requestAt_settled (by simp) fun v hv => ?_
      obtain ⟨kind, hcommit, -⟩ := (hI r').own v hv
      rw [hphase] at hcommit
      cases hcommit
    | @abort r' hphase =>
      obtain rfl : r' = r := by simpa [writer] using hr
      exact requestAt_settled (by simp) fun v => Versioned.rollback_uncommitted _ _ v
    | bystander hnone _ =>
      rw [hr] at hnone
      cases hnone
    | _ => cases hr
  · obtain ⟨wr, hwr, hmoves⟩ := moved_moves_other h hr
    exact requestAt_other (hI r) (moved_requests_other h hr) hwr hmoves

/-! ## One step -/

theorem serving_frame {w w' : World} {j : Nat} (hI : Serving (w.workers j)) (h : Frame j w w') :
    Serving (w'.workers j) := by
  rw [h.worker]
  exact hI

/-- A serving delivery's next operation: it goes on serving, commits RUNNING, or is
refused the lock. -/
theorem ran_serving {cfg : Config} {w w' : World} {i : Nat} (hI : SoundAt w i)
    (hserving : Serving (w.workers i)) (hp : w.row.committed.status = .pending)
    (h : Ran cfg w i w') :
    Serving (w'.workers i) ∨ w'.row.committed.status = .running ∨
      ((w.workers i).pc = .acquire ∧ ∃ holder, w.lock = some holder) := by
  cases h with
  | readTerminal hpc ht =>
    rw [hp] at ht
    exact absurd ht (by decide)
  | read hpc ht => exact .inl (by simp [Serving, hp])
  | refused hpc hlock => exact .inr (.inr ⟨hpc, _, hlock⟩)
  | acquired hpc hlock =>
    refine .inl ?_
    simpa [Serving, hpc] using hserving
  | setupRaises hpc hs => simp [Serving, hpc, hs] at hserving
  | setup hpc hs => exact .inl (by simp [Serving])
  | flushRunning hpc hrow => exact .inl (by simp [Serving])
  | publishStarted hpc hnext =>
    rcases hnext with rfl | rfl <;> exact .inl (by simp [Serving])
  | commitRunning hpc =>
    obtain ⟨r, hr⟩ := hI.started (by rw [hpc]; rfl)
    have hstatus : r.status = .running := by simpa [hpc, Pc.OwnStatus] using hI.own r hr
    refine .inr (.inl ?_)
    simpa [Versioned.commit_own hr] using hstatus
  | _ hpc => simp [Serving, hpc] at hserving

theorem moved_tasks {cfg : Config} {w w' : World} {a : Action} (h : Moved cfg w a w') :
    w.tasks ≤ w'.tasks ∨ ∃ i, a = .take i ∧ (w'.workers i).pc = .read := by
  cases h with
  | run h => exact .inl (by cases h <;> exact le_rfl)
  | @take i hpc htasks => exact .inr ⟨i, rfl, by simp⟩
  | crash | enqueue => exact .inl (Nat.le_succ _)
  | bystander _ h => exact .inl h.tasks
  | _ => exact .inl le_rfl

/-- A route that is still to enqueue does so, or stays where it is. -/
theorem moved_enqueue {cfg : Config} {w w' : World} {a : Action} {r : Nat}
    (hr : (w.requests r).phase = .enqueue) (hG : HandsOver w a) (h : Moved cfg w a w') :
    0 < w'.tasks ∨ (w'.requests r).phase = .enqueue := by
  by_cases hw : writer a = some (.request r)
  · cases h with
    | enqueue => exact .inl (Nat.succ_pos _)
    | enqueueFails => exact hG.elim
    | conflict => exact .inr hr
    | @request r' _ _ hphase | @flush r' _ hphase | @commitResume r' hphase
    | @commit r' _ hphase | @abort r' hphase =>
      obtain rfl : r' = r := by simpa [writer] using hw
      simp [hr] at hphase
    | bystander hnone _ =>
      rw [hw] at hnone
      cases hnone
    | _ => cases hw
  · rw [moved_requests_other h hw]
    exact .inr hr

/-- A PENDING that becomes committed was a resume's. -/
theorem moved_to_pending {cfg : Config} {w w' : World} {a : Action} (hI : Watched w)
    (hne : w.row.committed.status ≠ .pending) (hp : w'.row.committed.status = .pending)
    (h : Moved cfg w a w') : ∃ r, (w'.requests r).phase = .enqueue := by
  cases h with
  | @run i _ h =>
    have hchange := ran_status_change (hI.sound i) h (by rw [hp]; exact Ne.symm hne)
    rw [hp] at hchange
    simp at hchange
  | @commitResume r hphase => exact ⟨r, by simp⟩
  | @commit r kind hphase hkind =>
    rcases Versioned.commit_cases w.row (.request r) with ⟨v, hv, hcommit⟩ | ⟨-, hcommit⟩
    · obtain ⟨kind', hphase', hown⟩ := (hI.requests r).own v hv
      obtain rfl : kind = kind' := by simpa [hphase] using hphase'
      have hvp : v.status = .pending := by simpa [hcommit] using hp
      exact absurd (hown hvp) (by simp [hne, hkind])
    · exact absurd (by simpa [hcommit] using hp) hne
  | flush hphase hrow =>
    exact absurd (by simpa [(flushRow_eq_some hrow).1] using hp) hne
  | failClose | failDatabase | crash | abort => exact absurd (by simpa using hp) hne
  | bystander _ h => exact absurd (by rwa [h.row] at hp) hne
  | _ => exact absurd hp hne

/-- The delivery that serves the row, or what it left behind. -/
theorem moved_serving {cfg : Config} {w w' : World} {a : Action} {i : Nat} (hI : Watched w)
    (hG : HandsOver w a) (hp : w.row.committed.status = .pending)
    (hp' : w'.row.committed.status = .pending) (hi : Serving (w.workers i))
    (h : Moved cfg w a w') : 0 < w'.tasks ∨ ∃ j, Serving (w'.workers j) := by
  by_cases ha : actor a = some i
  · cases h with
    | @run k _ hran =>
      obtain rfl : k = i := by simpa [actor] using ha
      rcases ran_serving (hI.sound k) hi hp hran with hs | hs | ⟨hpc, holder, hlock⟩
      · exact .inr ⟨k, hs⟩
      · rw [hs] at hp'
        cases hp'
      · have hcached : (w.workers k).execution.current.status = .pending := by
          simpa [Serving, hpc] using hi
        have hholder := hG ⟨hp, hpc, hcached⟩
        rw [hlock] at hholder
        cases holder with
        | pod p => exact hholder.elim
        | worker j =>
          obtain ⟨hin, hj⟩ := hholder
          have hne : j ≠ k := by
            rintro rfl
            rw [hpc] at hin
            cases hin
          refine .inr ⟨j, serving_frame hj (moved_frame (.run hran) ?_)⟩
          simpa [actor] using hne.symm
    | @take k hpc htasks => exact .inr ⟨k, by simp [Serving]⟩
    | crash => exact .inl (Nat.succ_pos _)
    | @failClose k | @failDatabase k | @fail k =>
      obtain rfl : k = i := by simpa [actor] using ha
      have hnot : Serving (w.workers k) = false := hG hp
      rw [hnot] at hi
      cases hi
    | bystander hnone _ =>
      rw [writer_of_actor ha] at hnone
      cases hnone
    | _ => cases ha
  · exact .inr ⟨i, serving_frame hi (moved_frame h ha)⟩

theorem watched_step {cfg : Config} {w w' : World} {a : Action} (hI : Watched w)
    (hG : HandsOver w a) (h : step cfg w a = some w') : Watched w' := by
  have hmoved := step_moved h
  refine ⟨sound_step hI.sound h, requestAt_step hI.requests hmoved, fun hp' => ?_⟩
  by_cases hp : w.row.committed.status = .pending
  · rcases hI.carried hp with htasks | ⟨r, hr⟩ | ⟨i, hi⟩
    · rcases moved_tasks hmoved with hle | ⟨i, -, hread⟩
      · exact .inl (by omega)
      · exact .inr (.inr ⟨i, by simp [Serving, hread]⟩)
    · rcases moved_enqueue hr hG hmoved with htasks | hr'
      · exact .inl htasks
      · exact .inr (.inl ⟨r, hr'⟩)
    · rcases moved_serving hI hG hp hp' hi hmoved with htasks | hj
      · exact .inl htasks
      · exact .inr (.inr hj)
  · exact .inr (.inl (moved_to_pending hI hp hp' hmoved))

theorem watched_initial (inputs : List (String × Core.Json)) :
    Watched (World.initial inputs) := by
  refine ⟨sound_initial inputs, fun r => requestAt_settled ?_ ?_, fun _ => ?_⟩
  · intro kind
    by_cases hr : r = 0
    · subst hr
      simp [World.initial]
    · simp [World.initial, hr]
  · simp [World.initial]
  · exact .inr (.inl ⟨0, rfl⟩)

/-- In every run in which refused deliveries find the row served and serving
deliveries do not raise, a PENDING execution is never without a carrier. -/
theorem pending_kept (cfg : Config) (inputs : List (String × Core.Json)) (as : List Action)
    (w : World) (hG : Along (step cfg) (fun w a _ => HandsOver w a) (World.initial inputs) as)
    (hrun : run (step cfg) (World.initial inputs) as = some w) : Kept w :=
  kept_of_carried
    (invariant_run (fun _ _ _ hI hG hs => watched_step hI hG hs) (watched_initial inputs) hG
      hrun).carried

/-! ## A resume while the paused worker still holds the lock -/

/-- The worker sees PAUSED and is about to release; the resume commits PENDING and
enqueues; the second worker reads PENDING, is refused the lock and drops the task. -/
def lostResume : List Action :=
  [.enqueue 0] ++ deliver 7 ++ [.request 1 .pause, .flush 1, .commit 1, .run 0] ++
    [.request 1 .resume, .flush 1, .commit 1, .enqueue 1] ++
    [.take 1, .run 1, .run 1, .run 1, .run 0, .run 0]

theorem resume_lost_behind_lock :
    ∃ w, run (step oneStep) (World.initial []) lostResume = some w ∧ ¬ Kept w := by
  have hend : (run (step oneStep) (World.initial []) lostResume).any fun w =>
      w.row.committed.status = .pending ∧ w.tasks = 0 ∧
        (∀ r < 2, (w.requests r).phase ≠ .enqueue) ∧
        ∀ i < 2, (w.workers i).pc.mayProcess = false := by
    decide +kernel
  obtain ⟨w, hrun, hp, htasks, hrequests, hworkers⟩ := exists_of_any hend
  -- Parties 2, 3, … take no step of this run.
  have hactors : ∀ a ∈ lostResume, (actor a).all (· < 2) := by decide
  have hwriters : ∀ a ∈ lostResume,
      (writer a).all fun | .request r => r < 2 | .worker _ => true := by decide
  refine ⟨w, hrun, fun hkept => ?_⟩
  rcases hkept hp with h | ⟨r, hr⟩ | ⟨i, hi⟩
  · omega
  · by_cases hlt : r < 2
    · exact hrequests r hlt hr
    · rw [run_requests_other hrun fun a ha hwr => hlt (by simpa [hwr] using hwriters a ha)] at hr
      have hne : r ≠ 0 := by omega
      simp [World.initial, hne] at hr
  · by_cases hlt : i < 2
    · rw [hworkers i hlt] at hi
      cases hi
    · rw [run_workers_other hrun fun a ha hact => hlt (by simpa [hact] using hactors a ha)] at hi
      cases hi

theorem pending_kept_resumed :
    ∃ w, run (step oneStep) (World.initial []) (lostResume.take 19) = some w ∧ Kept w := by
  obtain ⟨w, hw⟩ := Option.isSome_iff_exists.mp
    (show (run (step oneStep) (World.initial []) (lostResume.take 19)).isSome by decide +kernel)
  exact ⟨w, hw, pending_kept oneStep [] _ w (by decide +kernel) hw⟩

end Sutram.Workflow
