/-
Announced statuses and committed ones.

`run` publishes the event of a status between the flush of the status and its
commit.  A ledger beside the service records, for the task each worker has taken
last, the statuses its events announce and the statuses its commits make durable.
-/
import Sutram.Library.Ghost
import Sutram.Workflow.Sessions

namespace Sutram.Workflow

open Sutram.Core Runs

/-! ## The ledger -/

/-- The status an event tells its readers. -/
def ExecutionEvent.announces : ExecutionEvent → Option ExecutionStatus
  | .started => some .running
  | .stepCompleted _ _ _ _ => none
  | .paused _ _ => some .paused
  | .completed status _ _ => some status

def Effect.announces : Effect → Option ExecutionStatus
  | .published _ e => e.announces
  | _ => none

def Pc.commits : Pc → Bool
  | .commitRunning _ | .commitCheckpoint _ | .commitCompleted | .commitPaused
  | .close .returned => true
  | _ => false

/-- The status of the version that the worker's next operation commits. -/
def committing (w : World) (i : Nat) : Option ExecutionStatus :=
  match w.row.uncommitted with
  | some (wr, r) => if wr = .worker i ∧ (w.workers i).pc.commits then some r.status else none
  | none => none

structure Ledger where
  announced : Nat → List ExecutionStatus := fun _ => []
  committed : Nat → List ExecutionStatus := fun _ => []

namespace Ledger

/-- A task opens a new account, and each of its operations is entered there. -/
def note (w : World) (a : Action) (w' : World) (l : Ledger) : Ledger :=
  match a with
  | .take i => ⟨Function.update l.announced i [], Function.update l.committed i []⟩
  | .run i =>
    let events := (w'.log.drop w.log.length).filterMap Effect.announces
    ⟨Function.update l.announced i (l.announced i ++ events),
      Function.update l.committed i (l.committed i ++ (committing w i).toList)⟩
  | _ => l

/-- Every status announced by a run is one that the run has committed. -/
def Durable (l : Ledger) : Prop := ∀ i, ∀ s ∈ l.announced i, s ∈ l.committed i

end Ledger

/-- The service with its ledger. -/
def ledgerStep (cfg : Config) : Ghosted World Ledger → Action → Option (Ghosted World Ledger) :=
  ghostStep (step cfg) Ledger.note

/-! ## What an operation announces -/

/-- The status announced by the worker's next operation. -/
def Pc.announces : Pc → Option ExecutionStatus
  | .publishStarted _ _ => some .running
  | .publishCompleted _ => some .completed
  | .publishPaused _ _ => some .paused
  | _ => none

def announcing (w : World) : Action → Option ExecutionStatus
  | .run i => (w.workers i).pc.announces
  | _ => none

theorem ran_announces {cfg : Config} {w w' : World} {i : Nat} (h : Ran cfg w i w') :
    (w'.log.drop w.log.length).filterMap Effect.announces =
      ((w.workers i).pc.announces).toList := by
  cases h with
  | publishStarted hpc | publishCompleted hpc | publishPaused hpc | publishStep hpc
  | refresh hpc | writeCheckpoint hpc =>
    simp [hpc, Pc.announces, Effect.announces, ExecutionEvent.announces]
  | _ hpc => simp [hpc, Pc.announces]

/-- An operation that publishes commits nothing. -/
theorem committing_of_announces {w : World} {i : Nat} {s : ExecutionStatus}
    (h : (w.workers i).pc.announces = some s) : committing w i = none := by
  have hcommits : (w.workers i).pc.commits = false := by
    cases hpc : (w.workers i).pc <;> rw [hpc] at h <;> first | rfl | cases h
  unfold committing
  split <;> simp [hcommits]

/-! ## The invariant -/

namespace Pc

/-- Before the commit of RUNNING. -/
def isOpening : Pc → Bool
  | .read | .acquire | .setup | .flushRunning _ | .publishStarted _ _ | .commitRunning _ => true
  | _ => false

/-- After it, and before the lock is released. -/
def isProcessing : Pc → Bool
  | .refresh _ | .writeCheckpoint _ | .commitCheckpoint _ | .execute _ | .publishStep _ _
  | .flushStep _ | .flushCompleted | .publishCompleted _ | .commitCompleted | .flushPaused _
  | .publishPaused _ _ | .commitPaused => true
  | _ => false

/-- After it, and before the commit that ends the run. -/
def isUnsettled : Pc → Bool
  | .commitCompleted | .commitPaused => false
  | pc => pc.isProcessing

/-- Between a refresh that found the execution neither paused nor cancelled and the
commit of the step's checkpoint. -/
def keepsGoing : Pc → Bool
  | .writeCheckpoint _ | .commitCheckpoint _ => true
  | _ => false

theorem inLock_of_isProcessing {pc : Pc} (h : pc.isProcessing) : pc.inLock := by
  cases pc <;> first | rfl | cases h

end Pc

/-- The run of worker `i` has not committed the status it is about to announce. -/
structure BehindAt (w : World) (l : Ledger) (i : Nat) : Prop where
  opening : (w.workers i).pc.isOpening → l.committed i = []
  unsettled : (w.workers i).pc.isUnsettled →
    .paused ∉ l.committed i ∧ .completed ∉ l.committed i
  going : (w.workers i).pc.keepsGoing → ∀ r, w.row.uncommitted = some (.worker i, r) →
    r.status ≠ .paused
  unfinished : (w.workers i).pc.isProcessing → w.row.committed.status ≠ .completed

structure Behind (s : Ghosted World Ledger) : Prop where
  sound : Sound s.state
  sessions : Sessions s.state
  behind : ∀ i, BehindAt s.state s.ghost i

/-- The run has not committed what its next operation announces. -/
theorem BehindAt.not_committed {w : World} {l : Ledger} {i : Nat} {s : ExecutionStatus}
    (hI : BehindAt w l i) (h : (w.workers i).pc.announces = some s) : s ∉ l.committed i := by
  have hopening := hI.opening
  have hunsettled := hI.unsettled
  cases hpc : (w.workers i).pc <;> rw [hpc] at h <;> cases h
  · rw [hopening (by rw [hpc]; rfl)]
    simp
  · exact (hunsettled (by rw [hpc]; rfl)).2
  · exact (hunsettled (by rw [hpc]; rfl)).1

/-! ## One step -/

theorem committing_of_not_commits {w : World} {i : Nat} (h : (w.workers i).pc.commits = false) :
    committing w i = none := by
  unfold committing
  split <;> simp [h]

/-- What a worker's operation enters under `committed`. -/
theorem note_committed (w w' : World) (l : Ledger) (i : Nat) :
    (l.note w (.run i) w').committed i = l.committed i ++ (committing w i).toList := by
  simp [Ledger.note]

theorem Pc.isProcessing_of_isUnsettled {pc : Pc} (h : pc.isUnsettled) : pc.isProcessing := by
  cases pc <;> first | rfl | cases h

/-- A move of the worker that commits nothing. -/
theorem BehindAt.move {w w' : World} {l l' : Ledger} {i : Nat} (hI : BehindAt w l i)
    (hl : l'.committed i = l.committed i)
    (hrow : w'.row.committed.status = w.row.committed.status)
    (hopening : (w'.workers i).pc.isOpening → (w.workers i).pc.isOpening)
    (hprocessing : (w'.workers i).pc.isProcessing → (w.workers i).pc.isUnsettled)
    (hgoing : (w'.workers i).pc.keepsGoing → ∀ r, w'.row.uncommitted = some (.worker i, r) →
      r.status ≠ .paused) : BehindAt w' l' i := by
  refine ⟨fun h => ?_, fun h => ?_, hgoing, fun h => ?_⟩
  · rw [hl]
    exact hI.opening (hopening h)
  · rw [hl]
    exact hI.unsettled (hprocessing (Pc.isProcessing_of_isUnsettled h))
  · rw [hrow]
    exact hI.unfinished (Pc.isProcessing_of_isUnsettled (hprocessing h))

/-- A move of the worker out of the run. -/
theorem BehindAt.leave {w : World} {l : Ledger} {i : Nat}
    (hopening : (w.workers i).pc.isOpening = false)
    (hprocessing : (w.workers i).pc.isProcessing = false)
    (hgoing : (w.workers i).pc.keepsGoing = false) : BehindAt w l i := by
  refine ⟨by simp [hopening], fun h => ?_, by simp [hgoing], by simp [hprocessing]⟩
  rw [Pc.isProcessing_of_isUnsettled h] at hprocessing
  cases hprocessing

theorem behindAt_ran {cfg : Config} {w w' : World} {l : Ledger} {i : Nat} (hsound : SoundAt w i)
    (hI : BehindAt w l i) (h : Ran cfg w i w') : BehindAt w' (l.note w (.run i) w') i := by
  have hquiet : (w.workers i).pc.commits = false →
      (l.note w (.run i) w').committed i = l.committed i := by
    intro hcommits
    rw [note_committed, committing_of_not_commits hcommits]
    simp
  have hown := hsound.own
  cases h with
  | readTerminal hpc | refused hpc | setupRaises hpc | doneRaises hpc | pausedRaises hpc
  | refreshStops hpc | release hpc | closeReturned hpc | closeRaised hpc | commitCompleted hpc
  | commitPaused hpc =>
    exact .leave (by simp [Pc.isOpening]) (by simp [Pc.isProcessing]) (by simp [Pc.keepsGoing])
  | read hpc | acquired hpc | setup hpc | costExceeded hpc | execute hpc =>
    refine hI.move (hquiet (by rw [hpc]; rfl)) rfl ?_ ?_ ?_ <;>
      simp [hpc, Pc.isOpening, Pc.isProcessing, Pc.isUnsettled, Pc.keepsGoing]
  | publishStarted hpc hnext | publishStep hpc hnext | publishCompleted hpc hnext
  | publishPaused hpc hnext =>
    rcases hnext with rfl | rfl <;>
      refine hI.move (hquiet (by rw [hpc]; rfl)) rfl ?_ ?_ ?_ <;>
      simp [hpc, Pc.isOpening, Pc.isProcessing, Pc.isUnsettled, Pc.keepsGoing]
  | flushRunning hpc hrow | flushCompleted hpc hrow | flushPaused hpc hrow =>
    refine hI.move (hquiet (by rw [hpc]; rfl)) ?_ ?_ ?_ ?_ <;>
      simp [hpc, (flushRow_eq_some hrow).1, Pc.isOpening, Pc.isProcessing, Pc.isUnsettled,
        Pc.keepsGoing]
  | @flushStep n hpc row hrow =>
    rcases next_cases cfg (n + 1) with hn | hn <;>
      refine hI.move (hquiet (by rw [hpc]; rfl)) ?_ ?_ ?_ ?_ <;>
      simp [hpc, hn, (flushRow_eq_some hrow).1, Pc.isOpening, Pc.isProcessing, Pc.isUnsettled,
        Pc.keepsGoing]
  | refresh hpc hs =>
    refine hI.move (hquiet (by rw [hpc]; rfl)) rfl ?_ ?_ fun _ r hr hp => hs (.inl ?_)
    · split <;> simp [*, Pc.isOpening]
    · simp [hpc, Pc.isUnsettled, Pc.isProcessing]
    · have hown' : w.row.uncommitted = some (.worker i, r) := hr
      rw [Versioned.view_own hown', hp]
  | writeCheckpoint hpc =>
    refine hI.move (hquiet (by rw [hpc]; rfl)) rfl ?_ ?_ fun _ => hI.going (by rw [hpc]; rfl) <;>
      simp [hpc, Pc.isOpening, Pc.isProcessing, Pc.isUnsettled]
  | @commitRunning start hpc =>
    obtain ⟨r, hr⟩ := hsound.started (by rw [hpc]; rfl)
    have hstatus : r.status = .running := by simpa [hpc, Pc.OwnStatus] using hown r hr
    have hentry : committing w i = some .running := by
      simp [committing, hr, hpc, Pc.commits, hstatus]
    have hopened : l.committed i = [] := hI.opening (by rw [hpc]; rfl)
    refine ⟨?_, ?_, ?_, ?_⟩
    · rcases next_cases cfg start with hn | hn <;> simp [hn, Pc.isOpening]
    · rw [note_committed, hentry, hopened]
      simp
    · rcases next_cases cfg start with hn | hn <;> simp [hn, Pc.keepsGoing]
    · simp [Versioned.commit_own hr, hstatus]
  | @commitCheckpoint n hpc =>
    have hopen := hI.unsettled (by rw [hpc]; rfl)
    have hunfinished := hI.unfinished (by rw [hpc]; rfl)
    rw [hpc] at hown
    -- The checkpoint's commit carries what the last step has flushed, status unchanged.
    have hentry : ∀ s, committing w i = some s → s ≠ .paused ∧ s ≠ .completed := by
      intro s hs
      unfold committing at hs
      split at hs
      · rename_i wr r hr
        split at hs
        · rename_i hwr
          obtain ⟨rfl, -⟩ := hwr
          cases hs
          refine ⟨hI.going (by rw [hpc]; rfl) r hr, ?_⟩
          have hsame : r.status = w.row.committed.status := hown r hr
          rwa [hsame]
        · cases hs
      · cases hs
    refine ⟨by simp [Pc.isOpening], fun _ => ?_, by simp [Pc.keepsGoing], fun _ => ?_⟩
    · rw [note_committed]
      cases hc : committing w i with
      | none => simpa using hopen
      | some s =>
        have hs := hentry s hc
        simp [hopen, hs.1.symm, hs.2.symm]
    · rcases commit_status (i := i) (s := w.row.committed.status)
        fun r hr => .inl (hown r hr) with hs | hs <;> simpa [hs] using hunfinished

/-- Raising, dying and taking a task enter nothing. -/
theorem behindAt_moved {cfg : Config} {w w' : World} {a : Action} {l : Ledger} {i : Nat}
    (hsound : SoundAt w i) (hI : BehindAt w l i) (h : Moved cfg w a w') (hi : actor a = some i) :
    BehindAt w' (l.note w a w') i := by
  cases h with
  | @run j _ h =>
    obtain rfl : j = i := by simpa [actor] using hi
    exact behindAt_ran hsound hI h
  | @take j =>
    obtain rfl : j = i := by simpa [actor] using hi
    refine ⟨fun _ => by simp [Ledger.note], ?_, ?_, ?_⟩ <;>
      simp [Pc.isUnsettled, Pc.isProcessing, Pc.keepsGoing]
  | @failClose j | @crash j =>
    obtain rfl : j = i := by simpa [actor] using hi
    exact .leave (by simp [Pc.isOpening]) (by simp [Pc.isProcessing]) (by simp [Pc.keepsGoing])
  | @failDatabase j message hdb | @fail j message =>
    obtain rfl : j = i := by simpa [actor] using hi
    refine hI.move rfl (by simp) ?_ ?_ ?_ <;>
      cases hpc : (w.workers j).pc <;>
      simp [Pc.onFail, Pc.isOpening, Pc.isProcessing, Pc.isUnsettled, Pc.keepsGoing]
  | bystander hnone _ =>
    rw [writer_of_actor hi] at hnone
    cases hnone
  | _ => cases hi

theorem note_other {w w' : World} {a : Action} {i : Nat} (l : Ledger) (hi : actor a ≠ some i) :
    (l.note w a w').announced i = l.announced i ∧
      (l.note w a w').committed i = l.committed i := by
  cases a with
  | take j | run j =>
    have hne : i ≠ j := fun heq => hi (by rw [heq]; rfl)
    simp [Ledger.note, hne]
  | _ => exact ⟨rfl, rfl⟩

/-- What worker `i` keeps while another party moves. -/
theorem behindAt_other {cfg : Config} {w w' : World} {a : Action} {l : Ledger} {i : Nat}
    (hsound : Sound w) (hsessions : Sessions w) (hI : BehindAt w l i) (h : Moved cfg w a w')
    (hi : actor a ≠ some i) : BehindAt w' (l.note w a w') i := by
  have hframe := moved_frame h hi
  obtain ⟨wr, hwr, hmoves⟩ := hframe.row
  have hcommitted : (l.note w a w').committed i = l.committed i := (note_other l hi).2
  refine ⟨?_, ?_, ?_, ?_⟩
  · rw [hframe.worker, hcommitted]
    exact hI.opening
  · rw [hframe.worker, hcommitted]
    exact hI.unsettled
  · rw [hframe.worker]
    exact fun hg r hr => hI.going hg r ((hmoves.uncommitted_of_ne hwr.symm).mp hr)
  · rw [hframe.worker]
    exact fun hp => status_ne_completed hsound hsessions h hi (Pc.inLock_of_isProcessing hp)
      (hI.unfinished hp)

theorem behind_step {cfg : Config} {s s' : Ghosted World Ledger} {a : Action} (hI : Behind s)
    (h : ledgerStep cfg s a = some s') : Behind s' := by
  obtain ⟨hstep, hghost⟩ := ghostStep_eq_some h
  have hmoved := step_moved hstep
  refine ⟨sound_step hI.sound hstep, sessionAt_step hI.sessions hmoved, fun i => ?_⟩
  rw [hghost]
  by_cases hi : actor a = some i
  · exact behindAt_moved (hI.sound i) (hI.behind i) hmoved hi
  · exact behindAt_other hI.sound hI.sessions (hI.behind i) hmoved hi

def ledgerInitial (inputs : List (String × Json)) : Ghosted World Ledger :=
  ⟨World.initial inputs, {}⟩

theorem behind_initial (inputs : List (String × Json)) : Behind (ledgerInitial inputs) := by
  refine ⟨sound_initial inputs, sessions_initial inputs, fun i => ?_⟩
  exact .leave rfl rfl rfl

/-! ## Announcements are ahead of their commits -/

/-- A publish of a status makes the ledger promise more than the run has committed. -/
theorem not_durable_of_announcing {cfg : Config} {s s' : Ghosted World Ledger} {a : Action}
    {st : ExecutionStatus} (hI : Behind s) (h : ledgerStep cfg s a = some s')
    (ha : announcing s.state a = some st) : ¬ s'.ghost.Durable := by
  obtain ⟨hstep, hghost⟩ := ghostStep_eq_some h
  cases a with
  | run i =>
    have hpc : (s.state.workers i).pc.announces = some st := ha
    intro hdurable
    have hnew : st ∈ s'.ghost.announced i := by
      simp [hghost, Ledger.note, ran_announces (runWorker_ran hstep), hpc]
    have hold : s'.ghost.committed i = s.ghost.committed i := by
      rw [hghost, note_committed, committing_of_announces hpc]
      simp
    have hmem := hdurable i st hnew
    rw [hold] at hmem
    exact (hI.behind i).not_committed hpc hmem
  | _ => cases ha

/-- Without such a publish the run promises nothing new. -/
theorem announced_of_not_announcing {cfg : Config} {s s' : Ghosted World Ledger} {a : Action}
    (hempty : ∀ i, s.ghost.announced i = []) (h : ledgerStep cfg s a = some s')
    (ha : announcing s.state a = none) : ∀ i, s'.ghost.announced i = [] := by
  obtain ⟨hstep, hghost⟩ := ghostStep_eq_some h
  intro i
  by_cases hi : actor a = some i
  · cases a with
    | run j =>
      obtain rfl : j = i := by simpa [actor] using hi
      have hpc : (s.state.workers j).pc.announces = none := ha
      simp [hghost, Ledger.note, ran_announces (runWorker_ran hstep), hpc, hempty]
    | take j =>
      obtain rfl : j = i := by simpa [actor] using hi
      simp [hghost, Ledger.note]
    | _ => simp [hghost, Ledger.note, hempty]
  · rw [hghost, (note_other s.ghost hi).1, hempty i]

/-- Along a run every announced status is a committed one exactly when the run
publishes none of the three events: each of them is published before the commit. -/
theorem announced_durable_iff (cfg : Config) (inputs : List (String × Json))
    (as : List Action) :
    Along (ledgerStep cfg) (fun _ _ s => s.ghost.Durable) (ledgerInitial inputs) as ↔
      Along (step cfg) (fun w a _ => announcing w a = none) (World.initial inputs) as := by
  have hguard : Along (ledgerStep cfg) (fun s a _ => announcing s.state a = none)
      (ledgerInitial inputs) as ↔
      Along (step cfg) (fun w a _ => announcing w a = none) (World.initial inputs) as :=
    along_ghost_iff (R := fun w a _ => announcing w a = none)
  rw [← hguard]
  constructor
  · refine along_imp (I := Behind) (fun _ _ _ hI h _ => behind_step hI h) ?_
      (behind_initial inputs)
    intro s a s' hI h hdurable
    by_contra hne
    obtain ⟨st, hst⟩ := Option.ne_none_iff_exists'.mp hne
    exact not_durable_of_announcing hI h hst hdurable
  · refine along_imp (I := fun s => ∀ i, s.ghost.announced i = [])
      (fun _ _ _ hI h ha => announced_of_not_announcing hI h ha) ?_ fun _ => rfl
    intro s a s' hI h ha i st hst
    rw [announced_of_not_announcing hI h ha i] at hst
    cases hst

/-! ## A commit that fails after the event -/

/-- The last commit raises: readers of both streams have seen the execution complete,
and the row stays in RUNNING. -/
def failedCommit : List Action :=
  .enqueue 0 :: deliver 15 ++ [.fail 0 "connection lost", .run 0, .run 0]

theorem completed_announced_not_committed :
    ∃ s, run (ledgerStep oneStep) (ledgerInitial []) failedCommit = some s ∧
      .completed ∈ s.ghost.announced 0 ∧ .completed ∉ s.ghost.committed 0 ∧
      s.state.row.committed.status = .running ∧ ¬ s.ghost.Durable := by
  have hend : (run (ledgerStep oneStep) (ledgerInitial []) failedCommit).any fun s =>
      .completed ∈ s.ghost.announced 0 ∧ .completed ∉ s.ghost.committed 0 ∧
        s.state.row.committed.status = .running := by
    decide +kernel
  obtain ⟨s, hrun, hannounced, hcommitted, hstatus⟩ := exists_of_any hend
  exact ⟨s, hrun, hannounced, hcommitted, hstatus, fun h => hcommitted (h 0 _ hannounced)⟩

end Sutram.Workflow
