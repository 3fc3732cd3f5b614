/-
Stops of the execution and the events that announce them.

The SSE route closes on an event of a terminal type.  A worker publishes one before
each commit that pauses or completes the execution; the pause and cancel routes
publish nothing.  Beside the service stands the list of the committed changes to a
status in which the execution has stopped.
-/
import Sutram.Library.Ghost
import Sutram.Workflow.Sessions

namespace Sutram.Workflow

open Sutram.Core Runs

/-! ## Stops and their events -/

/-- The statuses in which nothing runs the execution and none will by itself. -/
def isStop : ExecutionStatus → Bool
  | .paused | .completed | .failed | .cancelled => true
  | .pending | .running => false

/-- The stop a terminal-type event announces. -/
def ExecutionEvent.stop : ExecutionEvent → Option ExecutionStatus
  | .paused _ _ => some .paused
  | .completed status _ _ => some status
  | .started | .stepCompleted _ _ _ _ => none

def Effect.stopOn (s : Stream) : Effect → Option ExecutionStatus
  | .published s' e => if s' = s then e.stop else none
  | _ => none

/-- The terminal-type events of a stream. -/
def terminals (s : Stream) (log : List Effect) : List ExecutionStatus :=
  log.filterMap (Effect.stopOn s)

@[simp] theorem terminals_append (s : Stream) (l l' : List Effect) :
    terminals s (l ++ l') = terminals s l ++ terminals s l' :=
  List.filterMap_append

/-- The stop a transition commits. -/
def stopping (w w' : World) : Option ExecutionStatus :=
  if w'.row.committed.status ≠ w.row.committed.status ∧ isStop w'.row.committed.status then
    some w'.row.committed.status
  else none

/-- The committed stops, in order. -/
def noteStop (w : World) (_ : Action) (w' : World) (stops : List ExecutionStatus) :
    List ExecutionStatus :=
  stops ++ (stopping w w').toList

def stopStep (cfg : Config) :
    Ghosted World (List ExecutionStatus) → Action → Option (Ghosted World (List ExecutionStatus)) :=
  ghostStep (step cfg) noteStop

namespace Pc

/-- The stop the worker has flushed and not yet committed. -/
def flushedStop : Pc → Option ExecutionStatus
  | .publishCompleted _ | .commitCompleted => some .completed
  | .publishPaused _ _ | .commitPaused => some .paused
  | _ => none

/-- The stop the worker has published on the stream and not yet committed. -/
def ahead (s : Stream) : Pc → Option ExecutionStatus
  | .publishCompleted .sse => if s = .global then some .completed else none
  | .publishPaused _ .sse => if s = .global then some .paused else none
  | .commitCompleted => some .completed
  | .commitPaused => some .paused
  | _ => none

end Pc

/-- No worker is between the flush of a stop and its commit. -/
def Quiet (w : World) : Prop := ∀ i, (w.workers i).pc.flushedStop = none

/-- The terminal-type events of both streams are the committed stops, one for one and
in order, whenever no worker is in the middle of announcing one. -/
def Announced (s : Ghosted World (List ExecutionStatus)) : Prop :=
  Quiet s.state → ∀ stream, terminals stream s.state.log = s.ghost

/-! ## The runs -/

/-- Deliveries, operations and requests that go through, and time. -/
def Action.goesThrough : Action → Bool
  | .take _ | .run _ | .request _ _ | .flush _ | .commit _ | .enqueue _ | .tick => true
  | _ => false

/-- The action is no commit of a pause or of a cancel. -/
def CommitsNoStop (w : World) : Action → Prop
  | .commit r => (w.requests r).phase ≠ .commit .pause ∧ (w.requests r).phase ≠ .commit .cancel
  | _ => True

instance decidableCommitsNoStop (w : World) : ∀ a, Decidable (CommitsNoStop w a)
  | .commit _ => inferInstanceAs (Decidable (_ ∧ _))
  | .take _ | .run _ | .fail _ _ | .crash _ | .request _ _ | .flush _ | .enqueue _
  | .enqueueFails _ | .abort _ | .scan _ | .pod _ | .podCrash _ | .redeliver | .expire
  | .tick => isTrue trivial

/-! ## The invariant -/

/-- A status in which a worker may be running the execution. -/
def isLive : ExecutionStatus → Bool
  | .pending | .running => true
  | _ => false

theorem isStop_eq (s : ExecutionStatus) : isStop s = !isLive s := by
  cases s <;> rfl

namespace Pc

/-- After the flush of RUNNING and before the flush of a stop. -/
def beforeStop : Pc → Bool
  | .publishStarted _ _ | .commitRunning _ | .refresh _ | .writeCheckpoint _
  | .commitCheckpoint _ | .execute _ | .publishStep _ _ | .flushStep _ | .flushCompleted
  | .flushPaused _ => true
  | _ => false

/-- After the commit of RUNNING and before the commit of a stop. -/
def hasBegun : Pc → Bool
  | .publishStarted _ _ | .commitRunning _ => false
  | .publishCompleted _ | .commitCompleted | .publishPaused _ _ | .commitPaused => true
  | pc => pc.beforeStop

theorem inLock_of_hasBegun {pc : Pc} (h : pc.hasBegun) : pc.inLock := by
  cases pc <;> first | rfl | cases h

end Pc

/-- A worker inside the loop finds the execution live, and its stop is a change. -/
structure RunningAt (w : World) (i : Nat) : Prop where
  live : (w.workers i).pc.hasBegun → isLive w.row.committed.status
  loaded : (w.workers i).pc.beforeStop → isLive (w.workers i).execution.loaded.status
  own : ∀ s, (w.workers i).pc.flushedStop = some s →
    ∃ r, w.row.uncommitted = some (.worker i, r) ∧ r.status = s

/-- The published stop of the worker that holds the lock. -/
def World.ahead (w : World) (s : Stream) : Option ExecutionStatus :=
  match w.lock with
  | some (.worker i) => (w.workers i).pc.ahead s
  | _ => none

structure Told (s : Ghosted World (List ExecutionStatus)) : Prop where
  sound : Sound s.state
  sessions : Sessions s.state
  running : ∀ i, RunningAt s.state i
  streams : ∀ stream, terminals stream s.state.log = s.ghost ++ (s.state.ahead stream).toList

theorem Pc.ahead_of_quiet {pc : Pc} (h : pc.flushedStop = none) (s : Stream) :
    pc.ahead s = none := by
  cases pc <;> first | rfl | cases h

theorem Told.announced {s : Ghosted World (List ExecutionStatus)} (hI : Told s) :
    Announced s := by
  intro hquiet stream
  have hnone : s.state.ahead stream = none := by
    unfold World.ahead
    split
    · exact Pc.ahead_of_quiet (hquiet _) stream
    · rfl
  rw [hI.streams, hnone]
  simp

/-! ## The worker's operations -/

/-- A transition that leaves the committed row alone commits no stop. -/
theorem stopping_of_eq {w w' : World} (h : w'.row.committed.status = w.row.committed.status) :
    stopping w w' = none := by
  simp [stopping, h]

theorem stopping_of_live {w w' : World} (h : isLive w'.row.committed.status) :
    stopping w w' = none := by
  simp [stopping, isStop_eq, h]

/-- The commit of a stop by a worker that has flushed it. -/
theorem stopping_of_commit {w w' : World} {i : Nat} {s : ExecutionStatus} {r : ExecutionRow}
    (hrow : w'.row = w.row.commit (.worker i)) (hr : w.row.uncommitted = some (.worker i, r))
    (hs : r.status = s) (hstop : isStop s) (hlive : isLive w.row.committed.status) :
    stopping w w' = some s := by
  have hcommitted : w'.row.committed.status = s := by
    rw [hrow, Versioned.commit_own hr, Versioned.settled_committed, hs]
  have hne : s ≠ w.row.committed.status := by
    rintro rfl
    rw [isStop_eq, hlive] at hstop
    cases hstop
  simp [stopping, hcommitted, hne, hstop]

/-- The two publishes of a stop, in the order of `_publish`. -/
theorem publish_stop {cfg : Config} {w w' : World} {i : Nat}
    (hpc : (∃ s, (w.workers i).pc = .publishCompleted s) ∨
      ∃ why s, (w.workers i).pc = .publishPaused why s)
    (h : runWorker cfg w i = some w') (stream : Stream) :
    w'.row = w.row ∧ ((w.workers i).pc.ahead stream).toList ++
      terminals stream (w'.log.drop w.log.length) = ((w'.workers i).pc.ahead stream).toList := by
  rcases hpc with ⟨s, hpc⟩ | ⟨why, s, hpc⟩ <;> simp only [runWorker, hpc] at h <;> cases h <;>
    cases s <;> cases stream <;>
    simp [hpc, Pc.ahead, terminals, Effect.stopOn, ExecutionEvent.stop]

/-- What a worker publishes and what it commits balance. -/
theorem ran_balance {cfg : Config} {w w' : World} {i : Nat} (hsound : SoundAt w i)
    (hI : RunningAt w i) (h : runWorker cfg w i = some w') (stream : Stream) :
    ((w.workers i).pc.ahead stream).toList ++ terminals stream (w'.log.drop w.log.length) =
      (stopping w w').toList ++ ((w'.workers i).pc.ahead stream).toList := by
  have hown := hsound.own
  cases runWorker_ran h with
  | publishCompleted hpc hnext =>
    obtain ⟨hrow, hbalance⟩ := publish_stop (.inl ⟨_, hpc⟩) h stream
    rw [hbalance, stopping_of_eq (by rw [hrow])]
    simp
  | publishPaused hpc hnext =>
    obtain ⟨hrow, hbalance⟩ := publish_stop (.inr ⟨_, _, hpc⟩) h stream
    rw [hbalance, stopping_of_eq (by rw [hrow])]
    simp
  | commitCompleted hpc =>
    obtain ⟨r, hr, hs⟩ := hI.own .completed (by rw [hpc]; rfl)
    rw [stopping_of_commit rfl hr hs rfl (hI.live (by rw [hpc]; rfl))]
    simp [hpc, Pc.ahead, terminals]
  | commitPaused hpc =>
    obtain ⟨r, hr, hs⟩ := hI.own .paused (by rw [hpc]; rfl)
    rw [stopping_of_commit rfl hr hs rfl (hI.live (by rw [hpc]; rfl))]
    simp [hpc, Pc.ahead, terminals]
  | @commitRunning start hpc =>
    obtain ⟨r, hr⟩ := hsound.started (by rw [hpc]; rfl)
    have hstatus : r.status = .running := by simpa [hpc, Pc.OwnStatus] using hown r hr
    rw [stopping_of_live (by simp [Versioned.commit_own hr, hstatus, isLive])]
    rcases next_cases cfg start with hn | hn <;> simp [hpc, hn, Pc.ahead, terminals]
  | commitCheckpoint hpc | closeReturned hpc =>
    rw [hpc] at hown
    have hsame : (w.row.commit (.worker i)).committed.status = w.row.committed.status :=
      (commit_status fun r hr => .inl (hown r hr)).elim id id
    rw [stopping_of_eq (by simpa using hsame)]
    simp [hpc, Pc.ahead, terminals]
  | publishStarted hpc hnext | publishStep hpc hnext =>
    rw [stopping_of_eq (by rfl)]
    rcases hnext with rfl | rfl <;>
      simp [hpc, Pc.ahead, terminals, Effect.stopOn, ExecutionEvent.stop]
  | refresh hpc =>
    rw [stopping_of_eq (by rfl)]
    split <;> simp [hpc, Pc.ahead, terminals, Effect.stopOn]
  | writeCheckpoint hpc =>
    rw [stopping_of_eq (by rfl)]
    simp [hpc, Pc.ahead, terminals, Effect.stopOn]
  | flushRunning hpc hrow | flushCompleted hpc hrow | flushPaused hpc hrow =>
    rw [stopping_of_eq (by simp [(flushRow_eq_some hrow).1])]
    cases stream <;> simp [hpc, Pc.ahead, terminals]
  | @flushStep n hpc row hrow =>
    rw [stopping_of_eq (by simp [(flushRow_eq_some hrow).1])]
    rcases next_cases cfg (n + 1) with hn | hn <;> simp [hpc, hn, Pc.ahead, terminals]
  | closeRaised hpc =>
    rw [stopping_of_eq (by simp)]
    simp [hpc, Pc.ahead, terminals]
  | _ hpc =>
    rw [stopping_of_eq (by rfl)]
    simp [hpc, Pc.ahead, terminals]

/-- A move that leaves the row, the worker's object and its flushed stop as they are. -/
theorem RunningAt.move {w w' : World} {i : Nat} (hI : RunningAt w i) (hrow : w'.row = w.row)
    (hloaded : (w'.workers i).execution.loaded = (w.workers i).execution.loaded)
    (hbegun : (w'.workers i).pc.hasBegun → (w.workers i).pc.hasBegun)
    (hbefore : (w'.workers i).pc.beforeStop → (w.workers i).pc.beforeStop)
    (hstop : ∀ s, (w'.workers i).pc.flushedStop = some s →
      (w.workers i).pc.flushedStop = some s) : RunningAt w' i := by
  refine ⟨fun h => ?_, fun h => ?_, fun s hs => ?_⟩
  · rw [hrow]
    exact hI.live (hbegun h)
  · rw [hloaded]
    exact hI.loaded (hbefore h)
  · rw [hrow]
    exact hI.own s (hstop s hs)

/-- The flush of a stop is the flush of a change. -/
theorem RunningAt.flush_stop {w w' : World} {i : Nat} {o : Orm} {s : ExecutionStatus}
    {row : Versioned Writer ExecutionRow} (hI : RunningAt w i)
    (hbefore : (w.workers i).pc.beforeStop) (hbegun : (w.workers i).pc.hasBegun)
    (ho : o.loaded = (w.workers i).execution.loaded) (hs : o.current.status = s)
    (hstop : isStop s) (hrow : flushRow w.row (.worker i) o = some row) (hrow' : w'.row = row)
    (hafter : (w'.workers i).pc.beforeStop = false)
    (hpc : (w'.workers i).pc.flushedStop = some s) : RunningAt w' i := by
  have hlive := hI.loaded hbefore
  have hdirty : o.current.status ≠ o.loaded.status := by
    rw [hs, ho]
    intro heq
    rw [heq, isStop_eq, hlive] at hstop
    cases hstop
  obtain ⟨hc, r, hr, hstatus⟩ := flushRow_dirty hdirty hrow
  refine ⟨fun _ => ?_, by simp [hafter], fun s' hs' => ⟨r, by rw [hrow', hr], ?_⟩⟩
  · rw [hrow', hc]
    exact hI.live hbegun
  · rw [hpc] at hs'
    cases hs'
    rw [hstatus, hs]

theorem runningAt_ran {cfg : Config} {w w' : World} {i : Nat} (hsound : SoundAt w i)
    (hI : RunningAt w i) (h : Ran cfg w i w') : RunningAt w' i := by
  have hown := hsound.own
  have hlive := hI.live
  have hloaded := hI.loaded
  cases h with
  | flushCompleted hpc hrow =>
    exact hI.flush_stop (by rw [hpc]; rfl) (by rw [hpc]; rfl) (updateStatus_loaded ..)
      (updateStatus_status ..) rfl hrow rfl (by simp; rfl) (by simp; rfl)
  | flushPaused hpc hrow =>
    refine hI.flush_stop (by rw [hpc]; rfl) (by rw [hpc]; rfl) ?_ (stop_updateStatus_status ..)
      rfl hrow rfl (by simp; rfl) (by simp; rfl)
    cases ‹Stop› <;> rfl
  | flushRunning hpc hrow =>
    refine ⟨by simp [Pc.hasBegun], fun _ => by simp [isLive], by simp [Pc.flushedStop]⟩
  | @commitRunning start hpc =>
    obtain ⟨r, hr⟩ := hsound.started (by rw [hpc]; rfl)
    have hstatus : r.status = .running := by simpa [hpc, Pc.OwnStatus] using hown r hr
    refine ⟨fun _ => by simp [Versioned.commit_own hr, hstatus, isLive], fun _ => ?_, ?_⟩
    · simpa using hloaded (by rw [hpc]; rfl)
    · rcases next_cases cfg start with hn | hn <;> simp [hn, Pc.flushedStop]
  | @flushStep n hpc row hrow =>
    refine ⟨fun _ => ?_, fun _ => ?_, ?_⟩
    · simpa [(flushRow_eq_some hrow).1] using hlive (by rw [hpc]; rfl)
    · simpa [hsound.clean] using hloaded (by rw [hpc]; rfl)
    · rcases next_cases cfg (n + 1) with hn | hn <;> simp [hn, Pc.flushedStop]
  | refresh hpc =>
    rw [hpc] at hown
    refine ⟨fun _ => hlive (by rw [hpc]; rfl), fun _ => ?_, ?_⟩
    · simpa [SoundAt.view_status hown] using hlive (by rw [hpc]; rfl)
    · split <;> simp [*, Pc.flushedStop]
  | commitCheckpoint hpc =>
    rw [hpc] at hown
    have hsame : (w.row.commit (.worker i)).committed.status = w.row.committed.status :=
      (commit_status fun r hr => .inl (hown r hr)).elim id id
    refine ⟨fun _ => ?_, fun _ => ?_, by simp [Pc.flushedStop]⟩
    · simpa [hsame] using hlive (by rw [hpc]; rfl)
    · simpa using hloaded (by rw [hpc]; rfl)
  | publishStarted hpc hnext | publishStep hpc hnext | publishCompleted hpc hnext
  | publishPaused hpc hnext =>
    rcases hnext with rfl | rfl <;> refine hI.move rfl (by simp) ?_ ?_ ?_ <;>
      simp [hpc, Pc.hasBegun, Pc.beforeStop, Pc.flushedStop]
  | costExceeded hpc | execute hpc | writeCheckpoint hpc =>
    refine hI.move rfl (by simp) ?_ ?_ ?_ <;>
      simp [hpc, Pc.hasBegun, Pc.beforeStop, Pc.flushedStop]
  | _ =>
    refine ⟨?_, ?_, ?_⟩ <;> simp [Pc.hasBegun, Pc.beforeStop, Pc.flushedStop]

/-! ## One step -/

/-- What worker `i` keeps while another party moves. -/
theorem runningAt_other {cfg : Config} {w w' : World} {a : Action} {i : Nat} (hsound : Sound w)
    (hsessions : Sessions w) (hI : RunningAt w i) (hG : CommitsNoStop w a)
    (h : Moved cfg w a w') (hi : actor a ≠ some i) : RunningAt w' i := by
  have hframe := moved_frame h hi
  obtain ⟨wr, hwr, hmoves⟩ := hframe.row
  refine ⟨?_, ?_, ?_⟩
  · rw [hframe.worker]
    intro hbegun
    by_cases hne : w'.row.committed.status = w.row.committed.status
    · rw [hne]
      exact hI.live hbegun
    · obtain ⟨r, kind, rfl, hphase, htarget⟩ := status_change_other hsound hsessions h hi
        (Pc.inLock_of_hasBegun hbegun) hne
      rw [htarget]
      cases kind with
      | resume => rfl
      | pause => exact absurd hphase hG.1
      | cancel => exact absurd hphase hG.2
  · rw [hframe.worker]
    exact hI.loaded
  · rw [hframe.worker]
    intro s hs
    obtain ⟨r, hr, hstatus⟩ := hI.own s hs
    exact ⟨r, (hmoves.uncommitted_of_ne hwr.symm).mpr hr, hstatus⟩

theorem Pc.ahead_of_not_inLock {pc : Pc} (h : pc.inLock = false) (s : Stream) :
    pc.ahead s = none := by
  cases pc <;> first | rfl | cases h

/-- Only the holder of the lock has a stop published ahead of its commit. -/
theorem ahead_eq_some {w : World} (hsound : Sound w) (s : Stream) (x : ExecutionStatus) :
    w.ahead s = some x ↔ ∃ i, (w.workers i).pc.ahead s = some x := by
  constructor
  · intro h
    unfold World.ahead at h
    split at h
    · exact ⟨_, h⟩
    · cases h
  · rintro ⟨i, hi⟩
    have hin : (w.workers i).pc.inLock := by
      by_contra hout
      rw [Pc.ahead_of_not_inLock (Bool.eq_false_iff.mpr hout)] at hi
      cases hi
    simp [World.ahead, (hsound i).mutex hin, hi]

theorem ahead_congr {w w' : World} (hsound : Sound w) (hsound' : Sound w') {s : Stream}
    (h : ∀ i, (w'.workers i).pc.ahead s = (w.workers i).pc.ahead s) :
    w'.ahead s = w.ahead s := by
  ext x
  rw [ahead_eq_some hsound', ahead_eq_some hsound]
  simp [h]

/-- Where a worker is inside the lock, what is ahead is its own. -/
theorem ahead_of_inLock {w : World} (hsound : Sound w) {i : Nat}
    (hothers : ∀ j, j ≠ i → (w.workers j).pc.inLock = false) (s : Stream) :
    w.ahead s = (w.workers i).pc.ahead s := by
  ext x
  rw [ahead_eq_some hsound]
  constructor
  · rintro ⟨j, hj⟩
    by_cases hji : j = i
    · rwa [← hji]
    · rw [Pc.ahead_of_not_inLock (hothers j hji)] at hj
      cases hj
  · exact fun h => ⟨i, h⟩

/-- A worker outside the lock publishes nothing and has nothing ahead. -/
theorem ran_outside {cfg : Config} {w w' : World} {i : Nat} (h : Ran cfg w i w')
    (hout : (w.workers i).pc.inLock = false) (s : Stream) :
    w'.log = w.log ∧ (w'.workers i).pc.ahead s = (w.workers i).pc.ahead s := by
  rw [Pc.ahead_of_not_inLock hout]
  cases h with
  | readTerminal | read | refused | acquired | closeReturned | closeRaised =>
    exact ⟨rfl, by simp [Pc.ahead]⟩
  | _ hpc =>
    rw [hpc] at hout
    cases hout

theorem streams_run {cfg : Config} {s : Ghosted World (List ExecutionStatus)} {w' : World}
    {i : Nat} (hI : Told s) (hsound' : Sound w') (h : runWorker cfg s.state i = some w')
    (stream : Stream) :
    terminals stream w'.log =
      noteStop s.state (.run i) w' s.ghost ++ (w'.ahead stream).toList := by
  have hran := runWorker_ran h
  have hbalance := ran_balance (hI.sound i) (hI.running i) h stream
  obtain ⟨l, hl⟩ := ran_log hran
  have hstreams := hI.streams stream
  rw [hl, List.drop_left] at hbalance
  rw [hl, terminals_append, hstreams, noteStop]
  cases hin : (s.state.workers i).pc.inLock with
  | true =>
    have hothers : ∀ j, j ≠ i → (s.state.workers j).pc.inLock = false := by
      intro j hj
      by_contra hjin
      have hlock := (hI.sound j).mutex (by simpa using hjin)
      rw [(hI.sound i).mutex hin] at hlock
      exact hj (by simpa using hlock.symm)
    have hothers' : ∀ j, j ≠ i → (w'.workers j).pc.inLock = false := by
      intro j hj
      rw [ran_workers_other hran hj]
      exact hothers j hj
    rw [ahead_of_inLock hI.sound hothers, ahead_of_inLock hsound' hothers']
    simp only [List.append_assoc, hbalance]
  | false =>
    obtain ⟨hlog, hahead⟩ := ran_outside hran hin stream
    have hempty : l = [] := by simpa [hl] using hlog
    rw [hempty, hahead, Pc.ahead_of_not_inLock hin] at hbalance
    have hstop : stopping s.state w' = none := by
      cases hs : stopping s.state w' with
      | none => rfl
      | some x => simp [hs, terminals] at hbalance
    rw [ahead_congr hI.sound hsound' fun j => ?_, hempty, hstop]
    · simp [terminals]
    · by_cases hj : j = i
      · subst hj
        exact hahead
      · rw [ran_workers_other hran hj]

/-- The other actions of a failure-free run change no stream and commit no stop. -/
theorem moved_silent {cfg : Config} {w w' : World} {a : Action} (hsessions : Sessions w)
    (hgoes : a.goesThrough) (hG : CommitsNoStop w a) (h : Moved cfg w a w')
    (hrun : ∀ i, a ≠ .run i) (stream : Stream) :
    w'.log = w.log ∧ stopping w w' = none ∧
      ∀ i, (w'.workers i).pc.ahead stream = (w.workers i).pc.ahead stream := by
  cases h with
  | @run i => exact absurd rfl (hrun i)
  | @take i hpc =>
    refine ⟨rfl, stopping_of_eq (by rfl), fun j => ?_⟩
    by_cases hj : j = i
    · subst hj
      simp [hpc, Pc.ahead]
    · simp [hj]
  | failClose | failDatabase | fail | crash | enqueueFails | abort => cases hgoes
  | @commitResume r hphase | @commit r kind hphase =>
    refine ⟨rfl, ?_, fun j => rfl⟩
    by_cases hne : (w.row.commit (.request r)).committed.status = w.row.committed.status
    · exact stopping_of_eq (by simpa using hne)
    · obtain ⟨kind', hphase', htarget⟩ := (hsessions r).commit hne
      cases kind' with
      | resume => exact stopping_of_live (by simp [htarget, RequestKind.target, isLive])
      | pause => exact absurd hphase' hG.1
      | cancel => exact absurd hphase' hG.2
  | flush hphase hrow =>
    exact ⟨rfl, stopping_of_eq (by simp [(flushRow_eq_some hrow).1]), fun j => rfl⟩
  | bystander _ h =>
    exact ⟨h.log, stopping_of_eq (by rw [h.row]), fun j => by rw [h.workers]⟩
  | _ => exact ⟨rfl, stopping_of_eq (by rfl), fun j => rfl⟩

theorem runningAt_moved {cfg : Config} {w w' : World} {a : Action} {i : Nat}
    (hsound : SoundAt w i) (hI : RunningAt w i) (hgoes : a.goesThrough) (h : Moved cfg w a w')
    (hi : actor a = some i) : RunningAt w' i := by
  cases h with
  | @run j _ h =>
    obtain rfl : j = i := by simpa [actor] using hi
    exact runningAt_ran hsound hI h
  | @take j =>
    obtain rfl : j = i := by simpa [actor] using hi
    refine ⟨?_, ?_, ?_⟩ <;> simp [Pc.hasBegun, Pc.beforeStop, Pc.flushedStop]
  | failClose | failDatabase | fail | crash => cases hgoes
  | bystander hnone _ =>
    rw [writer_of_actor hi] at hnone
    cases hnone
  | _ => cases hi

theorem told_step {cfg : Config} {s s' : Ghosted World (List ExecutionStatus)} {a : Action}
    (hI : Told s) (hgoes : a.goesThrough) (hG : CommitsNoStop s.state a)
    (h : stopStep cfg s a = some s') : Told s' := by
  obtain ⟨hstep, hghost⟩ := ghostStep_eq_some h
  have hmoved := step_moved hstep
  have hsound' := sound_step hI.sound hstep
  refine ⟨hsound', sessionAt_step hI.sessions hmoved, fun i => ?_, fun stream => ?_⟩
  · by_cases hi : actor a = some i
    · exact runningAt_moved (hI.sound i) (hI.running i) hgoes hmoved hi
    · exact runningAt_other hI.sound hI.sessions (hI.running i) hG hmoved hi
  · rw [hghost]
    by_cases hrun : ∃ i, a = .run i
    · obtain ⟨i, rfl⟩ := hrun
      exact streams_run hI hsound' hstep stream
    · obtain ⟨hlog, hstop, hahead⟩ := moved_silent hI.sessions hgoes hG hmoved
        (fun i hi => hrun ⟨i, hi⟩) stream
      rw [hlog, hI.streams, noteStop, hstop, ahead_congr hI.sound hsound' hahead]
      simp

def stopInitial (inputs : List (String × Json)) : Ghosted World (List ExecutionStatus) :=
  ⟨World.initial inputs, []⟩

theorem told_initial (inputs : List (String × Json)) : Told (stopInitial inputs) := by
  refine ⟨sound_initial inputs, sessions_initial inputs, fun i => ?_, fun stream => rfl⟩
  refine ⟨?_, ?_, ?_⟩ <;>
    simp [stopInitial, World.initial, Pc.hasBegun, Pc.beforeStop, Pc.flushedStop]

/-- In every failure-free run in which no pause and no cancel is committed, each
committed stop is announced by exactly one event on both streams. -/
theorem stops_announced (cfg : Config) (inputs : List (String × Json)) (as : List Action)
    (hgoes : ∀ a ∈ as, a.goesThrough)
    (hG : Along (step cfg) (fun w a _ => CommitsNoStop w a) (World.initial inputs) as) :
    Along (stopStep cfg) (fun _ _ s => Announced s) (stopInitial inputs) as := by
  have hguard : Along (stopStep cfg) (fun s a _ => CommitsNoStop s.state a)
      (stopInitial inputs) as := (along_ghost_iff (R := fun w a _ => CommitsNoStop w a)).mpr hG
  refine along_of_invariant (I := Told)
    (G := fun s a => a.goesThrough ∧ CommitsNoStop s.state a) ?_ ?_ (told_initial inputs)
    (along_and (along_of_mem hgoes _) hguard)
  · exact fun _ _ _ hI hG hs => told_step hI hG.1 hG.2 hs
  · exact fun _ _ _ hI hG hs => (told_step hI hG.1 hG.2 hs).announced

/-! ## A pause through the API -/

/-- A pause request commits while the worker is in its step; the worker sees it at the
next refresh and leaves without a word. -/
def pausedByRequest : List Action :=
  .enqueue 0 :: deliver 7 ++ [.request 1 .pause, .flush 1, .commit 1] ++ List.replicate 3 (.run 0)

theorem pause_not_announced :
    ∃ s, run (stopStep oneStep) (stopInitial []) pausedByRequest = some s ∧
      s.state.row.committed.status = .paused ∧ s.ghost = [.paused] ∧
      (s.state.workers 0).pc = .idle ∧ terminals .global s.state.log = [] ∧
      terminals .sse s.state.log = [] ∧ ¬ Announced s := by
  have hend : (run (stopStep oneStep) (stopInitial []) pausedByRequest).any fun s =>
      s.state.row.committed.status = .paused ∧ s.ghost = [.paused] ∧
        (s.state.workers 0).pc = .idle ∧ terminals .global s.state.log = [] ∧
        terminals .sse s.state.log = [] := by
    decide +kernel
  obtain ⟨s, hrun, hstatus, hstops, hidle, hglobal, hsse⟩ := exists_of_any hend
  refine ⟨s, hrun, hstatus, hstops, hidle, hglobal, hsse, fun hannounced => ?_⟩
  have hquiet : Quiet s.state := by
    intro i
    by_cases hi : i = 0
    · rw [hi, hidle]
      rfl
    · have hactors : ∀ a ∈ pausedByRequest, actor a = none ∨ actor a = some 0 := by decide
      rw [run_workers_other (run_of_ghost hrun) fun a ha hact => hi ?_]
      · rfl
      · simpa [hact] using hactors a ha
  rw [hannounced hquiet, hstops] at hglobal
  cases hglobal

theorem stops_announced_deliver :
    Along (stopStep oneStep) (fun _ _ s => Announced s) (stopInitial [])
      (.enqueue 0 :: deliver 17) :=
  stops_announced oneStep [] _ (by decide) (by decide +kernel)

end Sutram.Workflow
