/-
Pause and cancel at the step boundary.

A request commits PAUSED or CANCELLED; the worker notices at its next refresh.  The
refresh reads the session's own version of the row where there is one, and that version
takes its status from the row it was written over, so from the commit of RUNNING on the
signal is never hidden by the worker's own work.

That commit itself does hide one.  A pause or a cancel that has passed its check before a
resume may write its status once the worker has read PENDING, and the UPDATE to RUNNING,
which does not look at the status again, replaces it.
-/
import Sutram.Library.Ghost
import Sutram.Workflow.Failures
import Sutram.Workflow.Sessions

namespace Sutram.Workflow

open Sutram.Core Runs

/-! ## What the worker does after the signal -/

/-- What worker 0 has done since a request committed PAUSED or CANCELLED: the boundary
checks it has passed, the steps it has begun, the checkpoints it has written.  `inHand` is
the step whose boundary check it had passed by then without having begun it. -/
structure Since where
  inHand : Option Nat
  passed : List Nat := []
  begun : List Nat := []
  written : List Nat := []
deriving DecidableEq, Repr

/-- The step whose boundary check is passed and which has not begun. -/
def Pc.inHand : Pc → Option Nat
  | .writeCheckpoint n | .commitCheckpoint n | .execute n => some n
  | _ => none

/-- An operation of the worker, by the point it starts from and the one it leads to. -/
def Since.observe (since : Since) : Pc → Pc → Since
  | .refresh n, pc' =>
    if pc' = .release .returned then since else { since with passed := since.passed ++ [n] }
  | .writeCheckpoint n, _ => { since with written := since.written ++ [n] }
  | .execute n, _ => { since with begun := since.begun ++ [n] }
  | _, _ => since

/-- Nothing is noted before a signal, nor after a resume has been committed. -/
def noteSignal (w : World) (a : Action) (w' : World) (since : Option Since) : Option Since :=
  match a with
  | .commit r =>
    match (w.requests r).phase with
    | .commit .resume => none
    | .commit _ => some (since.getD { inHand := (w.workers 0).pc.inHand })
    | _ => since
  | .run 0 => since.map fun s => s.observe (w.workers 0).pc (w'.workers 0).pc
  | _ => since

/-- No boundary check is passed any more; one step at most begins, the one in hand, and no
other step's checkpoint is written. -/
structure Since.Heeded (since : Since) : Prop where
  passed : since.passed = []
  begun : since.begun.length ≤ 1
  inHand : ∀ n, n ∈ since.begun ∨ n ∈ since.written → since.inHand = some n

instance : DecidablePred Since.Heeded := fun since =>
  decidable_of_iff (since.passed = [] ∧ since.begun.length ≤ 1 ∧
      ∀ n ∈ since.begun ++ since.written, since.inHand = some n)
    ⟨fun ⟨hpassed, hbegun, hhand⟩ =>
        ⟨hpassed, hbegun, fun n hn => hhand n (List.mem_append.mpr hn)⟩,
      fun h => ⟨h.passed, h.begun, fun n hn => h.inHand n (List.mem_append.mp hn)⟩⟩

def signalStep (cfg : Config) :
    Ghosted World (Option Since) → Action → Option (Ghosted World (Option Since)) :=
  ghostStep (step cfg) noteSignal

/-! ## One run of the executor -/

/-- No pause or cancel has got past its check. -/
def Unsignalled (w : World) : Prop :=
  ∀ r kind, (w.requests r).phase = .flush kind ∨ (w.requests r).phase = .commit kind →
    kind = .resume

/-- Where worker 0 reads the row and finds it PENDING, no pause or cancel has got past its
check. -/
def ReadsUnsignalled (w : World) (a : Action) : Prop :=
  a = .run 0 → (w.workers 0).pc = .read → w.row.committed.status = .pending → Unsignalled w

/-- Worker 0 runs its task and takes no other; everything else may happen. -/
def OneRun (a : Action) : Prop := actor a = none ∨ actor a = some 0 ∧ a ≠ .take 0

instance (a : Action) : Decidable (OneRun a) := inferInstanceAs (Decidable (_ ∨ _ ∧ _))

/-- The signal of a request. -/
def isSignal (s : ExecutionStatus) : Bool := s = .paused ∨ s = .cancelled

/-- What worker 0 has done since the signal, when it has just taken its task. -/
def noted (w : World) : Option Since :=
  if isSignal w.row.committed.status then some { inHand := none } else none

/-- From a read of PENDING up to the commit of RUNNING. -/
def Worker.starting (k : Worker) : Bool :=
  match k.pc with
  | .acquire | .setup => k.execution.current.status = .pending
  | .flushRunning _ | .publishStarted _ _ | .commitRunning _ => true
  | _ => false

theorem inLoop_of_inHand {pc : Pc} {n : Nat} (h : pc.inHand = some n) : pc.inLoop := by
  cases pc <;> first | rfl | cases h

/-- An open transaction that is to be committed has the row lock. -/
def Locked (w : World) : Prop :=
  ∀ r kind, (w.requests r).phase = .commit kind → ∃ v, w.row.uncommitted = some (.request r, v)

/-- A worker that has read PENDING has no signal until RUNNING is committed; from then on
its session reads it. -/
structure Listening (s : Ghosted World (Option Since)) : Prop where
  sound : SoundAt s.state 0
  sessions : Sessions s.state
  locked : Locked s.state
  reading : (s.state.workers 0).pc = .read → s.ghost.isSome →
    isSignal s.state.row.committed.status
  before : (s.state.workers 0).starting →
    s.state.row.committed.status = .pending ∧ s.ghost = none ∧ Unsignalled s.state
  signal : (s.state.workers 0).pc.inLoop → s.ghost.isSome →
    isSignal (s.state.row.view (.worker 0)).status
  heeded : ∀ since ∈ s.ghost, since.Heeded
  inHand : ∀ since ∈ s.ghost, ∀ n, (s.state.workers 0).pc.inHand = some n →
    since.inHand = some n ∧ since.begun = []

/-! ## The row lock -/

theorem locked_step {cfg : Config} {w w' : World} {a : Action} (hsessions : Sessions w)
    (hI : Locked w) (h : Moved cfg w a w') : Locked w' := by
  intro r kind hphase'
  by_cases hr : writer a = some (.request r)
  · cases h with
    | @flush r' kind' hphase row hrow =>
      obtain rfl : r' = r := by simpa [writer] using hr
      obtain ⟨htarget, hclean, hne⟩ := (hsessions r').flush kind' hphase
      obtain ⟨-, v, hv, -⟩ := flushRow_dirty (by
        rw [Orm.assign_current, route_assign_status, htarget, Orm.assign_loaded]
        exact hne.symm) hrow
      exact ⟨v, hv⟩
    | @request r' | @commitResume r' | @commit r' | @enqueue r' | @enqueueFails r' | @abort r' =>
      obtain rfl : r' = r := by simpa [writer] using hr
      simp at hphase'
    | conflict => exact hI r kind hphase'
    | bystander hnone _ =>
      rw [hr] at hnone
      cases hnone
    | _ => cases hr
  · obtain ⟨wr, hwr, hmoves⟩ := moved_moves_other h hr
    rw [moved_requests_other h hr] at hphase'
    obtain ⟨v, hv⟩ := hI r kind hphase'
    exact ⟨v, (hmoves.uncommitted_of_ne hwr.symm).mpr hv⟩

theorem locked_initial (inputs : List (String × Json)) : Locked (World.initial inputs) := by
  intro r kind hphase
  by_cases hr : r = 0
  · subst hr
    simp [World.initial] at hphase
  · simp [World.initial, hr] at hphase

/-- What a request commits is its target. -/
theorem commit_target {w : World} {r : Nat} {kind : RequestKind} (hsessions : Sessions w)
    (hlocked : Locked w) (hphase : (w.requests r).phase = .commit kind) :
    ∃ v, w.row.uncommitted = some (.request r, v) ∧ v.status = kind.target := by
  obtain ⟨v, hv⟩ := hlocked r kind hphase
  obtain ⟨kind', hphase', htarget, -⟩ := (hsessions r).own v hv
  rw [hphase] at hphase'
  cases hphase'
  exact ⟨v, hv, htarget⟩

/-- A flush that leaves the status alone leaves what the session reads of it. -/
theorem flushRow_view_status {row row' : Versioned Writer ExecutionRow} {wr : Writer} {o : Orm}
    (hclean : o.current.status = o.loaded.status) (h : flushRow row wr o = some row') :
    (row'.view wr).status = (row.view wr).status := by
  unfold flushRow at h
  split at h
  · cases h
    rfl
  · obtain ⟨-, hu, -⟩ := Versioned.update_eq_some h
    rw [Versioned.view_own hu, Orm.patch_status_of_clean hclean]

/-! ## What an operation of the worker does -/

section Ran

variable {cfg : Config} {w w' : World} {i n : Nat}

theorem ran_starting (h : Ran cfg w i w') (hstarting : (w'.workers i).starting) :
    w'.row.committed = w.row.committed ∧ ((w.workers i).starting ∨
      (w.workers i).pc = .read ∧ w.row.committed.status = .pending) := by
  cases h with
  | read hfrom =>
    exact ⟨rfl, .inr ⟨hfrom, by simpa [Worker.starting] using hstarting⟩⟩
  | acquired hfrom =>
    exact ⟨rfl, .inl (by simpa [Worker.starting, hfrom] using hstarting)⟩
  | setup hfrom hpending => exact ⟨rfl, .inl (by simp [Worker.starting, hfrom, hpending])⟩
  | flushRunning hfrom hrow =>
    exact ⟨(flushRow_eq_some hrow).1, .inl (by simp [Worker.starting, hfrom])⟩
  | publishStarted hfrom =>
    exact ⟨rfl, .inl (by simp [Worker.starting, hfrom])⟩
  | @commitRunning start | @flushStep start =>
    have hnext := next_cases cfg start
    have hnext' := next_cases cfg (start + 1)
    rcases hnext with hn | hn <;> rcases hnext' with hn' | hn' <;>
      simp [hn, hn', Worker.starting] at hstarting
  | @refresh m =>
    cases hflag : CheckpointManager.shouldCheckpoint (cfg.stepConfig m) <;>
      simp [hflag, Worker.starting] at hstarting
  | publishStep hfrom hnext | publishCompleted hfrom hnext | publishPaused hfrom hnext =>
    rcases hnext with rfl | rfl <;> simp [Worker.starting] at hstarting
  | _ => simp [Worker.starting] at hstarting

/-- Inside the loop the worker's own work leaves the status that its session reads. -/
theorem ran_inLoop (h : Ran cfg w i w') (hpc : (w'.workers i).pc.inLoop)
    (hclean : (w.workers i).execution.current.status =
      (w.workers i).execution.loaded.status) :
    (w.workers i).starting ∨ (w.workers i).pc.inLoop ∧
      (w'.row.view (.worker i)).status = (w.row.view (.worker i)).status := by
  cases h with
  | commitRunning hfrom => exact .inl (by simp [Worker.starting, hfrom])
  | refresh hfrom | writeCheckpoint hfrom | execute hfrom | publishStep hfrom =>
    rw [hfrom]
    exact .inr ⟨rfl, rfl⟩
  | commitCheckpoint hfrom =>
    rw [hfrom]
    exact .inr ⟨rfl, by simp⟩
  | flushStep hfrom hrow =>
    rw [hfrom]
    exact .inr ⟨rfl, flushRow_view_status hclean hrow⟩
  | publishStarted hfrom hnext | publishCompleted hfrom hnext | publishPaused hfrom hnext =>
    rcases hnext with rfl | rfl <;> simp [Pc.inLoop] at hpc
  | _ => simp [Pc.inLoop] at hpc

/-- A refresh that reads the signal ends the run. -/
theorem ran_signalled (h : Ran cfg w i w') (hpc : (w.workers i).pc = .refresh n)
    (hsignal : isSignal (w.row.view (.worker i)).status) :
    (w'.workers i).pc = .release .returned := by
  cases h with
  | refreshStops => simp
  | refresh _ hs => exact absurd (of_decide_eq_true hsignal) hs
  | _ hfrom =>
    rw [hpc] at hfrom
    cases hfrom

/-- No operation leads back to the read. -/
theorem ran_read (h : Ran cfg w i w') : (w'.workers i).pc ≠ .read := by
  cases h with
  | publishStarted _ hnext | publishStep _ hnext | publishCompleted _ hnext
  | publishPaused _ hnext => rcases hnext with rfl | rfl <;> simp
  | @commitRunning start | @flushStep start =>
    have hnext := next_cases cfg start
    have hnext' := next_cases cfg (start + 1)
    rcases hnext with hn | hn <;> rcases hnext' with hn' | hn' <;> simp [hn, hn']
  | @refresh m => cases CheckpointManager.shouldCheckpoint (cfg.stepConfig m) <;> simp
  | _ => simp

theorem ran_inHand (h : Ran cfg w i w') (hpc : (w'.workers i).pc.inHand = some n) :
    (w.workers i).pc = .refresh n ∨
      (w.workers i).pc.inHand = some n ∧ ∀ m, (w.workers i).pc ≠ .execute m := by
  cases h with
  | @refresh m hfrom =>
    left
    rw [hfrom]
    cases hflag : CheckpointManager.shouldCheckpoint (cfg.stepConfig m) <;>
      simpa [hflag, Pc.inHand] using hpc
  | writeCheckpoint hfrom | commitCheckpoint hfrom =>
    right
    rw [hfrom]
    exact ⟨by simpa [Pc.inHand] using hpc, fun m hm => by cases hm⟩
  | @commitRunning start | @flushStep start =>
    have hnext := next_cases cfg start
    have hnext' := next_cases cfg (start + 1)
    rcases hnext with hn | hn <;> rcases hnext' with hn' | hn' <;>
      simp [hn, hn', Pc.inHand] at hpc
  | publishStarted hfrom hnext | publishStep hfrom hnext | publishCompleted hfrom hnext
  | publishPaused hfrom hnext =>
    rcases hnext with rfl | rfl <;> simp [Pc.inHand] at hpc
  | _ => simp [Pc.inHand] at hpc

end Ran

/-! ## What is noted of it -/

section Observe

variable {since : Since} {pc pc' : Pc}

@[simp] theorem observe_inHand : (since.observe pc pc').inHand = since.inHand := by
  cases pc <;> simp only [Since.observe]
  split <;> rfl

theorem observe_begun (h : ∀ n, pc ≠ .execute n) :
    (since.observe pc pc').begun = since.begun := by
  cases pc <;> simp only [Since.observe]
  case refresh => split <;> rfl
  case execute n => exact absurd rfl (h n)

/-- The worker has passed its boundary check before the signal, and does the rest of that
step. -/
theorem Since.Heeded.observe (h : since.Heeded)
    (hrefresh : ∀ n, pc = .refresh n → pc' = .release .returned)
    (hhand : ∀ n, pc.inHand = some n → since.inHand = some n ∧ since.begun = []) :
    (since.observe pc pc').Heeded := by
  cases pc with
  | refresh n =>
    rw [Since.observe, if_pos (hrefresh n rfl)]
    exact h
  | writeCheckpoint n =>
    obtain ⟨hn, -⟩ := hhand n rfl
    refine ⟨h.passed, h.begun, fun m hm => ?_⟩
    rcases hm with hm | hm
    · exact h.inHand m (.inl hm)
    · rcases List.mem_append.mp hm with hm | hm
      · exact h.inHand m (.inr hm)
      · rw [List.mem_singleton.mp hm]
        exact hn
  | execute n =>
    obtain ⟨hn, hbegun⟩ := hhand n rfl
    refine ⟨h.passed, ?_, fun m hm => ?_⟩
    · simp [Since.observe, hbegun]
    · rcases hm with hm | hm
      · obtain rfl : m = n := by simpa [Since.observe, hbegun] using hm
        exact hn
      · exact h.inHand m (.inr hm)
  | _ => exact h

end Observe

/-! ## The other parties -/

section Other

variable {cfg : Config} {s : Ghosted World (Option Since)} {w w' : World} {a : Action}

theorem noteSignal_other {since : Option Since} (hcommit : ∀ r, a ≠ .commit r)
    (hrun : a ≠ .run 0) : noteSignal w a w' since = since := by
  cases a with
  | commit r => exact absurd rfl (hcommit r)
  | run i =>
    cases i with
    | zero => exact absurd rfl hrun
    | succ i => rfl
  | _ => rfl

theorem noteSignal_commit {since : Option Since} {r : Nat} {kind : RequestKind}
    (hphase : (w.requests r).phase = .commit kind) (hkind : kind ≠ .resume) :
    noteSignal w (.commit r) w' since =
      some (since.getD { inHand := (w.workers 0).pc.inHand }) := by
  cases kind with
  | resume => exact absurd rfl hkind
  | _ => simp [noteSignal, hphase]

/-- Without a commit no party but the worker changes the committed row. -/
theorem committed_of_quiet (h : Moved cfg w a w') (ha : actor a = none)
    (hcommit : ∀ r, a ≠ .commit r) : w'.row.committed = w.row.committed := by
  cases h with
  | flush hphase hrow => exact (flushRow_eq_some hrow).1
  | abort => simp
  | commitResume | commit => exact absurd rfl (hcommit _)
  | bystander _ h => rw [h.row]
  | conflict | request | enqueue | enqueueFails => rfl
  | _ => cases ha

/-- A PENDING execution accepts neither a pause nor a cancel. -/
theorem unsignalled_of_pending (hpending : w.row.committed.status = .pending)
    (hI : Unsignalled w) (h : Moved cfg w a w') : Unsignalled w' := by
  intro r kind hkind
  by_cases hr : writer a = some (.request r)
  · cases h with
    | conflict => exact hI r kind hkind
    | request hphase hfsm =>
      rw [hpending] at hfsm
      cases ‹RequestKind› <;> cases hfsm
    | @flush r' kind' hphase =>
      obtain rfl : r' = r := by simpa [writer] using hr
      obtain rfl : kind' = kind := by simpa using hkind
      exact hI r' kind' (.inl hphase)
    | @commitResume r' | @commit r' | @enqueue r' | @enqueueFails r' | @abort r' =>
      obtain rfl : r' = r := by simpa [writer] using hr
      simp at hkind
    | bystander hnone _ =>
      rw [hr] at hnone
      cases hnone
    | _ => cases hr
  · rw [moved_requests_other h hr] at hkind
    exact hI r kind hkind

/-- A move of another party that commits nothing. -/
theorem Listening.quiet (hI : Listening s) (h : Moved cfg s.state a w') (ha : actor a = none)
    (hcommit : ∀ r, a ≠ .commit r) : Listening ⟨w', s.ghost⟩ := by
  have hframe := moved_frame h (j := 0) (by rw [ha]; exact fun h => by cases h)
  have hworker := hframe.worker
  have hcommitted := committed_of_quiet h ha hcommit
  obtain ⟨wr, hwr, hmoves⟩ := hframe.row
  refine ⟨soundAt_frame hI.sound hframe, sessionAt_step hI.sessions h,
    locked_step hI.sessions hI.locked h, ?_, ?_, ?_, hI.heeded, ?_⟩
  · rw [hworker, hcommitted]
    exact hI.reading
  · rw [hworker, hcommitted]
    intro hpc
    obtain ⟨hpending, hnone, hrequests⟩ := hI.before hpc
    exact ⟨hpending, hnone, unsignalled_of_pending hpending hrequests h⟩
  · rw [hworker]
    intro hpc hsome
    have hview : w'.row.view (.worker 0) = s.state.row.view (.worker 0) := by
      rcases hmoves.view_cases hwr.symm with hsame | ⟨hnew, hold⟩
      · exact hsame
      · rw [hnew, hold, hcommitted]
    rw [hview]
    exact hI.signal hpc hsome
  · rw [hworker]
    exact hI.inHand

/-- After a request's commit the worker reads the request's target. -/
theorem view_commit_target {r : Nat} {kind : RequestKind} (hsessions : Sessions w)
    (hlocked : Locked w) (hphase : (w.requests r).phase = .commit kind) :
    ((w.row.commit (.request r)).committed.status = kind.target) ∧
      ((w.row.commit (.request r)).view (.worker 0)).status = kind.target := by
  obtain ⟨v, hv, htarget⟩ := commit_target hsessions hlocked hphase
  rw [Versioned.commit_own hv]
  refine ⟨htarget, ?_⟩
  rw [Versioned.view_eq_committed (by simp)]
  exact htarget

theorem Listening.commit {r : Nat} (hI : Listening s) (h : Moved cfg s.state (.commit r) w') :
    Listening ⟨w', noteSignal s.state (.commit r) w' s.ghost⟩ := by
  have hframe := moved_frame h (j := 0) (fun h => by cases h)
  have hworker := hframe.worker
  have hsound := soundAt_frame hI.sound hframe
  have hsessions : Sessions w' := sessionAt_step hI.sessions h
  have hlocked := locked_step hI.sessions hI.locked h
  have hunsignalled : s.state.row.committed.status = .pending → Unsignalled s.state →
      Unsignalled w' := fun hpending hrequests => unsignalled_of_pending hpending hrequests h
  cases h with
  | commitResume hphase =>
    obtain ⟨htarget, -⟩ := view_commit_target hI.sessions hI.locked hphase
    have hnote : ∀ u, noteSignal s.state (.commit r) u s.ghost = none := by
      simp [noteSignal, hphase]
    rw [hnote]
    refine ⟨hsound, hsessions, hlocked, by simp, fun hpc => ?_, ?_, ?_, ?_⟩
    · obtain ⟨hpending, -, hrequests⟩ := hI.before hpc
      exact ⟨htarget, rfl, hunsignalled hpending hrequests⟩
    · simp
    · simp
    · simp
  | @commit _ kind hphase hkind =>
    obtain ⟨hcommitted, htarget⟩ := view_commit_target hI.sessions hI.locked hphase
    have hsignal : isSignal kind.target := by
      cases kind with
      | resume => exact absurd rfl hkind
      | _ => rfl
    rw [noteSignal_commit hphase hkind]
    refine ⟨hsound, hsessions, hlocked, fun _ _ => ?_, fun hpc => ?_, fun _ _ => ?_, ?_, ?_⟩
    · show isSignal (s.state.row.commit (.request r)).committed.status
      rw [hcommitted]
      exact hsignal
    · obtain ⟨-, -, hrequests⟩ := hI.before hpc
      exact absurd (hrequests r kind (.inr hphase)) hkind
    · show isSignal ((s.state.row.commit (.request r)).view (.worker 0)).status
      rw [htarget]
      exact hsignal
    · rintro since ⟨⟩
      cases hghost : s.ghost with
      | some old => exact hI.heeded old hghost
      | none => exact ⟨rfl, by simp, fun n hn => by simp at hn⟩
    · rintro since ⟨⟩ n hn
      cases hghost : s.ghost with
      | some old => exact hI.inHand old hghost n hn
      | none => exact ⟨hn, rfl⟩
  | bystander hnone _ => cases hnone

end Other

/-! ## The worker -/

section Worker

variable {cfg : Config} {s : Ghosted World (Option Since)} {w' : World}

theorem Listening.run (hI : Listening s) (hreads : ReadsUnsignalled s.state (.run 0))
    (hmoved : Moved cfg s.state (.run 0) w') :
    Listening ⟨w', noteSignal s.state (.run 0) w' s.ghost⟩ := by
  have hran : Ran cfg s.state 0 w' := by
    cases hmoved with
    | run h => exact h
    | bystander hnone _ => cases hnone
  refine ⟨soundAt_ran hI.sound hran, sessionAt_step hI.sessions hmoved,
    locked_step hI.sessions hI.locked hmoved, fun hpc => absurd hpc (ran_read hran),
    fun hstarting => ?_, fun hpc hsome => ?_, ?_, ?_⟩
  · obtain ⟨hcommitted, hfrom⟩ := ran_starting hran hstarting
    have hquiet : s.state.row.committed.status = .pending ∧ s.ghost = none ∧
        Unsignalled s.state := by
      rcases hfrom with hbefore | ⟨hpc, hpending⟩
      · exact hI.before hbefore
      · refine ⟨hpending, ?_, hreads rfl hpc hpending⟩
        cases hghost : s.ghost with
        | none => rfl
        | some since =>
          have hsignal := hI.reading hpc (by rw [hghost]; rfl)
          rw [hpending] at hsignal
          cases hsignal
    obtain ⟨hpending, hnone, hrequests⟩ := hquiet
    rw [hcommitted]
    exact ⟨hpending, by simp [noteSignal, hnone], unsignalled_of_pending hpending hrequests hmoved⟩
  · have hsome : s.ghost.isSome := by simpa [noteSignal] using hsome
    rcases ran_inLoop hran hpc hI.sound.clean with hbefore | ⟨hloop, hstatus⟩
    · rw [(hI.before hbefore).2.1] at hsome
      cases hsome
    · rw [hstatus]
      exact hI.signal hloop hsome
  · rintro since hsince
    obtain ⟨old, hold, rfl⟩ := Option.map_eq_some_iff.mp hsince
    refine (hI.heeded old hold).observe (fun n hpc => ?_) (hI.inHand old hold)
    refine ran_signalled hran hpc (hI.signal ?_ ?_)
    · rw [hpc]
      rfl
    · rw [hold]
      rfl
  · rintro since hsince n hn
    obtain ⟨old, hold, rfl⟩ := Option.map_eq_some_iff.mp hsince
    rcases ran_inHand hran hn with hpc | ⟨hpc, hne⟩
    · -- A boundary check passed after the signal.
      have hstops := ran_signalled hran hpc (hI.signal (by rw [hpc]; rfl) (by rw [hold]; rfl))
      rw [hstops] at hn
      cases hn
    · rw [observe_inHand, observe_begun hne]
      exact hI.inHand old hold n hpc

/-- A worker that raises or dies neither starts a run nor is in one. -/
theorem Listening.leave {a : Action} (hI : Listening s) (h : Moved cfg s.state a w')
    (ha : actor a = some 0) (hnote : noteSignal s.state a w' s.ghost = s.ghost)
    (hread : (w'.workers 0).pc ≠ .read) (hbefore : (w'.workers 0).starting = false)
    (hloop : (w'.workers 0).pc.inLoop = false) :
    Listening ⟨w', noteSignal s.state a w' s.ghost⟩ := by
  rw [hnote]
  refine ⟨soundAt_moved hI.sound h ha, sessionAt_step hI.sessions h,
    locked_step hI.sessions hI.locked h, fun hpc => absurd hpc hread, ?_, ?_, hI.heeded,
    fun since _ n hn => ?_⟩
  · simp [hbefore]
  · simp [hloop]
  · rw [inLoop_of_inHand hn] at hloop
    cases hloop

theorem onFail_leaves (pc : Pc) (message : String) : pc.onFail message ≠ .read ∧
    (∀ k : Worker, k.pc = pc.onFail message → k.starting = false) ∧
      (pc.onFail message).inLoop = false := by
  refine ⟨fun h => ?_, fun k hk => ?_, ?_⟩
  · cases pc <;> cases h
  · cases pc <;> simp [Worker.starting, hk, Pc.onFail]
  · cases pc <;> rfl

theorem Listening.moved {a : Action} (hI : Listening s) (ha : OneRun a)
    (hreads : ReadsUnsignalled s.state a) (h : Moved cfg s.state a w') :
    Listening ⟨w', noteSignal s.state a w' s.ghost⟩ := by
  rcases ha with hnone | ⟨hzero, htake⟩
  · by_cases hcommit : ∃ r, a = .commit r
    · obtain ⟨r, rfl⟩ := hcommit
      exact hI.commit h
    · have hcommit : ∀ r, a ≠ .commit r := fun r hr => hcommit ⟨r, hr⟩
      rw [noteSignal_other hcommit (by rintro rfl; cases hnone)]
      exact hI.quiet h hnone hcommit
  · cases a with
    | take i =>
      obtain rfl : i = 0 := by simpa [actor] using hzero
      exact absurd rfl htake
    | run i =>
      obtain rfl : i = 0 := by simpa [actor] using hzero
      exact hI.run hreads h
    | fail i message =>
      obtain rfl : i = 0 := by simpa [actor] using hzero
      obtain ⟨hread, hbefore, hloop⟩ := onFail_leaves (s.state.workers 0).pc message
      cases hmoved : h with
      | bystander hnone _ => cases hnone
      | failClose =>
        exact hI.leave h rfl rfl (by simp) (by simp [Worker.starting]) (by simp [Pc.inLoop])
      | _ =>
        exact hI.leave h rfl rfl (by simpa using hread) (hbefore _ (by simp))
          (by simpa using hloop)
    | crash i =>
      obtain rfl : i = 0 := by simpa [actor] using hzero
      cases hmoved : h with
      | bystander hnone _ => cases hnone
      | crash =>
        exact hI.leave h rfl rfl (by simp) (by simp [Worker.starting]) (by simp [Pc.inLoop])
    | _ => cases hzero

end Worker

theorem locked_run {cfg : Config} {inputs : List (String × Json)} {as : List Action} {w : World}
    (h : run (step cfg) (World.initial inputs) as = some w) : Sessions w ∧ Locked w := by
  refine invariant_run (I := fun w => Sessions w ∧ Locked w) (G := fun _ _ => True) ?_
    ⟨sessions_initial inputs, locked_initial inputs⟩ (along_of_mem (fun _ _ => trivial) _) h
  intro u a u' hI _ hstep
  have hmoved := step_moved hstep
  exact ⟨sessionAt_step hI.1 hmoved, locked_step hI.1 hI.2 hmoved⟩

theorem listening_taken {w : World} (hsound : SoundAt w 0) (hsessions : Sessions w)
    (hlocked : Locked w) (hw : w.workers 0 = { pc := .read }) : Listening ⟨w, noted w⟩ := by
  refine ⟨hsound, hsessions, hlocked, fun _ hsome => ?_, ?_, ?_, fun since hsince => ?_, ?_⟩
  · by_contra hsignal
    simp [noted, hsignal] at hsome
  · simp [hw, Worker.starting]
  · simp [hw, Pc.inLoop]
  · obtain ⟨-, rfl⟩ : isSignal w.row.committed.status ∧ _ = since := by
      simpa [noted] using hsince
    exact ⟨rfl, by simp, by simp⟩
  · simp [hw, Pc.inHand]

/-- From the commit of PAUSED or CANCELLED, and until a resume is committed, the worker passes
no boundary check, begins at most the step whose check it had passed, and writes no
checkpoint of another step: where no pause or cancel had got past its own check when the
worker read the row PENDING. -/
theorem signal_heeded (cfg : Config) (inputs : List (String × Json)) (before after : List Action)
    (w : World) (hbefore : run (step cfg) (World.initial inputs) before = some w)
    (hw : w.workers 0 = { pc := .read }) (hafter : ∀ a ∈ after, OneRun a)
    (hreads : Along (step cfg) (fun w a _ => ReadsUnsignalled w a) w after) :
    Along (signalStep cfg) (fun _ _ t => ∀ since ∈ t.ghost, since.Heeded) ⟨w, noted w⟩ after := by
  obtain ⟨hsessions, hlocked⟩ := locked_run hbefore
  have keep : ∀ s a t, Listening s → OneRun a ∧ ReadsUnsignalled s.state a →
      signalStep cfg s a = some t → Listening t := by
    intro s a t hI ha hstep
    obtain ⟨hs, hghost⟩ := ghostStep_eq_some hstep
    have hI' := hI.moved ha.1 ha.2 (step_moved hs)
    rw [← hghost] at hI'
    exact hI'
  have hguard : Along (signalStep cfg) (fun s a _ => OneRun a ∧ ReadsUnsignalled s.state a)
      ⟨w, noted w⟩ after :=
    along_and (along_of_mem hafter _)
      (along_ghost_iff (R := fun w a _ => ReadsUnsignalled w a).mpr hreads)
  exact along_of_invariant (G := fun s a => OneRun a ∧ ReadsUnsignalled s.state a) keep
    (fun s a t hI ha hstep => (keep s a t hI ha hstep).heeded)
    (listening_taken (sound_run hbefore 0) hsessions hlocked hw) hguard

/-- A pause committed between the boundary check of the only step and its execution. -/
def pauseBeforeStep : List Action :=
  List.replicate 7 (.run 0) ++ [.request 1 .pause, .flush 1, .run 0, .commit 1] ++
    List.replicate 4 (.run 0)

theorem signal_heeded_pause : ∃ w,
    run (step oneStep) (World.initial []) [.enqueue 0, .take 0] = some w ∧
      Along (signalStep oneStep) (fun _ _ t => ∀ since ∈ t.ghost, since.Heeded) ⟨w, noted w⟩
        pauseBeforeStep ∧
      (run (signalStep oneStep) ⟨w, noted w⟩ pauseBeforeStep).any
        fun t => t.ghost = some { inHand := some 0, begun := [0] } := by
  have hreads : Along (step oneStep) (fun w a _ => ReadsUnsignalled w a)
      (World.set { World.initial [] with
        requests := Function.update (World.initial []).requests 0 {}
        answers := [(0, .ok)] } 0 { pc := .read }) pauseBeforeStep := by
    refine ⟨fun _ _ _ r kind hphase => ?_, ?_⟩
    · simp [World.initial] at hphase
    · refine along_imp (I := fun _ => True) (R := fun w _ _ => (w.workers 0).pc ≠ .read)
        (fun _ _ _ _ _ _ => trivial) (fun _ _ _ _ _ hne _ hpc => absurd hpc hne) trivial ?_
      decide +kernel
  refine ⟨_, rfl, signal_heeded oneStep [] [.enqueue 0, .take 0] _ _ rfl rfl (by decide) hreads, ?_⟩
  decide +kernel

/-- The first run is paused at its boundary.  A cancel passes its check, a resume is made, and
worker 0 takes the task. -/
def cancelThenResume : List Action :=
  .enqueue 0 :: deliver 7 ++ [.request 1 .pause, .flush 1, .commit 1] ++
    List.replicate 3 (.run 0) ++ [.request 2 .cancel, .request 3 .resume, .flush 3, .commit 3,
      .enqueue 3, .take 0]

/-- The worker reads PENDING, the cancel is written and committed, and the worker goes on to
the commit of COMPLETED. -/
def hiddenCancel : List Action :=
  [.run 0, .flush 2, .commit 2] ++ List.replicate 15 (.run 0)

theorem signal_hidden_by_running : ∃ w,
    run (step oneStep) (World.initial []) cancelThenResume = some w ∧
      w.workers 0 = { pc := .read } ∧ (∀ a ∈ hiddenCancel, OneRun a) ∧
      ¬ Along (signalStep oneStep) (fun _ _ t => ∀ since ∈ t.ghost, since.Heeded) ⟨w, noted w⟩
        hiddenCancel ∧
      (run (signalStep oneStep) ⟨w, noted w⟩ (hiddenCancel.take 3)).any
        (fun t => t.state.row.committed.status = .cancelled) ∧
      (run (signalStep oneStep) ⟨w, noted w⟩ hiddenCancel).any fun t =>
        t.state.row.committed.status = .completed ∧
          t.ghost = some { inHand := none, passed := [0], begun := [0] } := by
  refine ⟨_, rfl, rfl, by decide, ?_, ?_, ?_⟩ <;> decide +kernel

end Sutram.Workflow
