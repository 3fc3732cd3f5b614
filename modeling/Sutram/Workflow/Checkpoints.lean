/-
The committed checkpoints of one execution.

`get_latest` takes the highest step index and no constraint of the table stands behind
it.  That this is the newest checkpoint, and the only one with its index, is an invariant
of all runs: a run starts behind the latest checkpoint, its loop goes up, and nobody else
writes while it holds the lock.
-/
import Sutram.Workflow.Resume

namespace Sutram.Workflow

open Sutram.Core Runs

/-! ## The order of the table -/

/-- `c` is a row that `ORDER BY step_index DESC LIMIT 1` may return. -/
def IsLatest (rows : List CheckpointRow) (c : CheckpointRow) : Prop :=
  c ∈ rows ∧ ∀ d ∈ rows, d.stepIndex ≤ c.stepIndex

/-- Each checkpoint belongs to a step that asks for one, the indices go up in the order of
creation, and the latest is the one committed last. -/
structure CheckpointsOrdered (cfg : Config) (rows : List CheckpointRow) : Prop where
  increasing : rows.Pairwise fun c d => c.stepIndex < d.stepIndex
  flagged : ∀ c ∈ rows, ∃ step, cfg.steps[c.stepIndex]? = some step ∧
    CheckpointManager.shouldCheckpoint step.config
  latest : ∀ c, IsLatest rows c ↔ rows.getLast? = some c
  getLatest : CheckpointManager.getLatest rows = rows.getLast?

theorem isLatest_iff_getLast? {rows : List CheckpointRow}
    (h : rows.Pairwise fun c d => c.stepIndex < d.stepIndex) (c : CheckpointRow) :
    IsLatest rows c ↔ rows.getLast? = some c := by
  rcases List.eq_nil_or_concat rows with rfl | ⟨front, last, rfl⟩
  · simp [IsLatest]
  · rw [List.concat_eq_append] at h ⊢
    have hbelow : ∀ d ∈ front, d.stepIndex < last.stepIndex := by
      intro d hd
      exact (List.pairwise_append.mp h).2.2 d hd last List.mem_cons_self
    rw [List.getLast?_concat, Option.some.injEq]
    constructor
    · rintro ⟨hc, hmax⟩
      have hlast := hmax last (by simp)
      rcases List.mem_append.mp hc with hc | hc
      · exact absurd (hbelow c hc) (Nat.not_lt.mpr hlast)
      · exact (List.mem_singleton.mp hc).symm
    · rintro rfl
      refine ⟨by simp, fun d hd => ?_⟩
      rcases List.mem_append.mp hd with hd | hd
      · exact Nat.le_of_lt (hbelow d hd)
      · rw [List.mem_singleton.mp hd]

theorem getLatest_isLatest {rows : List CheckpointRow} {c : CheckpointRow}
    (h : CheckpointManager.getLatest rows = some c) : IsLatest rows c :=
  ⟨CheckpointManager.getLatest_mem h, fun _ hd => CheckpointManager.le_getLatest h hd⟩

theorem getLatest_eq_getLast? {rows : List CheckpointRow}
    (h : rows.Pairwise fun c d => c.stepIndex < d.stepIndex) :
    CheckpointManager.getLatest rows = rows.getLast? := by
  cases hlatest : CheckpointManager.getLatest rows with
  | some c => exact ((isLatest_iff_getLast? h c).mp (getLatest_isLatest hlatest)).symm
  | none =>
    obtain rfl : rows = [] := List.argmax_eq_none.mp hlatest
    rfl

/-- The start index of a run lies behind every committed checkpoint. -/
theorem lt_startIndex {rows : List CheckpointRow} {c : CheckpointRow} (hc : c ∈ rows) :
    c.stepIndex < startIndex (CheckpointManager.getLatest rows) := by
  cases hlatest : CheckpointManager.getLatest rows with
  | some d => exact Nat.lt_succ_of_le (CheckpointManager.le_getLatest hlatest hc)
  | none =>
    obtain rfl : rows = [] := List.argmax_eq_none.mp hlatest
    cases hc

/-! ## The invariant -/

namespace Pc

/-- The first index the run may still write a checkpoint for. -/
def frontier : Pc → Option Nat
  | .flushRunning n | .publishStarted n _ | .commitRunning n | .refresh n | .writeCheckpoint n
  | .commitCheckpoint n => some n
  | .execute n | .publishStep n _ | .flushStep n => some (n + 1)
  | _ => none

/-- The step whose checkpoint is being written. -/
def checkpointing : Pc → Option Nat
  | .writeCheckpoint n | .commitCheckpoint n => some n
  | _ => none

theorem inLock_of_frontier {pc : Pc} {n : Nat} (h : pc.frontier = some n) : pc.inLock := by
  cases pc <;> first | rfl | cases h

end Pc

/-- Worker `i` is behind all committed checkpoints and writes one for a step that asks
for it. -/
structure AheadAt (cfg : Config) (w : World) (i : Nat) : Prop where
  frontier : ∀ n, (w.workers i).pc.frontier = some n → ∀ c ∈ w.checkpoints, c.stepIndex < n
  inside : ∀ n, (w.workers i).pc = .refresh n → n < cfg.steps.length
  checkpointing : ∀ n, (w.workers i).pc.checkpointing = some n →
    ∃ step, cfg.steps[n]? = some step ∧ CheckpointManager.shouldCheckpoint step.config
  added : ∀ n, (w.workers i).pc = .commitCheckpoint n →
    ∃ c, (w.workers i).added = [c] ∧ c.stepIndex = n

structure Ordered (cfg : Config) (w : World) : Prop where
  sound : Sound w
  increasing : w.checkpoints.Pairwise fun c d => c.stepIndex < d.stepIndex
  flagged : ∀ c ∈ w.checkpoints, ∃ step, cfg.steps[c.stepIndex]? = some step ∧
    CheckpointManager.shouldCheckpoint step.config
  ahead : ∀ i, AheadAt cfg w i

theorem Ordered.checkpointsOrdered {cfg : Config} {w : World} (hI : Ordered cfg w) :
    CheckpointsOrdered cfg w.checkpoints :=
  ⟨hI.increasing, hI.flagged, isLatest_iff_getLast? hI.increasing,
    getLatest_eq_getLast? hI.increasing⟩

/-! ## What a step adds to the table -/

/-- Only the commit of a checkpoint adds a row. -/
theorem ran_checkpoints {cfg : Config} {w w' : World} {i : Nat} (hI : Ordered cfg w)
    (h : Ran cfg w i w') : w'.checkpoints = w.checkpoints ∨
      ∃ n c, (w.workers i).pc = .commitCheckpoint n ∧ c.stepIndex = n ∧
        w'.checkpoints = w.checkpoints ++ [c] := by
  have hadded := (hI.sound i).added
  cases h with
  | @commitCheckpoint n hpc =>
    obtain ⟨c, hc, hindex⟩ := (hI.ahead i).added n hpc
    exact .inr ⟨n, c, hpc, hindex, by simp [hc]⟩
  | commitCompleted hpc | commitPaused hpc | closeReturned hpc =>
    rw [hpc] at hadded
    exact .inl (by simp [hadded rfl])
  | _ => exact .inl rfl

theorem moved_checkpoints {cfg : Config} {w w' : World} {a : Action} (hI : Ordered cfg w)
    (h : Moved cfg w a w') : w'.checkpoints = w.checkpoints ∨
      ∃ i n c, actor a = some i ∧ (w.workers i).pc = .commitCheckpoint n ∧ c.stepIndex = n ∧
        w'.checkpoints = w.checkpoints ++ [c] := by
  cases h with
  | @run i _ h =>
    rcases ran_checkpoints hI h with hsame | ⟨n, c, hpc, hindex, hnew⟩
    · exact .inl hsame
    · exact .inr ⟨i, n, c, rfl, hpc, hindex, hnew⟩
  | bystander _ h => exact .inl h.checkpoints
  | _ => exact .inl rfl

/-! ## The worker that moves -/

/-- A move to a point with no index. -/
theorem AheadAt.leave {cfg : Config} {w : World} {i : Nat}
    (hfrontier : (w.workers i).pc.frontier = none)
    (hinside : ∀ n, (w.workers i).pc ≠ .refresh n)
    (hcheckpointing : (w.workers i).pc.checkpointing = none) : AheadAt cfg w i := by
  refine ⟨fun n hn => ?_, fun n hn => absurd hn (hinside n), fun n hn => ?_, fun n hn => ?_⟩
  · rw [hfrontier] at hn
    cases hn
  · rw [hcheckpointing] at hn
    cases hn
  · rw [hn] at hcheckpointing
    cases hcheckpointing

/-- A move within the loop that writes no checkpoint and goes no index back. -/
theorem AheadAt.proceed {cfg : Config} {w w' : World} {i m : Nat} (hI : AheadAt cfg w i)
    (hm : (w.workers i).pc.frontier = some m) (hcheckpoints : w'.checkpoints = w.checkpoints)
    (hfrontier : ∀ n, (w'.workers i).pc.frontier = some n → m ≤ n)
    (hinside : ∀ n, (w'.workers i).pc = .refresh n → n < cfg.steps.length)
    (hcheckpointing : (w'.workers i).pc.checkpointing = none) : AheadAt cfg w' i := by
  refine ⟨fun n hn c hc => ?_, hinside, fun n hn => ?_, fun n hn => ?_⟩
  · rw [hcheckpoints] at hc
    exact Nat.lt_of_lt_of_le (hI.frontier m hm c hc) (hfrontier n hn)
  · rw [hcheckpointing] at hn
    cases hn
  · rw [hn] at hcheckpointing
    cases hcheckpointing

theorem frontier_next {cfg : Config} {n m : Nat} (h : (cfg.next n).frontier = some m) :
    n ≤ m := by
  rcases next_cases cfg n with hn | hn
  · rw [hn] at h
    exact Nat.le_of_eq (Option.some.inj h)
  · rw [hn] at h
    cases h

theorem next_inside {cfg : Config} {n m : Nat} (h : cfg.next n = .refresh m) :
    m < cfg.steps.length := by
  unfold Config.next at h
  split at h
  · cases h
    assumption
  · cases h

theorem next_checkpointing (cfg : Config) (n : Nat) : (cfg.next n).checkpointing = none := by
  rcases next_cases cfg n with hn | hn <;> rw [hn] <;> rfl

theorem stepConfig_of_lt {cfg : Config} {n : Nat} (h : n < cfg.steps.length) :
    ∃ step, cfg.steps[n]? = some step ∧ cfg.stepConfig n = step.config := by
  refine ⟨cfg.steps[n], List.getElem?_eq_getElem h, ?_⟩
  simp [Config.stepConfig, List.getElem?_eq_getElem h]

theorem aheadAt_ran {cfg : Config} {w w' : World} {i : Nat} (hI : Ordered cfg w)
    (h : Ran cfg w i w') : AheadAt cfg w' i := by
  have hahead := hI.ahead i
  have hadded := (hI.sound i).added
  cases h with
  | readTerminal hpc | read hpc | refused hpc | acquired hpc | setupRaises hpc | refreshStops hpc
  | costExceeded hpc | doneRaises hpc | flushCompleted hpc | commitCompleted hpc
  | pausedRaises hpc | flushPaused hpc | commitPaused hpc | release hpc | closeReturned hpc
  | closeRaised hpc =>
    refine .leave ?_ ?_ ?_ <;> simp [Pc.frontier, Pc.checkpointing]
  | publishCompleted hpc hnext | publishPaused hpc hnext =>
    rcases hnext with rfl | rfl <;>
      refine .leave ?_ ?_ ?_ <;> simp [Pc.frontier, Pc.checkpointing]
  | setup hpc =>
    refine ⟨fun n hn c hc => ?_, ?_, ?_, ?_⟩
    · obtain rfl : startIndex (CheckpointManager.getLatest w.checkpoints) = n := by
        simpa [Pc.frontier] using hn
      exact lt_startIndex hc
    all_goals simp [Pc.checkpointing]
  | flushRunning hpc =>
    refine hahead.proceed (by rw [hpc]; rfl) rfl ?_ ?_ ?_ <;>
      simp [Pc.frontier, Pc.checkpointing]
  | publishStarted hpc hnext =>
    rcases hnext with rfl | rfl <;>
      refine hahead.proceed (by rw [hpc]; rfl) rfl ?_ ?_ ?_ <;>
      simp [Pc.frontier, Pc.checkpointing]
  | publishStep hpc hnext =>
    rcases hnext with rfl | rfl <;>
      refine hahead.proceed (by rw [hpc]; rfl) rfl ?_ ?_ ?_ <;>
      simp [Pc.frontier, Pc.checkpointing]
  | execute hpc =>
    refine hahead.proceed (by rw [hpc]; rfl) rfl ?_ ?_ ?_ <;>
      simp [Pc.frontier, Pc.checkpointing]
  | commitRunning hpc =>
    refine hahead.proceed (by rw [hpc]; rfl) rfl (fun n hn => ?_) (fun n hn => ?_) ?_
    · exact frontier_next (by simpa using hn)
    · exact next_inside (by simpa using hn)
    · simpa using next_checkpointing cfg _
  | flushStep hpc =>
    refine hahead.proceed (by rw [hpc]; rfl) rfl (fun n hn => ?_) (fun n hn => ?_) ?_
    · exact frontier_next (by simpa using hn)
    · exact next_inside (by simpa using hn)
    · simpa using next_checkpointing cfg _
  | @refresh n hpc =>
    obtain ⟨s, hs, hconfig⟩ := stepConfig_of_lt (hahead.inside n hpc)
    have hbelow := hahead.frontier n (by rw [hpc]; rfl)
    by_cases hflag : CheckpointManager.shouldCheckpoint (cfg.stepConfig n)
    · refine ⟨fun m hm c hc => ?_, ?_, fun m hm => ?_, ?_⟩
      · obtain rfl : n = m := by simpa [hflag, Pc.frontier] using hm
        exact hbelow c hc
      · simp [hflag]
      · obtain rfl : n = m := by simpa [hflag, Pc.checkpointing] using hm
        exact ⟨s, hs, by rwa [← hconfig]⟩
      · simp [hflag]
    · refine hahead.proceed (by rw [hpc]; rfl) rfl ?_ ?_ ?_ <;>
        simp [hflag, Pc.frontier, Pc.checkpointing]
  | @writeCheckpoint n hpc =>
    rw [hpc] at hadded
    refine ⟨fun m hm c hc => ?_, by simp, fun m hm => ?_, fun m hm => ?_⟩
    · obtain rfl : n = m := by simpa [Pc.frontier] using hm
      exact hahead.frontier n (by rw [hpc]; rfl) c hc
    · obtain rfl : n = m := by simpa [Pc.checkpointing] using hm
      exact hahead.checkpointing n (by rw [hpc]; rfl)
    · obtain rfl : n = m := by simpa using hm
      simp [hadded rfl, CheckpointManager.write]
  | @commitCheckpoint n hpc =>
    obtain ⟨c, hc, hindex⟩ := hahead.added n hpc
    refine ⟨fun m hm d hd => ?_, ?_, ?_, ?_⟩
    · obtain rfl : n + 1 = m := by simpa [Pc.frontier] using hm
      have hd' : d ∈ w.checkpoints ∨ d = c := by simpa [hc] using hd
      rcases hd' with hd | rfl
      · exact Nat.lt_succ_of_lt (hahead.frontier n (by rw [hpc]; rfl) d hd)
      · exact Nat.lt_succ_of_le (Nat.le_of_eq hindex)
    all_goals simp [Pc.checkpointing]

theorem aheadAt_moved {cfg : Config} {w w' : World} {a : Action} {i : Nat} (hI : Ordered cfg w)
    (h : Moved cfg w a w') (hi : actor a = some i) : AheadAt cfg w' i := by
  cases h with
  | @run j _ h =>
    obtain rfl : j = i := by simpa [actor] using hi
    exact aheadAt_ran hI h
  | @take j | @failClose j | @crash j =>
    obtain rfl : j = i := by simpa [actor] using hi
    refine .leave ?_ ?_ ?_ <;> simp [Pc.frontier, Pc.checkpointing]
  | @failDatabase j | @fail j =>
    obtain rfl : j = i := by simpa [actor] using hi
    refine .leave ?_ ?_ ?_ <;> cases hpc : (w.workers j).pc <;>
      simp [Pc.onFail, Pc.frontier, Pc.checkpointing]
  | bystander hnone _ =>
    rw [writer_of_actor hi] at hnone
    cases hnone
  | _ => cases hi

/-- While another worker commits a checkpoint, this one is not inside the lock. -/
theorem aheadAt_frame {cfg : Config} {w w' : World} {a : Action} {i : Nat} (hI : Ordered cfg w)
    (h : Moved cfg w a w') (hi : actor a ≠ some i) : AheadAt cfg w' i := by
  have hworker := (moved_frame h hi).worker
  obtain ⟨hfrontier, hinside, hcheckpointing, hadded⟩ := hI.ahead i
  refine ⟨?_, by rwa [hworker], by rwa [hworker], by rwa [hworker]⟩
  rw [hworker]
  rcases moved_checkpoints hI h with hsame | ⟨j, n, c, hj, hpc, -, -⟩
  · rwa [hsame]
  · intro m hm
    have hlock := (hI.sound i).mutex (Pc.inLock_of_frontier hm)
    rw [(hI.sound j).mutex (by rw [hpc]; rfl)] at hlock
    cases hlock
    exact absurd hj hi

theorem ordered_step {cfg : Config} {w w' : World} {a : Action} (hI : Ordered cfg w)
    (h : step cfg w a = some w') : Ordered cfg w' := by
  have hmoved := step_moved h
  have hahead : ∀ i, AheadAt cfg w' i := by
    intro i
    by_cases hi : actor a = some i
    · exact aheadAt_moved hI hmoved hi
    · exact aheadAt_frame hI hmoved hi
  rcases moved_checkpoints hI hmoved with hsame | ⟨i, n, c, -, hpc, hindex, hnew⟩
  · refine ⟨sound_step hI.sound h, ?_, ?_, hahead⟩
    · rw [hsame]
      exact hI.increasing
    · rw [hsame]
      exact hI.flagged
  · refine ⟨sound_step hI.sound h, ?_, ?_, hahead⟩
    · rw [hnew, List.pairwise_append]
      refine ⟨hI.increasing, List.pairwise_singleton _ _, fun d hd e he => ?_⟩
      rw [List.mem_singleton.mp he, hindex]
      exact (hI.ahead i).frontier n (by rw [hpc]; rfl) d hd
    · rw [hnew]
      intro d hd
      rcases List.mem_append.mp hd with hd | hd
      · exact hI.flagged d hd
      · rw [List.mem_singleton.mp hd, hindex]
        exact (hI.ahead i).checkpointing n (by rw [hpc]; rfl)

theorem ordered_initial (cfg : Config) (inputs : List (String × Json)) :
    Ordered cfg (World.initial inputs) := by
  refine ⟨sound_initial inputs, .nil, ?_, fun i => ?_⟩
  · simp [World.initial]
  · refine .leave ?_ ?_ ?_ <;> simp [World.initial, Pc.frontier, Pc.checkpointing]

/-! ## Serial runs -/

/-- Between two serial runs nobody is at work. -/
structure SerialOrdered (cfg : Config) (w : World) : Prop where
  ordered : Ordered cfg w
  others : ∀ i, i ≠ 0 → (w.workers i).pc = .idle

theorem serialOrdered_act {cfg : Config} {w w' : World} {a : Action} (hI : SerialOrdered cfg w)
    (ha : actor a = none ∨ actor a = some 0) (h : step cfg w a = some w') :
    SerialOrdered cfg w' := by
  refine ⟨ordered_step hI.ordered h, fun i hi => ?_⟩
  have hother : actor a ≠ some i := by
    intro hai
    rcases ha with ha | ha
    · rw [ha] at hai
      cases hai
    · rw [ha] at hai
      exact hi (Option.some.inj hai).symm
  rw [(moved_frame (step_moved h) hother).worker]
  exact hI.others i hi

theorem serialOrdered_requeue {cfg : Config} {w w' : World} (hI : SerialOrdered cfg w)
    (h : requeue w = some w') : SerialOrdered cfg w' := by
  unfold requeue at h
  split at h
  · rename_i hidle
    cases h
    have hall : ∀ i, (w.workers i).pc = .idle := by
      intro i
      by_cases hi : i = 0
      · rw [hi]
        exact hidle.1
      · exact hI.others i hi
    have hsound : Sound { w with
        row := .settled { w.row.committed with status := .pending }
        tasks := w.tasks + 1
        lock := none } := by
      intro i
      have hpc := hall i
      have hadded := (hI.ordered.sound i).added
      refine ⟨?_, hadded, (hI.ordered.sound i).clean, ?_, ?_, ?_⟩ <;>
        simp [hpc, Pc.inLock, Pc.isStarting, Pc.hasStarted]
    refine ⟨⟨hsound, hI.ordered.increasing, hI.ordered.flagged, fun i => ?_⟩, hI.others⟩
    obtain ⟨hfrontier, hinside, hcheckpointing, hadded⟩ := hI.ordered.ahead i
    exact ⟨hfrontier, hinside, hcheckpointing, hadded⟩
  · cases h

theorem serialOrdered_step {cfg : Config} {w w' : World} {a : SerialAction}
    (hI : SerialOrdered cfg w) (h : serialStep cfg w a = some w') : SerialOrdered cfg w' := by
  cases a with
  | act a =>
    simp only [serialStep] at h
    split at h
    · exact serialOrdered_act hI ‹_› h
    · cases h
  | requeue => exact serialOrdered_requeue hI h

theorem serialOrdered_initial (cfg : Config) (inputs : List (String × Json)) :
    SerialOrdered cfg (World.initial inputs) :=
  ⟨ordered_initial cfg inputs, fun _ _ => rfl⟩

/-- In every state that serial runs lead to, whatever stops them, and in every state that
any interleaving of workers under the lock leads to, the committed checkpoints are in
order. -/
theorem checkpoints_ordered (cfg : Config) (inputs : List (String × Json)) :
    (∀ as, Along (serialStep cfg) (fun _ _ w => CheckpointsOrdered cfg w.checkpoints)
      (World.initial inputs) as) ∧
    ∀ as, Along (step cfg) (fun _ _ w => CheckpointsOrdered cfg w.checkpoints)
      (World.initial inputs) as := by
  constructor
  · intro as
    refine along_of_invariant (I := SerialOrdered cfg) (G := fun _ _ => True) ?_ ?_
      (serialOrdered_initial cfg inputs) (along_of_mem (fun _ _ => trivial) _)
    · exact fun _ _ _ hI _ h => serialOrdered_step hI h
    · exact fun _ _ _ hI _ h => (serialOrdered_step hI h).ordered.checkpointsOrdered
  · intro as
    refine along_of_invariant (I := Ordered cfg) (G := fun _ _ => True) ?_ ?_
      (ordered_initial cfg inputs) (along_of_mem (fun _ _ => trivial) _)
    · exact fun _ _ _ hI _ h => ordered_step hI h
    · exact fun _ _ _ hI _ h => (ordered_step hI h).checkpointsOrdered

end Sutram.Workflow
