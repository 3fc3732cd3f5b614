/-
Kept traces over whole runs.

An execution with a failed step, or a slow one, is complete in the database once its
messages are acknowledged, if the run leaves it undisturbed until then.
-/
import Sutram.Observability.Tracking

namespace Sutram.Observability

open Sutram.Core Runs

variable {F D : Type} {n : Nat}

variable (cfg : Config F D) (e : Uuid)

/-! ## Whole runs -/

theorem tracked_initial : Tracked cfg e (World.initial : World F D n) where
  acked _ _ hi := by cases hi
  work _ := trivial
  kept _ hmem := by cases hmem
  flagged := .inr fun _ hmem => by cases hmem

/-- An execution that must be kept is complete in the database once its messages are
acknowledged, in every run whose steps leave it undisturbed until then. -/
theorem kept_traces_complete {w : World F D n} {as : List (Action D n)}
    (hmust : MustKeep cfg e) (hcompleted : ∃ data ∈ cfg.stream, IsCompleted e data)
    (hundisturbed : Along (step cfg) (fun w a _ => Undisturbed cfg e w a) World.initial as)
    (hrun : run (step cfg) World.initial as = some w) (hacked : AllAcked cfg e w) :
    Complete cfg e w := by
  have hend : Complete cfg e w ∨ Tracked cfg e w :=
    invariant_run (fun _ _ _ => step_complete_or_tracked hmust) (.inr (tracked_initial cfg e))
      hundisturbed hrun
  refine hend.resolve_right fun h => ?_
  obtain ⟨data, hmem, hisCompleted⟩ := hcompleted
  obtain ⟨i, hi⟩ := List.mem_iff_getElem?.mp hmem
  exact h.acked i data (hacked i data hi hisCompleted.1) hi hisCompleted

/-! ## A fast execution with a failed step -/

section Example

def failedStep : Event Unit Unit :=
  .stepFailed
    { traceId := Uuid.repdigit 1, tenantId := Uuid.repdigit 2, timestamp := (),
      executionId := Uuid.repdigit 3, workflowId := Uuid.repdigit 4, stepName := "fetch",
      stepIndex := 0, errorType := "ToolTimeoutError", errorMessage := "timed out" }

def fastCompletion : Event Unit Unit :=
  .executionCompleted
    { traceId := Uuid.repdigit 6, tenantId := Uuid.repdigit 2, timestamp := (),
      executionId := Uuid.repdigit 3, workflowId := Uuid.repdigit 4, status := .completed,
      totalDurationMs := 500, totalCostUsd := (), totalSteps := 1 }

def failedExecution : Config Unit Unit where
  scalars := plainScalars
  builtins :=
    ⟨fun text => (plainInt text).toOption, fun text => if text = "0.0" then some () else none⟩
  slowThresholdMs := 30000
  stream := [failedStep.toStreamDict plainScalars, fastCompletion.toStreamDict plainScalars]

def take (i : Nat) : Action Unit 1 := .deliver 0 i ⟨Uuid.repdigit 0, ()⟩

/-- A step in which a draw, if one is made, is not below the sample rate. -/
def proceed : Action Unit 1 := .advance 0 ⟨false, fun _ => ⟨Uuid.repdigit 0, Uuid.repdigit 0⟩⟩

/-- The crash comes after the DELETE of the flush; the second delivery finds no flag. -/
def crashAfterFlush : List (Action Unit 1) :=
  [take 0, proceed, proceed, proceed, proceed, proceed,
    take 1, proceed, proceed, proceed, .crash 0,
    take 1, proceed, proceed, proceed, proceed, proceed]

theorem trace_lost_after_flush :
    ∃ w, run (step failedExecution) World.initial crashAfterFlush = some w ∧
      AllAcked failedExecution (Uuid.repdigit 3) w ∧
      ¬ Complete failedExecution (Uuid.repdigit 3) w := by
  have hend : (run (step failedExecution) World.initial crashAfterFlush).any fun w =>
      (∀ i < failedExecution.stream.length, i ∈ w.acked) ∧
        ¬ Complete failedExecution (Uuid.repdigit 3) w := by
    decide +kernel
  obtain ⟨w, hrun, hacked, hnot⟩ := exists_of_any hend
  exact ⟨w, hrun, allAcked_of_forall _ _ hacked, hnot⟩

def undisturbedSchedule : List (Action Unit 1) :=
  [take 0, proceed, proceed, proceed, proceed, proceed,
    take 1, proceed, proceed, proceed, proceed, proceed, proceed]

theorem kept_traces_complete_undisturbed :
    ∃ w, run (step failedExecution) World.initial undisturbedSchedule = some w ∧
      Complete failedExecution (Uuid.repdigit 3) w := by
  have hend : (run (step failedExecution) World.initial undisturbedSchedule).any fun w =>
      ∀ i < failedExecution.stream.length, i ∈ w.acked := by
    decide +kernel
  obtain ⟨w, hrun, hw⟩ := exists_of_any hend
  exact ⟨w, hrun, kept_traces_complete failedExecution (Uuid.repdigit 3) (by decide +kernel)
    (by decide +kernel) (by decide +kernel) hrun (allAcked_of_forall _ _ hw)⟩

end Example

end Sutram.Observability
