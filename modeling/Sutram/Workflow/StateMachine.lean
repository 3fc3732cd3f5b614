/-
The execution status machine.

`transitions` is the table of valid transitions and `ExecutionFSM.transition` the
only way the service computes a next status.  An `Edge` is a pair of statuses the
table connects; which status may follow which is always a question about edges.
-/
import Mathlib.Data.List.Basic
import Sutram.Core.Models

namespace Sutram.Workflow

open Sutram.Core

/-- The trigger names of the transition table. -/
inductive Trigger where
  | submit | allStepsDone | error | costExceeded | manualPause | fatalError
  | maxRetriesExceeded | cancel | resume
deriving DecidableEq, Repr

namespace Trigger

def value : Trigger → String
  | submit => "submit"
  | allStepsDone => "all_steps_done"
  | error => "error"
  | costExceeded => "cost_exceeded"
  | manualPause => "manual_pause"
  | fatalError => "fatal_error"
  | maxRetriesExceeded => "max_retries_exceeded"
  | cancel => "cancel"
  | resume => "resume"

end Trigger

/-- The valid transitions of each status.  The three terminal statuses have none. -/
def transitions : ExecutionStatus → List (Trigger × ExecutionStatus)
  | .pending => [(.submit, .running)]
  | .running =>
    [(.allStepsDone, .completed), (.error, .paused), (.costExceeded, .paused),
      (.manualPause, .paused), (.fatalError, .failed), (.maxRetriesExceeded, .failed),
      (.cancel, .cancelled)]
  | .paused =>
    -- The API re-queues as PENDING; a worker takes PENDING to RUNNING on pickup.
    [(.resume, .pending), (.cancel, .cancelled)]
  | .completed | .failed | .cancelled => []

/-- The statuses the executor's redelivery guard refuses. -/
def terminalStatuses : List ExecutionStatus := [.completed, .failed, .cancelled]

abbrev Terminal (s : ExecutionStatus) : Prop := s ∈ terminalStatuses

theorem terminal_iff_no_transitions (s : ExecutionStatus) :
    Terminal s ↔ transitions s = [] := by
  cases s <;> simp [Terminal, terminalStatuses, transitions]

structure InvalidTransitionError where
  message : String
deriving DecidableEq, Repr

structure ExecutionFSM where
  status : ExecutionStatus
deriving DecidableEq, Repr, Inhabited

namespace ExecutionFSM

/-- The triggers named in the error message, or a note that there are none. -/
def validTriggers (s : ExecutionStatus) : String :=
  match (transitions s).map fun p => "'" ++ p.1.value ++ "'" with
  | [] => "none (terminal state)"
  | names => "[" ++ String.intercalate ", " names ++ "]"

def invalid (s : ExecutionStatus) (trigger : Trigger) : InvalidTransitionError :=
  ⟨"Cannot apply trigger '" ++ trigger.value ++ "' to execution in state '" ++ s.value ++
    "'. Valid triggers: " ++ validTriggers s⟩

/-- Apply a trigger, or refuse it when the table has no entry. -/
def transition (fsm : ExecutionFSM) (trigger : Trigger) :
    Except InvalidTransitionError ExecutionFSM :=
  match (transitions fsm.status).lookup trigger with
  | some next => .ok ⟨next⟩
  | none => .error (invalid fsm.status trigger)

end ExecutionFSM

/-- The table takes `s` to `t` by some trigger. -/
def Edge (s t : ExecutionStatus) : Prop := ∃ trigger, (transitions s).lookup trigger = some t

theorem edge_iff (s t : ExecutionStatus) :
    Edge s t ↔ ∃ p ∈ transitions s, p.2 = t := by
  constructor
  · rintro ⟨trigger, h⟩
    obtain ⟨front, back, heq, -⟩ := List.lookup_eq_some_iff.mp h
    exact ⟨(trigger, t), by rw [heq]; simp, rfl⟩
  · rintro ⟨⟨trigger, t'⟩, hmem, rfl⟩
    refine ⟨trigger, ?_⟩
    cases s <;> simp only [transitions, List.mem_cons, List.not_mem_nil, or_false,
      Prod.mk.injEq] at hmem
    · obtain ⟨rfl, rfl⟩ := hmem
      rfl
    · rcases hmem with h | h | h | h | h | h | h <;> obtain ⟨rfl, rfl⟩ := h <;> rfl
    · rcases hmem with h | h <;> obtain ⟨rfl, rfl⟩ := h <;> rfl

instance (s t : ExecutionStatus) : Decidable (Edge s t) :=
  decidable_of_iff _ (edge_iff s t).symm

/-- A status may be overwritten by `t`: it is `t` already, or the table takes it
there. -/
def Admits (s t : ExecutionStatus) : Prop := s = t ∨ Edge s t

instance (s t : ExecutionStatus) : Decidable (Admits s t) :=
  inferInstanceAs (Decidable (s = t ∨ Edge s t))

/-- No transition leaves a terminal status. -/
theorem terminal_no_edge {s t : ExecutionStatus} (h : Terminal s) : ¬ Edge s t := by
  rw [edge_iff, (terminal_iff_no_transitions s).mp h]
  simp

/-! ## The transitions the worker and the routes ask for -/

/-- `submit` is accepted in PENDING alone. -/
theorem transition_submit {fsm fsm' : ExecutionFSM} (h : fsm.transition .submit = .ok fsm') :
    fsm.status = .pending ∧ fsm'.status = .running := by
  obtain ⟨s⟩ := fsm
  cases s <;> cases h
  exact ⟨rfl, rfl⟩

/-- A delivery that read anything else is refused. -/
theorem transition_submit_refused {s : ExecutionStatus} (h : s ≠ .pending) :
    (ExecutionFSM.mk s).transition .submit = .error (ExecutionFSM.invalid s .submit) := by
  cases s <;> first | exact absurd rfl h | rfl

end Sutram.Workflow
