/-
The enumerations of the shared models, with the strings they stand for.
-/
import Sutram.Core.Validation

namespace Sutram.Core

inductive ExecutionStatus where
  | pending | running | paused | completed | failed | cancelled
deriving DecidableEq, Repr, Inhabited

namespace ExecutionStatus

def value : ExecutionStatus → String
  | pending => "PENDING"
  | running => "RUNNING"
  | paused => "PAUSED"
  | completed => "COMPLETED"
  | failed => "FAILED"
  | cancelled => "CANCELLED"

def all : List ExecutionStatus := [pending, running, paused, completed, failed, cancelled]

def coerce : Coerce ExecutionStatus := Coerce.enum all value

theorem coerce_value (s : ExecutionStatus) : coerce s.value = .ok s := by cases s <;> rfl

end ExecutionStatus

inductive MemoryType where
  | episodic | semantic | procedural
deriving DecidableEq, Repr

namespace MemoryType

def value : MemoryType → String
  | episodic => "episodic"
  | semantic => "semantic"
  | procedural => "procedural"

def all : List MemoryType := [episodic, semantic, procedural]

def coerce : Coerce MemoryType := Coerce.enum all value

theorem coerce_value (t : MemoryType) : coerce t.value = .ok t := by cases t <;> rfl

end MemoryType

end Sutram.Core
