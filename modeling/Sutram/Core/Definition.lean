/-
Workflow definitions: what a client posts, what is stored and what is read again.

A definition is posted as JSON, validated in pydantic's lax mode, stored as the dump of
the model and validated again from the stored JSON when a task runs.  Lax mode turns
some values into others (`"yes"` is a bool, `true` is an int), so the stored JSON need
not be the posted one; but a dump is read back as the model it was made from.

Unknown keys are ignored, and every error is a `ValidationError`, here `none`.
-/
import Sutram.Core.Json
import Sutram.Core.Validation

namespace Sutram.Core

inductive RetryBackoff where
  | exponential | linear | fixed
deriving DecidableEq, Repr

structure StepConfig where
  name : String
  checkpointBefore : Bool := false
  maxRetries : Int := 3
  timeoutSeconds : Int := 300
  retryBackoff : RetryBackoff := .exponential
deriving DecidableEq

structure WorkflowStep where
  config : StepConfig
  inputSchema : List (String × Json) := []
  outputSchema : List (String × Json) := []
deriving DecidableEq

structure WorkflowDefinition where
  steps : List WorkflowStep
  version : Int := 1
deriving DecidableEq

/-! ## Reading JSON -/

/-- What pydantic makes of a float and of a text where an int is asked for. -/
structure Lax where
  ofFloat : String → Option Int
  ofText : String → Option Int

namespace Json

def asStr : Json → Option String
  | .str s => some s
  | _ => none

def asInt (lax : Lax) : Json → Option Int
  | .int n => some n
  | .bool b => some (if b then 1 else 0)
  | .float repr => lax.ofFloat repr
  | .str s => lax.ofText s
  | _ => none

/-- Of the numbers, 0 and 1 are bools. -/
def intAsBool (n : Int) : Option Bool :=
  if n = 0 then some false else if n = 1 then some true else none

def asBool (lax : Lax) : Json → Option Bool
  | .bool b => some b
  | .int n => intAsBool n
  | .float repr => (lax.ofFloat repr).bind intAsBool
  | .str s => (Coerce.bool s).toOption
  | _ => none

def asDict : Json → Option (List (String × Json))
  | .dict kvs => some kvs
  | _ => none

def asList : Json → Option (List Json)
  | .list xs => some xs
  | _ => none

def field {α : Type} (kvs : List (String × Json)) (name : String) (read : Json → Option α) :
    Option α :=
  (kvs.lookup name).bind read

/-- A field with a default. -/
def fieldOr {α : Type} (kvs : List (String × Json)) (name : String) (default : α)
    (read : Json → Option α) : Option α :=
  match kvs.lookup name with
  | some j => read j
  | none => some default

end Json

/-! ## The models -/

namespace RetryBackoff

def value : RetryBackoff → String
  | exponential => "exponential"
  | linear => "linear"
  | fixed => "fixed"

def ofJson : Json → Option RetryBackoff
  | .str s => [exponential, linear, fixed].find? fun r => r.value = s
  | _ => none

theorem ofJson_value (r : RetryBackoff) : ofJson (.str r.value) = some r := by
  cases r <;> rfl

end RetryBackoff

namespace StepConfig

def modelDump (c : StepConfig) : Json :=
  .dict [("name", .str c.name), ("checkpoint_before", .bool c.checkpointBefore),
    ("max_retries", .int c.maxRetries), ("timeout_seconds", .int c.timeoutSeconds),
    ("retry_backoff", .str c.retryBackoff.value)]

def modelValidate (lax : Lax) (j : Json) : Option StepConfig := do
  let kvs ← j.asDict
  let name ← Json.field kvs "name" Json.asStr
  let checkpointBefore ← Json.fieldOr kvs "checkpoint_before" false (Json.asBool lax)
  let maxRetries ← Json.fieldOr kvs "max_retries" 3 (Json.asInt lax)
  let timeoutSeconds ← Json.fieldOr kvs "timeout_seconds" 300 (Json.asInt lax)
  let retryBackoff ← Json.fieldOr kvs "retry_backoff" .exponential RetryBackoff.ofJson
  return { name, checkpointBefore, maxRetries, timeoutSeconds, retryBackoff }

theorem modelValidate_modelDump (lax : Lax) (c : StepConfig) :
    modelValidate lax c.modelDump = some c := by
  have hbackoff := RetryBackoff.ofJson_value c.retryBackoff
  simp only [modelValidate, modelDump, Json.asDict, Json.field, Json.fieldOr, List.lookup_cons,
    String.reduceBEq, Json.asStr, Json.asBool, Json.asInt, hbackoff, Option.bind_eq_bind,
    Option.bind_some, Option.pure_def]

end StepConfig

namespace WorkflowStep

def modelDump (s : WorkflowStep) : Json :=
  .dict [("config", s.config.modelDump), ("input_schema", .dict s.inputSchema),
    ("output_schema", .dict s.outputSchema)]

def modelValidate (lax : Lax) (j : Json) : Option WorkflowStep := do
  let kvs ← j.asDict
  let config ← Json.field kvs "config" (StepConfig.modelValidate lax)
  let inputSchema ← Json.fieldOr kvs "input_schema" [] Json.asDict
  let outputSchema ← Json.fieldOr kvs "output_schema" [] Json.asDict
  return { config, inputSchema, outputSchema }

theorem modelValidate_modelDump (lax : Lax) (s : WorkflowStep) :
    modelValidate lax s.modelDump = some s := by
  have hconfig := StepConfig.modelValidate_modelDump lax s.config
  simp only [modelValidate, modelDump, Json.asDict, Json.field, Json.fieldOr, List.lookup_cons,
    String.reduceBEq, hconfig, Option.bind_eq_bind, Option.bind_some, Option.pure_def]

end WorkflowStep

namespace WorkflowDefinition

def modelDump (d : WorkflowDefinition) : Json :=
  .dict [("steps", .list (d.steps.map WorkflowStep.modelDump)), ("version", .int d.version)]

def modelValidate (lax : Lax) (j : Json) : Option WorkflowDefinition := do
  let kvs ← j.asDict
  let steps ← Json.field kvs "steps" fun j =>
    j.asList.bind fun xs => xs.mapM (WorkflowStep.modelValidate lax)
  let version ← Json.fieldOr kvs "version" 1 (Json.asInt lax)
  return { steps, version }

theorem mapM_modelDump (lax : Lax) (steps : List WorkflowStep) :
    (steps.map WorkflowStep.modelDump).mapM (WorkflowStep.modelValidate lax) = some steps := by
  induction steps with
  | nil => rfl
  | cons s rest ih =>
    simp only [List.map_cons, List.mapM_cons, WorkflowStep.modelValidate_modelDump, ih,
      Option.bind_eq_bind, Option.bind_some, Option.pure_def]

/-- The stored JSON is read back as the definition it was made from. -/
theorem modelValidate_modelDump (lax : Lax) (d : WorkflowDefinition) :
    modelValidate lax d.modelDump = some d := by
  have hsteps := mapM_modelDump lax d.steps
  simp only [modelValidate, modelDump, Json.asDict, Json.field, Json.fieldOr, List.lookup_cons,
    String.reduceBEq, Json.asList, Json.asInt, hsteps, Option.bind_eq_bind, Option.bind_some,
    Option.pure_def]

end WorkflowDefinition

end Sutram.Core
