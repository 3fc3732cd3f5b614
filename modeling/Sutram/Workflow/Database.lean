/-
The tables of the workflow service.

Timestamps that only record when a row was written are left out.  An execution carries
the `ExecutionRow` that the executor works on.
-/
import Sutram.Core.RowSecurity
import Sutram.Library.Table
import Sutram.Workflow.Models

namespace Sutram.Workflow

open Sutram.Core

/-- `definition` is the dump of a validated `WorkflowDefinition`. -/
structure WorkflowORM where
  id : Uuid
  tenantId : Uuid
  name : String
  description : String
  definition : Json
  version : Int := 1
deriving DecidableEq

structure WorkflowExecutionORM where
  id : Uuid
  tenantId : Uuid
  workflowId : Uuid
  row : ExecutionRow
  definitionSnapshot : Option Json
deriving DecidableEq

structure WebhookSubscriptionORM where
  id : Uuid
  tenantId : Uuid
  url : String
  secretEncrypted : String
  events : List String
  active : Bool
deriving DecidableEq

inductive DeliveryStatus where
  | pending | delivered | failed | deadLettered
deriving DecidableEq, Repr

structure WebhookDeliveryORM where
  id : Uuid
  subscriptionId : Uuid
  tenantId : Uuid
  eventType : String
  payload : List (String × Json)
  status : DeliveryStatus := .pending
  attemptCount : Nat := 0
  lastAttemptAt : Option Nat := none
  nextRetryAt : Option Nat := none
  responseCode : Option Nat := none
  responseBody : Option String := none
deriving DecidableEq

/-- Workflows and executions refer to `tenants`. -/
structure Database where
  tenants : List Uuid := []
  workflows : Table WorkflowORM.id := .empty
  executions : Table WorkflowExecutionORM.id := .empty
  webhookSubscriptions : Table WebhookSubscriptionORM.id := .empty
  webhookDeliveries : Table WebhookDeliveryORM.id := .empty

end Sutram.Workflow
