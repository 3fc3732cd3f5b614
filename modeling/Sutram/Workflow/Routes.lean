/-
The routes of the workflow service.

Each route is a function of the tenant, the request and the database: the tenant comes
from the gateway's header, and row-level security is bypassed.  What a request draws
from outside (a UUID, a secret, a nonce, the broker's answer) is given to it.
-/
import Sutram.Workflow.Database
import Sutram.Workflow.System
import Sutram.Workflow.UrlValidator

namespace Sutram.Workflow

open Sutram.Core

/-- The library functions of the routes and of the webhook task.  `encryptSecret` takes
the nonce and the secret. -/
structure Service extends UrlLibrary where
  encryptSecret : String → String → Option String
  decryptSecret : String → Option String

structure Draws where
  uuid : Uuid
  secret : String
  nonce : String
  brokerAccepts : Bool
deriving DecidableEq

/-! ## Responses -/

structure WorkflowResponse where
  id : Uuid
  tenantId : Uuid
  name : String
  description : String
  version : Int
deriving DecidableEq

structure ExecutionResponse where
  id : Uuid
  tenantId : Uuid
  workflowId : Uuid
  status : ExecutionStatus
  errorMessage : Option String
  pauseReason : Option String
deriving DecidableEq

structure WebhookSubscriptionResponse where
  id : Uuid
  tenantId : Uuid
  url : String
  events : List String
  active : Bool
deriving DecidableEq

/-- The secret is shown once, at registration. -/
structure WebhookRegistrationResponse where
  id : Uuid
  tenantId : Uuid
  url : String
  events : List String
  secret : String
deriving DecidableEq

inductive Body where
  | workflow (r : WorkflowResponse)
  | execution (r : ExecutionResponse)
  | registration (r : WebhookRegistrationResponse)
  | webhooks (rs : List WebhookSubscriptionResponse)
  | eventStream
  | empty
  | detail (text : String)
deriving DecidableEq

structure Response where
  statusCode : Nat
  body : Body
deriving DecidableEq

namespace Response

def notFound (what : String) : Response := ⟨404, .detail (what ++ " not found")⟩

/-- An exception that no route handles. -/
def serverError : Response := ⟨500, .detail "Internal Server Error"⟩

end Response

def WorkflowResponse.ofORM (wf : WorkflowORM) : WorkflowResponse :=
  ⟨wf.id, wf.tenantId, wf.name, wf.description, wf.version⟩

def ExecutionResponse.ofORM (ex : WorkflowExecutionORM) : ExecutionResponse :=
  ⟨ex.id, ex.tenantId, ex.workflowId, ex.row.status, ex.row.errorMessage, ex.row.pauseReason⟩

def WebhookSubscriptionResponse.ofORM (sub : WebhookSubscriptionORM) :
    WebhookSubscriptionResponse :=
  ⟨sub.id, sub.tenantId, sub.url, sub.events, sub.active⟩

/-! ## Workflows -/

structure CreateWorkflowRequest where
  name : String
  description : String := ""
  definition : Json
deriving DecidableEq

def createWorkflow (body : CreateWorkflowRequest) (draws : Draws) (tenantId : Uuid)
    (db : Database) : Database × Response :=
  let wf : WorkflowORM :=
    ⟨draws.uuid, tenantId, body.name, body.description, body.definition, 1⟩
  if tenantId ∉ db.tenants then (db, .serverError)
  else
    match db.workflows.insert wf with
    | some workflows => ({ db with workflows }, ⟨201, .workflow (.ofORM wf)⟩)
    | none => (db, .serverError)

def getWorkflow (workflowId tenantId : Uuid) (db : Database) : Database × Response :=
  match db.workflows.find? fun wf => wf.id = workflowId && wf.tenantId = tenantId with
  | some wf => (db, ⟨200, .workflow (.ofORM wf)⟩)
  | none => (db, .notFound "Workflow")

/-! ## Executions -/

/-- The workflow is looked up by its id alone. -/
def execute (workflowId : Uuid) (inputs : List (String × Json)) (draws : Draws) (tenantId : Uuid)
    (db : Database) : Database × Response :=
  match db.workflows.find? fun wf => wf.id = workflowId with
  | none => (db, .notFound "Workflow")
  | some workflow =>
    let execution : WorkflowExecutionORM :=
      ⟨draws.uuid, tenantId, workflowId, { context := { contextVariables := inputs } },
        some workflow.definition⟩
    if tenantId ∉ db.tenants then (db, .serverError)
    else
      match db.executions.insert execution with
      | none => (db, .serverError)
      -- The row is committed before the task is enqueued.
      | some executions =>
        ({ db with executions },
          if draws.brokerAccepts then ⟨202, .execution (.ofORM execution)⟩ else .serverError)

/-- The SELECT of the other execution routes. -/
def findExecution (executionId tenantId : Uuid) (db : Database) : Option WorkflowExecutionORM :=
  db.executions.find? fun ex => ex.id = executionId && ex.tenantId = tenantId

def getExecution (executionId tenantId : Uuid) (db : Database) : Database × Response :=
  match findExecution executionId tenantId db with
  | some ex => (db, ⟨200, .execution (.ofORM ex)⟩)
  | none => (db, .notFound "Execution")

/-- `pause_execution`, `resume_execution` and `cancel_execution`. -/
def controlExecution (kind : RequestKind) (executionId : Uuid) (draws : Draws) (tenantId : Uuid)
    (db : Database) : Database × Response :=
  match findExecution executionId tenantId db with
  | none => (db, .notFound "Execution")
  | some ex =>
    match (ExecutionFSM.mk ex.row.status).transition kind.route.trigger with
    | .error e => (db, ⟨409, .detail e.message⟩)
    | .ok fsm =>
      let assign (e : WorkflowExecutionORM) : WorkflowExecutionORM :=
        { e with row := kind.route.assign fsm.status e.row }
      ({ db with executions := db.executions.modify ex.id assign fun _ => rfl },
        if kind.route.enqueues ∧ ¬ draws.brokerAccepts then .serverError
        else ⟨200, .execution (.ofORM (assign ex))⟩)

/-- Up to the start of the event stream. -/
def streamExecution (executionId tenantId : Uuid) (db : Database) : Database × Response :=
  match findExecution executionId tenantId db with
  | some _ => (db, ⟨200, .eventStream⟩)
  | none => (db, .notFound "Execution")

/-! ## Webhooks -/

structure WebhookSubscriptionCreate where
  url : String
  events : List String := ["execution.completed"]
deriving DecidableEq

def createWebhook (svc : Service) (now : Nat) (body : WebhookSubscriptionCreate) (draws : Draws)
    (tenantId : Uuid) (db : Database) : Database × Response :=
  match validateWebhookUrl svc.toUrlLibrary now body.url with
  | .error e => (db, ⟨422, .detail (e.message svc.toUrlLibrary)⟩)
  | .ok _ =>
    match svc.encryptSecret draws.nonce draws.secret with
    | none => (db, .serverError)
    | some encrypted =>
      let sub : WebhookSubscriptionORM :=
        ⟨draws.uuid, tenantId, body.url, encrypted, body.events, true⟩
      match db.webhookSubscriptions.insert sub with
      | none => (db, .serverError)
      | some webhookSubscriptions =>
        ({ db with webhookSubscriptions },
          ⟨201, .registration ⟨sub.id, sub.tenantId, sub.url, sub.events, draws.secret⟩⟩)

def listWebhooks (tenantId : Uuid) (db : Database) : Database × Response :=
  let subs := db.webhookSubscriptions.select fun sub => sub.active && sub.tenantId = tenantId
  (db, ⟨200, .webhooks (subs.map .ofORM)⟩)

def deactivate (sub : WebhookSubscriptionORM) : WebhookSubscriptionORM :=
  { sub with active := false }

theorem deactivate_id (sub : WebhookSubscriptionORM) : (deactivate sub).id = sub.id := rfl

/-- A soft delete. -/
def deleteWebhook (webhookId tenantId : Uuid) (db : Database) : Database × Response :=
  match db.webhookSubscriptions.find? fun sub => sub.id = webhookId && sub.tenantId = tenantId with
  | none => (db, .notFound "Webhook subscription")
  | some sub =>
    ({ db with
      webhookSubscriptions := db.webhookSubscriptions.modify sub.id deactivate deactivate_id },
      ⟨204, .empty⟩)

/-! ## The service -/

inductive RouteRequest where
  | createWorkflow (body : CreateWorkflowRequest)
  | getWorkflow (workflowId : Uuid)
  | execute (workflowId : Uuid) (inputs : List (String × Json))
  | getExecution (executionId : Uuid)
  | control (kind : RequestKind) (executionId : Uuid)
  | stream (executionId : Uuid)
  | createWebhook (body : WebhookSubscriptionCreate)
  | listWebhooks
  | deleteWebhook (webhookId : Uuid)
deriving DecidableEq

def respond (svc : Service) (now : Nat) (tenantId : Uuid) (draws : Draws) (db : Database) :
    RouteRequest → Database × Response
  | .createWorkflow body => createWorkflow body draws tenantId db
  | .getWorkflow workflowId => getWorkflow workflowId tenantId db
  | .execute workflowId inputs => execute workflowId inputs draws tenantId db
  | .getExecution executionId => getExecution executionId tenantId db
  | .control kind executionId => controlExecution kind executionId draws tenantId db
  | .stream executionId => streamExecution executionId tenantId db
  | .createWebhook body => createWebhook svc now body draws tenantId db
  | .listWebhooks => listWebhooks tenantId db
  | .deleteWebhook webhookId => deleteWebhook webhookId tenantId db

end Sutram.Workflow
