/-
Tenant isolation of the routes.

Two databases that agree on a tenant's rows are served the same requests of that tenant.
Every route but one names the tenant in its statements, so it answers the same and
leaves the databases in agreement.  `execute` looks the workflow up by its id alone: it
tells the tenant whether another tenant has a workflow with that id, and copies that
workflow's definition into the tenant's own execution.
-/
import Sutram.Workflow.Routes

namespace Sutram.Workflow

open Sutram.Core

/-! ## Two databases and one tenant -/

/-- The tenant exists in both databases and has the same rows in them. -/
structure AgreeOn (t : Uuid) (db₁ db₂ : Database) : Prop where
  tenant₁ : t ∈ db₁.tenants
  tenant₂ : t ∈ db₂.tenants
  workflows : Table.Agree WorkflowORM.tenantId t db₁.workflows db₂.workflows
  executions : Table.Agree WorkflowExecutionORM.tenantId t db₁.executions db₂.executions
  webhookSubscriptions :
    Table.Agree WebhookSubscriptionORM.tenantId t db₁.webhookSubscriptions db₂.webhookSubscriptions
  webhookDeliveries :
    Table.Agree WebhookDeliveryORM.tenantId t db₁.webhookDeliveries db₂.webhookDeliveries

/-- A request with what it draws from outside. -/
structure Incoming where
  now : Nat
  draws : Draws
  request : RouteRequest

/-- The requests of one tenant, one after the other. -/
def serve (svc : Service) (t : Uuid) : Database → List Incoming → Database × List Response
  | db, [] => (db, [])
  | db, q :: qs =>
    let (db', r) := respond svc q.now t q.draws db q.request
    let (db'', rs) := serve svc t db' qs
    (db'', r :: rs)

/-- The ids of the rows that a request can add to. -/
def Database.ids (db : Database) : List Uuid :=
  db.workflows.rows.map WorkflowORM.id ++ db.executions.rows.map WorkflowExecutionORM.id ++
    db.webhookSubscriptions.rows.map WebhookSubscriptionORM.id

/-- `uuid4` repeats no id. -/
def FreshIds (db : Database) (qs : List Incoming) : Prop :=
  (qs.map fun q => q.draws.uuid).Nodup ∧ ∀ q ∈ qs, q.draws.uuid ∉ db.ids

/-- The definition another tenant's workflow has under this id. -/
def foreignDefinition (t : Uuid) (db : Database) (workflowId : Uuid) : Option Json :=
  (db.workflows.find? fun wf => wf.id = workflowId && wf.tenantId ≠ t).map WorkflowORM.definition

/-- The workflow ids the requests execute. -/
def executedIds (qs : List Incoming) : List Uuid :=
  qs.filterMap fun q =>
    match q.request with
    | .execute workflowId _ => some workflowId
    | _ => none

/-! ## One request -/

/-- The same response, and databases that agree. -/
structure SameFor (t : Uuid) (a b : Database × Response) : Prop where
  response : a.2 = b.2
  agree : AgreeOn t a.1 b.1

section OneRequest

variable {t : Uuid} {db₁ db₂ : Database} {draws : Draws}

theorem AgreeOn.same (h : AgreeOn t db₁ db₂) (r : Response) : SameFor t (db₁, r) (db₂, r) :=
  ⟨rfl, h⟩

theorem AgreeOn.findExecution (h : AgreeOn t db₁ db₂) (executionId : Uuid) :
    findExecution executionId t db₁ = findExecution executionId t db₂ :=
  h.executions.find? fun ex => ex.id = executionId

/-- Where the other tenants' workflows look the same, so does the lookup of `execute`. -/
theorem AgreeOn.definition (h : AgreeOn t db₁ db₂) {workflowId : Uuid}
    (hforeign : foreignDefinition t db₁ workflowId = foreignDefinition t db₂ workflowId) :
    (db₁.workflows.find? fun wf => wf.id = workflowId).map WorkflowORM.definition =
      (db₂.workflows.find? fun wf => wf.id = workflowId).map WorkflowORM.definition := by
  rw [Table.find?_key_split WorkflowORM.tenantId db₁.workflows workflowId t,
    Table.find?_key_split WorkflowORM.tenantId db₂.workflows workflowId t, Option.map_or,
    Option.map_or, h.workflows.find? fun wf => wf.id = workflowId]
  exact congrArg _ hforeign

theorem same_createWorkflow (h : AgreeOn t db₁ db₂) (body : CreateWorkflowRequest)
    (hnew₁ : draws.uuid ∉ db₁.ids) (hnew₂ : draws.uuid ∉ db₂.ids) :
    SameFor t (createWorkflow body draws t db₁) (createWorkflow body draws t db₂) := by
  simp only [Database.ids, List.mem_append, not_or] at hnew₁ hnew₂
  obtain ⟨wfs₁, h₁⟩ := Table.insert_of_new (T := db₁.workflows)
    (r := ⟨draws.uuid, t, body.name, body.description, body.definition, 1⟩) hnew₁.1.1
  obtain ⟨wfs₂, h₂⟩ := Table.insert_of_new (T := db₂.workflows)
    (r := ⟨draws.uuid, t, body.name, body.description, body.definition, 1⟩) hnew₂.1.1
  simp only [createWorkflow, if_neg (not_not_intro h.tenant₁), if_neg (not_not_intro h.tenant₂),
    h₁, h₂]
  exact ⟨rfl, { h with workflows := h.workflows.insert h₁ h₂ }⟩

theorem same_getWorkflow (h : AgreeOn t db₁ db₂) (workflowId : Uuid) :
    SameFor t (getWorkflow workflowId t db₁) (getWorkflow workflowId t db₂) := by
  unfold getWorkflow
  rw [h.workflows.find? fun wf => wf.id = workflowId]
  split <;> exact h.same _

theorem same_execute (h : AgreeOn t db₁ db₂) {workflowId : Uuid} (inputs : List (String × Json))
    (hnew₁ : draws.uuid ∉ db₁.ids) (hnew₂ : draws.uuid ∉ db₂.ids)
    (hforeign : foreignDefinition t db₁ workflowId = foreignDefinition t db₂ workflowId) :
    SameFor t (execute workflowId inputs draws t db₁) (execute workflowId inputs draws t db₂) := by
  simp only [Database.ids, List.mem_append, not_or] at hnew₁ hnew₂
  have hdefinition := h.definition hforeign
  unfold execute
  cases hwf₁ : db₁.workflows.find? fun wf => wf.id = workflowId with
  | none =>
    rw [hwf₁, Option.map_none, eq_comm, Option.map_eq_none_iff] at hdefinition
    rw [hdefinition]
    exact h.same _
  | some wf₁ =>
    rw [hwf₁, Option.map_some, eq_comm, Option.map_eq_some_iff] at hdefinition
    obtain ⟨wf₂, hwf₂, hsame⟩ := hdefinition
    rw [hwf₂]
    obtain ⟨exs₁, h₁⟩ := Table.insert_of_new (T := db₁.executions)
      (r := ⟨draws.uuid, t, workflowId, { context := { contextVariables := inputs } },
        some wf₁.definition⟩) hnew₁.1.2
    obtain ⟨exs₂, h₂⟩ := Table.insert_of_new (T := db₂.executions)
      (r := ⟨draws.uuid, t, workflowId, { context := { contextVariables := inputs } },
        some wf₁.definition⟩) hnew₂.1.2
    simp only [if_neg (not_not_intro h.tenant₁), if_neg (not_not_intro h.tenant₂), hsame, h₁, h₂]
    exact ⟨rfl, { h with executions := h.executions.insert h₁ h₂ }⟩

theorem same_getExecution (h : AgreeOn t db₁ db₂) (executionId : Uuid) :
    SameFor t (getExecution executionId t db₁) (getExecution executionId t db₂) := by
  unfold getExecution
  rw [h.findExecution]
  split <;> exact h.same _

theorem same_streamExecution (h : AgreeOn t db₁ db₂) (executionId : Uuid) :
    SameFor t (streamExecution executionId t db₁) (streamExecution executionId t db₂) := by
  unfold streamExecution
  rw [h.findExecution]
  split <;> exact h.same _

theorem same_controlExecution (h : AgreeOn t db₁ db₂) (kind : RequestKind) (executionId : Uuid) :
    SameFor t (controlExecution kind executionId draws t db₁)
      (controlExecution kind executionId draws t db₂) := by
  unfold controlExecution
  rw [h.findExecution]
  split
  · exact h.same _
  · split
    · exact h.same _
    · refine ⟨rfl, { h with executions := ?_ }⟩
      apply h.executions.modify
      · exact fun _ => rfl
      · exact fun _ => rfl

theorem same_createWebhook (h : AgreeOn t db₁ db₂) (svc : Service) (now : Nat)
    (body : WebhookSubscriptionCreate) (hnew₁ : draws.uuid ∉ db₁.ids)
    (hnew₂ : draws.uuid ∉ db₂.ids) :
    SameFor t (createWebhook svc now body draws t db₁)
      (createWebhook svc now body draws t db₂) := by
  simp only [Database.ids, List.mem_append, not_or] at hnew₁ hnew₂
  unfold createWebhook
  split
  · exact h.same _
  · split
    · exact h.same _
    · rename_i encrypted _
      obtain ⟨subs₁, h₁⟩ := Table.insert_of_new (T := db₁.webhookSubscriptions)
        (r := ⟨draws.uuid, t, body.url, encrypted, body.events, true⟩) hnew₁.2
      obtain ⟨subs₂, h₂⟩ := Table.insert_of_new (T := db₂.webhookSubscriptions)
        (r := ⟨draws.uuid, t, body.url, encrypted, body.events, true⟩) hnew₂.2
      simp only [h₁, h₂]
      exact ⟨rfl, { h with webhookSubscriptions := h.webhookSubscriptions.insert h₁ h₂ }⟩

theorem same_listWebhooks (h : AgreeOn t db₁ db₂) :
    SameFor t (listWebhooks t db₁) (listWebhooks t db₂) := by
  unfold listWebhooks
  rw [h.webhookSubscriptions.select fun sub => sub.active]
  exact h.same _

theorem same_deleteWebhook (h : AgreeOn t db₁ db₂) (webhookId : Uuid) :
    SameFor t (deleteWebhook webhookId t db₁) (deleteWebhook webhookId t db₂) := by
  unfold deleteWebhook
  rw [h.webhookSubscriptions.find? fun sub => sub.id = webhookId]
  split
  · exact h.same _
  · refine ⟨rfl, { h with webhookSubscriptions := ?_ }⟩
    exact h.webhookSubscriptions.modify deactivate_id fun _ => rfl

end OneRequest

/-- A request of the tenant, when it executes no workflow id that the other tenants' rows
tell apart. -/
theorem same_respond (svc : Service) (now : Nat) {t : Uuid} {draws : Draws} {db₁ db₂ : Database}
    {r : RouteRequest} (h : AgreeOn t db₁ db₂) (hnew₁ : draws.uuid ∉ db₁.ids)
    (hnew₂ : draws.uuid ∉ db₂.ids)
    (hforeign : ∀ workflowId inputs, r = .execute workflowId inputs →
      foreignDefinition t db₁ workflowId = foreignDefinition t db₂ workflowId) :
    SameFor t (respond svc now t draws db₁ r) (respond svc now t draws db₂ r) := by
  cases r with
  | createWorkflow body => exact same_createWorkflow h body hnew₁ hnew₂
  | getWorkflow workflowId => exact same_getWorkflow h workflowId
  | execute workflowId inputs =>
    exact same_execute h inputs hnew₁ hnew₂ (hforeign workflowId inputs rfl)
  | getExecution executionId => exact same_getExecution h executionId
  | control kind executionId => exact same_controlExecution h kind executionId
  | stream executionId => exact same_streamExecution h executionId
  | createWebhook body => exact same_createWebhook h svc now body hnew₁ hnew₂
  | listWebhooks => exact same_listWebhooks h
  | deleteWebhook webhookId => exact same_deleteWebhook h webhookId

/-! ## What a request keeps -/

/-- What no request changes of an execution. -/
def WorkflowExecutionORM.fixed (ex : WorkflowExecutionORM) : Uuid × Uuid × Option Json :=
  (ex.id, ex.tenantId, ex.definitionSnapshot)

/-- What a request of tenant `t` leaves: the executions, and other tenants' workflows.
It adds no id but the one it has drawn. -/
structure Left (t id : Uuid) (db db' : Database) : Prop where
  executions : Table.Keeps WorkflowExecutionORM.fixed db.executions db'.executions
  foreign : ∀ workflowId, foreignDefinition t db' workflowId = foreignDefinition t db workflowId
  ids : ∀ x ∈ db'.ids, x ∈ db.ids ∨ x = id

theorem Left.refl (t id : Uuid) (db : Database) : Left t id db db :=
  ⟨.refl _, fun _ => rfl, fun _ => .inl⟩

theorem left_respond (svc : Service) (now : Nat) (t : Uuid) (draws : Draws) (db : Database)
    (r : RouteRequest) : Left t draws.uuid db (respond svc now t draws db r).1 := by
  cases r with
  | createWorkflow body =>
    simp only [respond, createWorkflow]
    split
    · exact .refl ..
    · split
      · rename_i wfs h
        have hrows := Table.insert_eq_some h
        refine ⟨.refl _, fun workflowId => ?_, fun x hx => ?_⟩
        · simp [foreignDefinition, Table.find?, hrows]
        · simp only [Database.ids, List.mem_append, Table.mem_keys_of_insert h] at hx ⊢
          tauto
      · exact .refl ..
  | execute workflowId inputs =>
    simp only [respond, execute]
    split
    · exact .refl ..
    · split
      · exact .refl ..
      · split
        · exact .refl ..
        · rename_i exs h
          refine ⟨.insert h, fun _ => rfl, fun x hx => ?_⟩
          simp only [Database.ids, List.mem_append, Table.mem_keys_of_insert h] at hx ⊢
          tauto
  | control kind executionId =>
    simp only [respond, controlExecution]
    split
    · exact .refl ..
    · split
      · exact .refl ..
      · refine ⟨?_, fun _ => rfl, fun x hx => .inl ?_⟩
        · apply Table.Keeps.modify
          · exact fun _ => rfl
          · exact fun _ => rfl
        · simpa only [Database.ids, Table.modify_keys] using hx
  | createWebhook body =>
    simp only [respond, createWebhook]
    split
    · exact .refl ..
    · split
      · exact .refl ..
      · split
        · exact .refl ..
        · rename_i subs h
          refine ⟨.refl _, fun _ => rfl, fun x hx => ?_⟩
          simp only [Database.ids, List.mem_append, Table.mem_keys_of_insert h] at hx ⊢
          tauto
  | deleteWebhook webhookId =>
    simp only [respond, deleteWebhook]
    split
    · exact .refl ..
    · refine ⟨.refl _, fun _ => rfl, fun x hx => .inl ?_⟩
      simpa only [Database.ids, Table.modify_keys] using hx
  | getWorkflow workflowId =>
    simp only [respond, getWorkflow]
    split <;> exact .refl ..
  | getExecution executionId =>
    simp only [respond, getExecution]
    split <;> exact .refl ..
  | stream executionId =>
    simp only [respond, streamExecution]
    split <;> exact .refl ..
  | listWebhooks => exact .refl ..

/-! ## What `execute` reveals -/

/-- Equal lookups, for a tenant with the same workflows, mean equal foreign definitions. -/
theorem AgreeOn.foreign {t : Uuid} {db₁ db₂ : Database} (h : AgreeOn t db₁ db₂)
    {workflowId : Uuid}
    (hdefinition : (db₁.workflows.find? fun wf => wf.id = workflowId).map WorkflowORM.definition =
      (db₂.workflows.find? fun wf => wf.id = workflowId).map WorkflowORM.definition) :
    foreignDefinition t db₁ workflowId = foreignDefinition t db₂ workflowId := by
  have hown := h.workflows.find? fun wf => wf.id = workflowId
  rw [Table.find?_key_split WorkflowORM.tenantId db₁.workflows workflowId t,
    Table.find?_key_split WorkflowORM.tenantId db₂.workflows workflowId t, hown, Option.map_or,
    Option.map_or] at hdefinition
  cases hwf : db₂.workflows.find? fun wf => wf.id = workflowId && wf.tenantId = t with
  | none => simpa [hwf, foreignDefinition] using hdefinition
  | some wf =>
    rw [hwf] at hown
    rw [foreignDefinition, foreignDefinition, Table.find?_other_eq_none hown,
      Table.find?_other_eq_none hwf]

/-- An execute request that finds a workflow stores its definition under the new id. -/
theorem execute_stores {t : Uuid} {db : Database} {draws : Draws} {workflowId : Uuid}
    (inputs : List (String × Json)) {wf : WorkflowORM} (htenant : t ∈ db.tenants)
    (hnew : draws.uuid ∉ db.ids)
    (hwf : (db.workflows.find? fun wf => wf.id = workflowId) = some wf) :
    (execute workflowId inputs draws t db).2.statusCode ≠ 404 ∧
      ∃ ex ∈ (execute workflowId inputs draws t db).1.executions.rows,
        ex.fixed = (draws.uuid, t, some wf.definition) := by
  simp only [Database.ids, List.mem_append, not_or] at hnew
  obtain ⟨exs, h⟩ := Table.insert_of_new (T := db.executions)
    (r := ⟨draws.uuid, t, workflowId, { context := { contextVariables := inputs } },
      some wf.definition⟩) hnew.1.2
  simp only [execute, hwf, if_neg (not_not_intro htenant), h]
  refine ⟨?_, _, (Table.mem_of_insert h).mpr (.inr rfl), rfl⟩
  split <;> simp [Response.serverError]

theorem execute_notFound {t : Uuid} {db : Database} {draws : Draws} {workflowId : Uuid}
    {inputs : List (String × Json)}
    (hwf : (db.workflows.find? fun wf => wf.id = workflowId) = none) :
    (execute workflowId inputs draws t db).2.statusCode = 404 := by
  simp only [execute, hwf]
  rfl

/-! ## A sequence of requests -/

theorem serve_keeps (svc : Service) (t : Uuid) (qs : List Incoming) (db : Database) :
    Table.Keeps WorkflowExecutionORM.fixed db.executions (serve svc t db qs).1.executions := by
  induction qs generalizing db with
  | nil => exact .refl _
  | cons q qs ih =>
    exact (left_respond svc q.now t q.draws db q.request).executions.trans (ih _)

theorem FreshIds.tail {svc : Service} {t : Uuid} {db : Database} {q : Incoming}
    {qs : List Incoming} (h : FreshIds db (q :: qs)) :
    FreshIds (respond svc q.now t q.draws db q.request).1 qs := by
  obtain ⟨hnodup, hnew⟩ := h
  rw [List.map_cons, List.nodup_cons] at hnodup
  refine ⟨hnodup.2, fun p hp hid => ?_⟩
  rcases (left_respond svc q.now t q.draws db q.request).ids _ hid with hold | heq
  · exact hnew p (List.mem_cons_of_mem _ hp) hold
  · exact hnodup.1 (heq ▸ List.mem_map_of_mem hp)

/-- Tables that agree at the end hold the same definition under one id. -/
theorem stored_eq {t id : Uuid} {T₁ T₂ : Table WorkflowExecutionORM.id}
    {d₁ d₂ : Option Json} (h : Table.Agree WorkflowExecutionORM.tenantId t T₁ T₂)
    (h₁ : ∃ ex ∈ T₁.rows, ex.fixed = (id, t, d₁)) (h₂ : ∃ ex ∈ T₂.rows, ex.fixed = (id, t, d₂)) :
    d₁ = d₂ := by
  obtain ⟨ex₁, hex₁, hfixed₁⟩ := h₁
  obtain ⟨ex₂, hex₂, hfixed₂⟩ := h₂
  simp only [WorkflowExecutionORM.fixed, Prod.mk.injEq] at hfixed₁ hfixed₂
  have hmem : ex₁ ∈ T₂.rows := by
    have howned : ex₁ ∈ Table.owned WorkflowExecutionORM.tenantId t T₁ :=
      Table.mem_owned.mpr ⟨hex₁, hfixed₁.2.1⟩
    rw [h] at howned
    exact (Table.mem_owned.mp howned).1
  have hsame := Table.eq_of_key_eq hmem hex₂ (by rw [hfixed₁.1, hfixed₂.1])
  rw [← hfixed₁.2.2, ← hfixed₂.2.2, hsame]

/-- What the tenant sees tells whether an execute request found the same definition. -/
theorem foreign_of_same {svc : Service} {t : Uuid} {db₁ db₂ : Database} {q : Incoming}
    {qs : List Incoming} {workflowId : Uuid} {inputs : List (String × Json)}
    (hagree : AgreeOn t db₁ db₂) (hnew₁ : q.draws.uuid ∉ db₁.ids) (hnew₂ : q.draws.uuid ∉ db₂.ids)
    (hq : q.request = .execute workflowId inputs)
    (hresponse : (respond svc q.now t q.draws db₁ q.request).2 =
      (respond svc q.now t q.draws db₂ q.request).2)
    (hend : AgreeOn t (serve svc t db₁ (q :: qs)).1 (serve svc t db₂ (q :: qs)).1) :
    foreignDefinition t db₁ workflowId = foreignDefinition t db₂ workflowId := by
  apply hagree.foreign
  rw [hq] at hresponse
  have hstatus := congrArg Response.statusCode hresponse
  simp only [respond] at hstatus
  cases hwf₁ : db₁.workflows.find? fun wf => wf.id = workflowId with
  | none =>
    cases hwf₂ : db₂.workflows.find? fun wf => wf.id = workflowId with
    | none => rfl
    | some wf₂ =>
      rw [execute_notFound hwf₁] at hstatus
      exact absurd hstatus.symm (execute_stores inputs hagree.tenant₂ hnew₂ hwf₂).1
  | some wf₁ =>
    cases hwf₂ : db₂.workflows.find? fun wf => wf.id = workflowId with
    | none =>
      rw [execute_notFound hwf₂] at hstatus
      exact absurd hstatus (execute_stores inputs hagree.tenant₁ hnew₁ hwf₁).1
    | some wf₂ =>
      obtain ⟨-, ex₁, hex₁, hfixed₁⟩ := execute_stores inputs hagree.tenant₁ hnew₁ hwf₁
      obtain ⟨-, ex₂, hex₂, hfixed₂⟩ := execute_stores inputs hagree.tenant₂ hnew₂ hwf₂
      obtain ⟨last₁, hlast₁, hkept₁⟩ := serve_keeps svc t qs _ ex₁ hex₁
      obtain ⟨last₂, hlast₂, hkept₂⟩ := serve_keeps svc t qs _ ex₂ hex₂
      have hexecutions := hend.executions
      simp only [serve, hq, respond] at hexecutions
      exact stored_eq hexecutions ⟨last₁, hlast₁, hkept₁.trans hfixed₁⟩
        ⟨last₂, hlast₂, hkept₂.trans hfixed₂⟩

theorem mem_executedIds_cons {q : Incoming} {qs : List Incoming} {workflowId : Uuid} :
    workflowId ∈ executedIds (q :: qs) ↔
      (∃ inputs, q.request = .execute workflowId inputs) ∨ workflowId ∈ executedIds qs := by
  unfold executedIds
  rw [List.filterMap_cons]
  cases q.request <;> simp [eq_comm]

/-- Two databases that agree on the rows of an existing tenant, and requests of that
tenant: the tenant gets the same responses and has the same rows afterwards exactly when
no request executes a workflow id under which the databases hold different definitions
(or only one of them any) of other tenants. -/
theorem tenant_isolated_iff (svc : Service) (t : Uuid) (db₁ db₂ : Database) (qs : List Incoming)
    (hagree : AgreeOn t db₁ db₂) (hfresh₁ : FreshIds db₁ qs) (hfresh₂ : FreshIds db₂ qs) :
    ((serve svc t db₁ qs).2 = (serve svc t db₂ qs).2 ∧
      AgreeOn t (serve svc t db₁ qs).1 (serve svc t db₂ qs).1) ↔
    ∀ workflowId ∈ executedIds qs,
      foreignDefinition t db₁ workflowId = foreignDefinition t db₂ workflowId := by
  induction qs generalizing db₁ db₂ with
  | nil => simp [serve, executedIds, hagree]
  | cons q qs ih =>
    have hnew₁ := hfresh₁.2 q List.mem_cons_self
    have hnew₂ := hfresh₂.2 q List.mem_cons_self
    have hleft₁ := left_respond svc q.now t q.draws db₁ q.request
    have hleft₂ := left_respond svc q.now t q.draws db₂ q.request
    constructor
    · intro h
      obtain ⟨hresponses, hend⟩ := h
      have hresponse : (respond svc q.now t q.draws db₁ q.request).2 =
          (respond svc q.now t q.draws db₂ q.request).2 := (List.cons.inj hresponses).1
      have hforeign : ∀ workflowId inputs, q.request = .execute workflowId inputs →
          foreignDefinition t db₁ workflowId = foreignDefinition t db₂ workflowId :=
        fun workflowId inputs hq => foreign_of_same hagree hnew₁ hnew₂ hq hresponse hend
      have hsame := same_respond svc q.now hagree hnew₁ hnew₂ hforeign
      have hrest := (ih _ _ hsame.agree hfresh₁.tail hfresh₂.tail).mp
        ⟨(List.cons.inj hresponses).2, hend⟩
      intro workflowId hmem
      rcases mem_executedIds_cons.mp hmem with hq | hmem
      · obtain ⟨inputs, hq⟩ := hq
        exact hforeign workflowId inputs hq
      · rw [← hleft₁.foreign, ← hleft₂.foreign]
        exact hrest workflowId hmem
    · intro h
      have hsame := same_respond svc q.now hagree hnew₁ hnew₂ fun workflowId inputs hq =>
        h workflowId (mem_executedIds_cons.mpr (.inl ⟨inputs, hq⟩))
      have hrest := (ih _ _ hsame.agree hfresh₁.tail hfresh₂.tail).mpr fun workflowId hmem => by
        rw [hleft₁.foreign, hleft₂.foreign]
        exact h workflowId (mem_executedIds_cons.mpr (.inr hmem))
      refine ⟨?_, hrest.2⟩
      show (respond svc q.now t q.draws db₁ q.request).2 :: _ = _
      rw [hsame.response]
      exact congrArg _ hrest.1

/-! ## A workflow of another tenant -/

def tenantA : Uuid := .repdigit 10

def tenantB : Uuid := .repdigit 11

def ownWorkflow : WorkflowORM :=
  { id := .repdigit 1, tenantId := tenantA, name := "own", description := "",
    definition := .dict [] }

def foreignWorkflow : WorkflowORM :=
  { id := .repdigit 2, tenantId := tenantB, name := "private", description := "",
    definition := .dict [("steps", .list [])] }

/-- Both tenants have a workflow. -/
def sharedDb : Database where
  tenants := [tenantA, tenantB]
  workflows := ⟨[ownWorkflow, foreignWorkflow], by decide⟩

/-- Only tenant A has one. -/
def ownDb : Database where
  tenants := [tenantA, tenantB]
  workflows := ⟨[ownWorkflow], by decide⟩

def plainService : Service where
  urlparse _ := none
  ipAddress _ := none
  getaddrinfo _ _ := none
  repr s := s
  encryptSecret _ _ := none
  decryptSecret _ := none

def executes (workflowId : Uuid) : Incoming :=
  ⟨0, ⟨.repdigit 3, "secret", "nonce", true⟩, .execute workflowId []⟩

theorem agree_sharedDb_ownDb : AgreeOn tenantA sharedDb ownDb := by
  refine ⟨by decide +kernel, by decide +kernel, ?_, ?_, ?_, ?_⟩
  · show Table.owned WorkflowORM.tenantId tenantA sharedDb.workflows =
      Table.owned WorkflowORM.tenantId tenantA ownDb.workflows
    decide +kernel
  all_goals rfl

/-- Tenant A executes tenant B's workflow: it is accepted where the workflow exists, its
definition is copied, and it is refused where the workflow does not exist. -/
theorem execute_reads_other_tenant :
    AgreeOn tenantA sharedDb ownDb ∧
      ((serve plainService tenantA sharedDb [executes (.repdigit 2)]).2.map Response.statusCode =
        [202]) ∧
      ((serve plainService tenantA ownDb [executes (.repdigit 2)]).2.map Response.statusCode =
        [404]) ∧
      (((serve plainService tenantA sharedDb [executes (.repdigit 2)]).1.executions.rows.map
        fun ex => (ex.tenantId, ex.definitionSnapshot)) =
        [(tenantA, some foreignWorkflow.definition)]) := by
  refine ⟨agree_sharedDb_ownDb, ?_, ?_, ?_⟩ <;> decide +kernel

theorem tenant_isolated_iff_own :
    ((serve plainService tenantA sharedDb [executes (.repdigit 1)]).2 =
        (serve plainService tenantA ownDb [executes (.repdigit 1)]).2 ∧
      AgreeOn tenantA (serve plainService tenantA sharedDb [executes (.repdigit 1)]).1
        (serve plainService tenantA ownDb [executes (.repdigit 1)]).1) := by
  refine (tenant_isolated_iff plainService tenantA sharedDb ownDb [executes (.repdigit 1)]
    agree_sharedDb_ownDb ⟨by decide +kernel, by decide +kernel⟩
    ⟨by decide +kernel, by decide +kernel⟩).mpr ?_
  decide +kernel

end Sutram.Workflow
