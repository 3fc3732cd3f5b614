/-
Messages that are delivered again.

A delivery is handled up to its commit; a crash or an error before the acknowledgement
has the message delivered once more.  The tables after a schedule of deliveries are
compared with those after the first delivery of each message alone.
-/
import Sutram.Observability.Handler

namespace Sutram.Observability.Replay

open Sutram.Core Runs

variable {F D : Type}

/-! ## One message -/

/-- What the handlers read and write: the trace buffer and the two tables. -/
structure Store (F : Type) where
  buffer : TraceBuffer := .empty
  traces : List (ExecutionTraceORM F) := []
  audit : List AuditLogORM := []

/-- A delivery of a message, and what the environment answers while it is handled.  One
value stands for all the random UUIDs that replace missing ones: rows are compared up to
them. -/
structure Delivery (D : Type) where
  message : Nat
  fresh : Fresh D
  draw : Bool
  ids : FallbackIds

namespace Store

variable (s : Store F)

def bufferSpan (event : Event F D) (data : Data) : Store F :=
  match spanKey event with
  | some (executionId, key) => { s with buffer := s.buffer.bufferSpan executionId key data }
  | none => s

def writeAudit (row : AuditLogORM) : Store F := { s with audit := s.audit ++ [row] }

/-- `should_keep` -/
def shouldKeep (cfg : Config F D) (e : ExecutionCompletedEvent F D) (draw : Bool) : Bool :=
  s.buffer.hasFailure e.executionId || cfg.slowThresholdMs < e.totalDurationMs || draw

/-- What `flush` leaves. -/
def flush (executionId : Uuid) : Store F :=
  { s with buffer := (s.buffer.dropSpans executionId).dropFailure executionId }

def onExecutionCompleted (cfg : Config F D) (d : Delivery D) (e : ExecutionCompletedEvent F D) :
    Store F :=
  let flushed := s.flush e.executionId
  if s.shouldKeep cfg e d.draw then
    match writeSpans cfg.builtins (fun _ => d.ids) e.tenantId e.workflowId
      (s.buffer.values e.executionId) with
    | some rows =>
      { flushed with
        traces := s.traces ++ completionSpan e :: rows
        audit := s.audit ++ [completedAudit e] }
    -- A span that does not convert raises, and the session is rolled back.
    | none => flushed
  else flushed.writeAudit (completedAudit e)

/-- `EventHandler.handle` -/
def handle (cfg : Config F D) (d : Delivery D) (data : Data) : Event F D → Store F
  | .executionStarted e =>
    (s.bufferSpan (.executionStarted e : Event F D) data).writeAudit
      ⟨e.tenantId, "execution.started", some e.executionId⟩
  | .stepCompleted e => s.bufferSpan (.stepCompleted e) data
  | .stepFailed e =>
    let s := s.bufferSpan (.stepFailed e : Event F D) data
    { s with buffer := s.buffer.markHasFailure e.executionId }.writeAudit
      ⟨e.tenantId, "execution.step.failed", some e.executionId⟩
  | .executionCompleted e => s.onExecutionCompleted cfg d e
  | .executionPaused e => s.writeAudit ⟨e.tenantId, "execution.paused", some e.executionId⟩
  | .memoryWritten e => s.writeAudit ⟨e.tenantId, "memory.written", some e.memoryItemId⟩
  | .memorySearched _ => s

end Store

/-! ## The handler, stage by stage -/

section Stages

variable {n : Nat} {cfg : Config F D} {w w' : World F D n} {r : Fin n} {d : Delivery D}

def storeOf (w : World F D n) : Store F := ⟨w.buffer, w.traces, w.audit⟩

/-- A replica that nobody disturbs comes to leave this store. -/
def Leaves (cfg : Config F D) (d : Delivery D) (r : Fin n) (w : World F D n) (s : Store F) :
    Prop :=
  ∃ k w', run (step cfg) w (List.replicate k (.advance r ⟨d.draw, fun _ => d.ids⟩)) = some w' ∧
    storeOf w' = s

theorem Leaves.here {s : Store F} (h : storeOf w = s) : Leaves cfg d r w s := ⟨0, w, rfl, h⟩

/-- One stage, and then the others. -/
theorem Leaves.stage {s : Store F} {i : Nat} {data : Data} {event : Event F D} {stage : Stage F}
    (hstage : advanceHandler cfg (w.setWork r (some (.handle i data event stage))) r
      ⟨d.draw, fun _ => d.ids⟩ i data event stage = some w')
    (h : Leaves cfg d r w' s) :
    Leaves cfg d r (w.setWork r (some (.handle i data event stage))) s := by
  obtain ⟨k, w'', hrun, hs⟩ := h
  refine ⟨k + 1, w'', ?_, hs⟩
  rw [List.replicate_succ, run_cons_some (t := w')]
  · exact hrun
  · simp only [step, World.setWork_work_self]
    exact hstage

theorem leaves_commit {i : Nat} {data : Data} {event : Event F D}
    (traces : List (ExecutionTraceORM F)) (audit : List AuditLogORM) :
    Leaves cfg d r (w.setWork r (some (.handle i data event (.commit traces audit))))
      { storeOf w with traces := w.traces ++ traces, audit := w.audit ++ audit } :=
  .stage rfl (.here rfl)

theorem leaves_audit {i : Nat} {data : Data} {event : Event F D} (row : AuditLogORM) :
    Leaves cfg d r (w.setWork r (some (.handle i data event (.commit [] [row]))))
      ((storeOf w).writeAudit row) := by
  have h : Leaves cfg d r (w.setWork r (some (.handle i data event (.commit [] [row])))) _ :=
    leaves_commit [] [row]
  rwa [List.append_nil] at h

theorem leaves_unchanged {i : Nat} {data : Data} {event : Event F D} :
    Leaves cfg d r (w.setWork r (some (.handle i data event (.commit [] [])))) (storeOf w) := by
  have h : Leaves cfg d r (w.setWork r (some (.handle i data event (.commit [] [])))) _ :=
    leaves_commit [] []
  rwa [List.append_nil, List.append_nil] at h

theorem leaves_clear {i : Nat} {data : Data} {e : ExecutionCompletedEvent F D} {keep : Bool}
    {spans : List Data} (hkeep : (storeOf w).shouldKeep cfg e d.draw = keep)
    (hspans : (storeOf w).buffer.values e.executionId = spans) :
    Leaves cfg d r
      (w.setWork r (some (.handle i data (.executionCompleted e) (.clear keep spans))))
      ((storeOf w).onExecutionCompleted cfg d e) := by
  subst hspans
  rw [Store.onExecutionCompleted, hkeep]
  cases keep with
  | false => exact .stage rfl (leaves_audit _)
  | true =>
    refine .stage rfl ?_
    cases hrows : writeSpans cfg.builtins (fun _ => d.ids) e.tenantId e.workflowId
      ((storeOf w).buffer.values e.executionId) with
    | none => exact .stage (by simp only [advanceHandler, hrows]; rfl) (.here rfl)
    | some rows =>
      refine .stage (by simp only [advanceHandler, hrows]; rfl) ?_
      exact leaves_commit (completionSpan e :: rows) [completedAudit e]

/-- The stages of a replica that nobody disturbs, up to the acknowledgement or the error
that ends them, do to the buffer and the tables what `handle` does. -/
theorem exists_run_handle {data : Data} {event : Event F D}
    (hmessage : cfg.stream[d.message]? = some data)
    (hparse : parseEvent cfg.scalars d.fresh data = .ok event)
    (hidle : (w.replicas r).work = none) (hacked : d.message ∉ w.acked) :
    ∃ k w', run (step cfg) w (.deliver r d.message d.fresh ::
        List.replicate k (.advance r ⟨d.draw, fun _ => d.ids⟩)) = some w' ∧
      storeOf w' = (storeOf w).handle cfg d data event := by
  have hdeliver : step cfg w (.deliver r d.message d.fresh) =
      some (begin cfg w r d.message data d.fresh) := by
    simp [step, hmessage, hidle, hacked]
  simp only [run_cons_some hdeliver]
  show Leaves cfg d r (begin cfg w r d.message data d.fresh) _
  simp only [begin, hparse]
  cases event with
  | executionStarted e => exact .stage rfl (.stage rfl (leaves_audit _))
  | stepCompleted e => exact .stage rfl (.stage rfl leaves_unchanged)
  | stepFailed e => exact .stage rfl (.stage rfl (.stage rfl (leaves_audit _)))
  | executionCompleted e => exact .stage rfl (.stage rfl (leaves_clear rfl rfl))
  | executionPaused e => exact leaves_audit _
  | memoryWritten e => exact leaves_audit _
  | memorySearched e => exact leaves_unchanged

end Stages

/-! ## A schedule of deliveries -/

/-- `seen` are the messages that have been delivered.  `stale` is history: the places of
the buffer to which a redelivery has brought a span that was not there any more. -/
structure State (F : Type) where
  store : Store F := {}
  seen : List Nat := []
  stale : List (Uuid × String) := []

inductive Action (D : Type) where
  | deliver (d : Delivery D)
  | expireSpans (executionId : Uuid)
  | expireFailure (executionId : Uuid)

section Step

variable (cfg : Config F D)

/-- The message and its event, if it is of a known type.  Messages are valid. -/
def received (d : Delivery D) : Option (Data × Option (Event F D)) :=
  match cfg.stream[d.message]? with
  | none => none
  | some data =>
    match parseEvent cfg.scalars d.fresh data with
    | .error (.unknownEventType _) => some (data, none)
    | .error (.validationError _) => none
    | .ok event => some (data, some event)

/-- A message of an unknown type is acknowledged only. -/
def delivered (s : Store F) (d : Delivery D) (data : Data) : Option (Event F D) → Store F
  | some event => s.handle cfg d data event
  | none => s

/-- The span that is there already is put there once more. -/
def Store.Holds (s : Store F) (executionId : Uuid) (key : String) (data : Data) : Prop :=
  (s.buffer.spans executionId).get? key = some data

instance (s : Store F) (executionId : Uuid) (key : String) (data : Data) :
    Decidable (s.Holds executionId key data) :=
  inferInstanceAs (Decidable (_ = _))

/-- The first delivery of a message. -/
def freshened (stale : List (Uuid × String)) (event : Event F D) : List (Uuid × String) :=
  match spanKey event, event with
  | some place, _ => stale.filter fun p => p ≠ place
  | none, .executionCompleted e => stale.filter fun p => p.1 ≠ e.executionId
  | none, _ => stale

/-- A redelivery. -/
def staled (s : State F) (data : Data) (event : Event F D) : List (Uuid × String) :=
  match spanKey event with
  | some (executionId, key) =>
    if s.store.Holds executionId key data then s.stale else (executionId, key) :: s.stale
  | none => s.stale

def deliver (s : State F) (d : Delivery D) (data : Data) (event : Option (Event F D)) :
    State F :=
  { store := delivered cfg s.store d data event
    seen := if d.message ∈ s.seen then s.seen else d.message :: s.seen
    stale :=
      match event with
      | none => s.stale
      | some event =>
        if d.message ∈ s.seen then staled s data event else freshened s.stale event }

def State.onBuffer (s : State F) (f : TraceBuffer → TraceBuffer) : State F :=
  { s with store := { s.store with buffer := f s.store.buffer } }

def step (s : State F) : Action D → Option (State F)
  | .deliver d =>
    match received cfg d with
    | some (data, event) => some (deliver cfg s d data event)
    | none => none
  | .expireSpans executionId =>
    some { s.onBuffer fun b => b.dropSpans executionId with
      stale := s.stale.filter fun p => p.1 ≠ executionId }
  | .expireFailure executionId => some (s.onBuffer fun b => b.dropFailure executionId)

/-- What may be delivered again: an event of a type that has no row. -/
def RepeatableEvent : Event F D → Prop
  | .stepCompleted _ | .memorySearched _ => True
  | _ => False

instance : DecidablePred (RepeatableEvent : Event F D → Prop)
  | .stepCompleted _ | .memorySearched _ => isTrue trivial
  | .executionStarted _ | .stepFailed _ | .executionCompleted _ | .executionPaused _
  | .memoryWritten _ => isFalse id

/-- An execution that is kept finds no stale span in its buffer. -/
def FlushesOwn (s : State F) (d : Delivery D) : Event F D → Prop
  | .executionCompleted e =>
    s.store.shouldKeep cfg e d.draw → ∀ p ∈ s.stale, p.1 ≠ e.executionId
  | _ => True

instance (s : State F) (d : Delivery D) : DecidablePred (FlushesOwn cfg s d)
  | .executionCompleted e =>
    inferInstanceAs (Decidable
      (s.store.shouldKeep cfg e d.draw → ∀ p ∈ s.stale, p.1 ≠ e.executionId))
  | .executionStarted _ | .stepCompleted _ | .stepFailed _ | .executionPaused _
  | .memoryWritten _ | .memorySearched _ => isTrue trivial

/-- The schedule may go on with the action. -/
def Repeatable (s : State F) : Action D → Prop
  | .deliver d =>
    ∀ event ∈ (received cfg d).bind Prod.snd,
      if d.message ∈ s.seen then RepeatableEvent event else FlushesOwn cfg s d event
  | _ => True

instance (s : State F) : DecidablePred (Repeatable cfg s)
  | .deliver d =>
    inferInstanceAs (Decidable (∀ event ∈ (received cfg d).bind Prod.snd,
      if d.message ∈ s.seen then RepeatableEvent event else FlushesOwn cfg s d event))
  | .expireSpans _ | .expireFailure _ => isTrue trivial

end Step

/-- The first delivery of each message. -/
def firsts : List Nat → List (Action D) → List (Action D)
  | _, [] => []
  | seen, .deliver d :: as =>
    if d.message ∈ seen then firsts seen as else .deliver d :: firsts (d.message :: seen) as
  | seen, .expireSpans executionId :: as => .expireSpans executionId :: firsts seen as
  | seen, .expireFailure executionId :: as => .expireFailure executionId :: firsts seen as

/-- The tables hold the same rows. -/
structure SameTables (s s' : Store F) : Prop where
  traces : s.traces.Perm s'.traces
  audit : s.audit.Perm s'.audit

/-! ## The buffer, place by place -/

section Places

variable (b : TraceBuffer) {executionId other : Uuid} {key key' : String} {span : Data}

theorem get?_bufferSpan_self :
    ((b.bufferSpan executionId key span).spans executionId).get? key = some span := by
  simp only [TraceBuffer.bufferSpan, Function.update_self]
  exact Dict.get?_set_self _ key span

theorem get?_bufferSpan_of_ne (h : (other, key') ≠ (executionId, key)) :
    ((b.bufferSpan executionId key span).spans other).get? key' = (b.spans other).get? key' := by
  by_cases hother : other = executionId
  · subst hother
    have hkey : key' ≠ key := fun hkey => h (by rw [hkey])
    simp only [TraceBuffer.bufferSpan, Function.update_self]
    exact Dict.get?_set_of_ne _ span hkey
  · simp only [TraceBuffer.bufferSpan, Function.update_of_ne hother]

theorem get?_dropSpans_self : ((b.dropSpans executionId).spans executionId).get? key = none := by
  simp only [TraceBuffer.dropSpans, Function.update_self]
  rfl

theorem get?_dropSpans_of_ne (h : other ≠ executionId) :
    ((b.dropSpans executionId).spans other).get? key = (b.spans other).get? key := by
  simp only [TraceBuffer.dropSpans, Function.update_of_ne h]

end Places

theorem rel_cases {α : Type} {R : α → α → Prop} {o o' : Option α} (h : Option.Rel R o o') :
    (o = none ∧ o' = none) ∨ ∃ a a', o = some a ∧ o' = some a' ∧ R a a' := by
  cases h with
  | none => exact .inl ⟨rfl, rfl⟩
  | some hR => exact .inr ⟨_, _, rfl, rfl, hR⟩

/-- The rows of the spans do not depend on the order of the spans. -/
theorem writeSpans_perm (builtins : Builtins F) (ids : FallbackIds) (tenantId workflowId : Uuid)
    {spans spans' : List Data} (h : spans.Perm spans') :
    Option.Rel List.Perm (writeSpans builtins (fun _ => ids) tenantId workflowId spans)
      (writeSpans builtins (fun _ => ids) tenantId workflowId spans') := by
  induction h with
  | nil => exact .some (.refl [])
  | cons span h ih =>
    simp only [writeSpans]
    cases writeSpanFromDict builtins ids tenantId workflowId span with
    | none => exact .none
    | some row =>
      rcases rel_cases ih with ⟨hl, hl'⟩ | ⟨rows, rows', hl, hl', hrows⟩
      · rw [hl, hl']
        exact .none
      · rw [hl, hl']
        exact .some (hrows.cons row)
  | swap span span' rest =>
    simp only [writeSpans]
    cases writeSpanFromDict builtins ids tenantId workflowId span with
    | none => cases writeSpanFromDict builtins ids tenantId workflowId span' <;> exact .none
    | some row =>
      cases writeSpanFromDict builtins ids tenantId workflowId span' with
      | none => exact .none
      | some row' =>
        cases writeSpans builtins (fun _ => ids) tenantId workflowId rest with
        | none => exact .none
        | some rows => exact .some (.swap row row' rows)
  | trans _ _ ih ih' =>
    rcases rel_cases ih with ⟨hl, hl'⟩ | ⟨rows, rows', hl, hl', hrows⟩
    · rw [hl'] at ih'
      rwa [hl]
    · rw [hl'] at ih'
      rcases rel_cases ih' with ⟨hm, -⟩ | ⟨middle, last, hm, hlast, hrows'⟩
      · cases hm
      · cases hm
        rw [hl, hlast]
        exact .some (hrows.trans hrows')

/-- Two buffers hold the same spans but for the places named. -/
def AgreeExcept (stale : List (Uuid × String)) (b b' : TraceBuffer) : Prop :=
  ∀ executionId key, (executionId, key) ∉ stale →
    (b.spans executionId).get? key = (b'.spans executionId).get? key

section Agree

variable {stale : List (Uuid × String)} {b b' : TraceBuffer} {executionId : Uuid} {key : String}
  {span : Data}

/-- A place that is written on both sides is stale no longer. -/
theorem AgreeExcept.bufferSpan (h : AgreeExcept stale b b') :
    AgreeExcept (stale.filter fun p => p ≠ (executionId, key))
      (b.bufferSpan executionId key span) (b'.bufferSpan executionId key span) := by
  intro other key' hnot
  by_cases hplace : (other, key') = (executionId, key)
  · cases hplace
    rw [get?_bufferSpan_self, get?_bufferSpan_self]
  · rw [get?_bufferSpan_of_ne b hplace, get?_bufferSpan_of_ne b' hplace]
    refine h other key' fun hmem => hnot (List.mem_filter.mpr ⟨hmem, ?_⟩)
    exact decide_eq_true hplace

/-- A span that one side alone writes makes its place stale. -/
theorem AgreeExcept.bufferSpan_left (h : AgreeExcept stale b b') :
    AgreeExcept ((executionId, key) :: stale) (b.bufferSpan executionId key span) b' := by
  intro other key' hnot
  rw [List.mem_cons, not_or] at hnot
  rw [get?_bufferSpan_of_ne b hnot.1]
  exact h other key' hnot.2

/-- Unless it is the one that is there. -/
theorem AgreeExcept.bufferSpan_same (h : AgreeExcept stale b b')
    (hsame : (b.spans executionId).get? key = some span) :
    AgreeExcept stale (b.bufferSpan executionId key span) b' := by
  intro other key' hnot
  rw [← h other key' hnot]
  by_cases hplace : (other, key') = (executionId, key)
  · cases hplace
    rw [get?_bufferSpan_self, hsame]
  · rw [get?_bufferSpan_of_ne b hplace]

theorem AgreeExcept.dropSpans (h : AgreeExcept stale b b') :
    AgreeExcept (stale.filter fun p => p.1 ≠ executionId) (b.dropSpans executionId)
      (b'.dropSpans executionId) := by
  intro other key' hnot
  by_cases hother : other = executionId
  · subst hother
    rw [get?_dropSpans_self, get?_dropSpans_self]
  · rw [get?_dropSpans_of_ne b hother, get?_dropSpans_of_ne b' hother]
    refine h other key' fun hmem => hnot (List.mem_filter.mpr ⟨hmem, ?_⟩)
    exact decide_eq_true hother

end Agree

/-! ## The two runs -/

/-- The tables hold the same rows, and the buffers differ in stale places only. -/
structure Similar (t u : State F) : Prop where
  seen : t.seen = u.seen
  tables : SameTables t.store u.store
  failure : t.store.buffer.hasFailure = u.store.buffer.hasFailure
  spans : AgreeExcept t.stale t.store.buffer u.store.buffer

section Similar

variable {t u : State F} {cfg : Config F D} {d : Delivery D} {data : Data}

theorem SameTables.writeAudit {s s' : Store F} (h : SameTables s s') (row : AuditLogORM) :
    SameTables (s.writeAudit row) (s'.writeAudit row) :=
  ⟨h.traces, h.audit.append_right [row]⟩

/-- An execution without stale places has the same spans on both sides. -/
theorem Similar.values_perm (h : Similar t u) {executionId : Uuid}
    (hown : ∀ p ∈ t.stale, p.1 ≠ executionId) :
    (t.store.buffer.values executionId).Perm (u.store.buffer.values executionId) := by
  refine (Dict.perm_entries fun key => h.spans executionId key fun hmem => ?_).map Prod.snd
  exact hown _ hmem rfl

theorem Similar.shouldKeep_eq (h : Similar t u) (e : ExecutionCompletedEvent F D) (draw : Bool) :
    t.store.shouldKeep cfg e draw = u.store.shouldKeep cfg e draw := by
  simp only [Store.shouldKeep, h.failure]

theorem sameTables_onExecutionCompleted (h : Similar t u) {e : ExecutionCompletedEvent F D}
    (hown : t.store.shouldKeep cfg e d.draw → ∀ p ∈ t.stale, p.1 ≠ e.executionId) :
    SameTables (t.store.onExecutionCompleted cfg d e) (u.store.onExecutionCompleted cfg d e) := by
  simp only [Store.onExecutionCompleted, ← h.shouldKeep_eq e d.draw]
  by_cases hkeep : t.store.shouldKeep cfg e d.draw
  · rw [if_pos hkeep, if_pos hkeep]
    have hperm := writeSpans_perm cfg.builtins d.ids e.tenantId e.workflowId
      (h.values_perm (hown hkeep))
    rcases rel_cases hperm with ⟨hl, hl'⟩ | ⟨rows, rows', hl, hl', hrows⟩
    · simp only [hl, hl']
      exact ⟨h.tables.traces, h.tables.audit⟩
    · simp only [hl, hl']
      refine ⟨h.tables.traces.append (hrows.cons _), h.tables.audit.append_right _⟩
  · rw [if_neg hkeep, if_neg hkeep]
    exact ⟨h.tables.traces, h.tables.audit.append_right _⟩

theorem buffer_onExecutionCompleted (s : Store F) (e : ExecutionCompletedEvent F D) :
    (s.onExecutionCompleted cfg d e).buffer = (s.flush e.executionId).buffer := by
  simp only [Store.onExecutionCompleted]
  split
  · split <;> rfl
  · rfl

/-- The first delivery of a message, on both sides. -/
theorem Similar.first (h : Similar t u) {event : Option (Event F D)} (hnew : d.message ∉ t.seen)
    (hown : ∀ e ∈ event, FlushesOwn cfg t d e) :
    Similar (deliver cfg t d data event) (deliver cfg u d data event) := by
  have hseen : (deliver cfg t d data event).seen = (deliver cfg u d data event).seen := by
    simp only [deliver, h.seen]
  have haudit : ∀ row, (t.store.audit ++ [row]).Perm (u.store.audit ++ [row]) := fun row =>
    h.tables.audit.append_right [row]
  cases event with
  | none => exact ⟨hseen, h.tables, h.failure, h.spans⟩
  | some e =>
    have hspans : ∀ b b', AgreeExcept (freshened t.stale e) b b' →
        AgreeExcept (deliver cfg t d data (some e)).stale b b' := fun b b' hagree => by
      simpa [deliver, hnew] using hagree
    cases e with
    | executionStarted e =>
      exact ⟨hseen, ⟨h.tables.traces, haudit _⟩, h.failure, hspans _ _ h.spans.bufferSpan⟩
    | stepCompleted e =>
      exact ⟨hseen, ⟨h.tables.traces, h.tables.audit⟩, h.failure, hspans _ _ h.spans.bufferSpan⟩
    | stepFailed e =>
      refine ⟨hseen, ⟨h.tables.traces, haudit _⟩, ?_, hspans _ _ h.spans.bufferSpan⟩
      exact congrArg (Function.update · e.executionId true) h.failure
    | executionCompleted e =>
      refine ⟨hseen, sameTables_onExecutionCompleted h (hown _ rfl), ?_, hspans _ _ ?_⟩
      · show (t.store.onExecutionCompleted cfg d e).buffer.hasFailure =
          (u.store.onExecutionCompleted cfg d e).buffer.hasFailure
        rw [buffer_onExecutionCompleted, buffer_onExecutionCompleted]
        exact congrArg (Function.update · e.executionId false) h.failure
      · show AgreeExcept _ (t.store.onExecutionCompleted cfg d e).buffer
          (u.store.onExecutionCompleted cfg d e).buffer
        rw [buffer_onExecutionCompleted, buffer_onExecutionCompleted]
        exact h.spans.dropSpans
    | executionPaused e =>
      exact ⟨hseen, ⟨h.tables.traces, haudit _⟩, h.failure, hspans _ _ h.spans⟩
    | memoryWritten e =>
      exact ⟨hseen, ⟨h.tables.traces, haudit _⟩, h.failure, hspans _ _ h.spans⟩
    | memorySearched e => exact ⟨hseen, h.tables, h.failure, hspans _ _ h.spans⟩

/-- A redelivery, on one side. -/
theorem Similar.again (h : Similar t u) {event : Option (Event F D)} (hold : d.message ∈ t.seen)
    (hrepeatable : ∀ e ∈ event, RepeatableEvent e) :
    Similar (deliver cfg t d data event) u := by
  have hseen : (deliver cfg t d data event).seen = u.seen := (if_pos hold).trans h.seen
  cases event with
  | none => exact ⟨hseen, h.tables, h.failure, h.spans⟩
  | some e =>
    have hstale : (deliver cfg t d data (some e)).stale = staled t data e := if_pos hold
    cases e with
    | stepCompleted e =>
      refine ⟨hseen, ⟨h.tables.traces, h.tables.audit⟩, h.failure, ?_⟩
      rw [hstale]
      simp only [staled, spanKey]
      split
      · rename_i hholds
        exact h.spans.bufferSpan_same hholds
      · exact h.spans.bufferSpan_left
    | memorySearched e =>
      refine ⟨hseen, h.tables, h.failure, ?_⟩
      rw [hstale]
      exact h.spans
    | _ => exact (hrepeatable _ rfl).elim

theorem Similar.expireSpans (h : Similar t u) {executionId : Uuid} {t' : State F}
    (ht : step cfg t (.expireSpans executionId) = some t') :
    ∃ u', step cfg u (.expireSpans executionId) = some u' ∧ Similar t' u' := by
  cases ht
  exact ⟨_, rfl, h.seen, ⟨h.tables.traces, h.tables.audit⟩, h.failure, h.spans.dropSpans⟩

theorem Similar.expireFailure (h : Similar t u) {executionId : Uuid} {t' : State F}
    (ht : step cfg t (.expireFailure executionId) = some t') :
    ∃ u', step cfg u (.expireFailure executionId) = some u' ∧ Similar t' u' := by
  cases ht
  refine ⟨_, rfl, h.seen, ⟨h.tables.traces, h.tables.audit⟩, ?_, h.spans⟩
  exact congrArg (Function.update · executionId false) h.failure

/-- What one run leaves and the other. -/
theorem exists_similar_run (h : Similar t u) {as : List (Action D)} {t' : State F}
    (hG : Along (step cfg) (fun s a _ => Repeatable cfg s a) t as)
    (hrun : run (step cfg) t as = some t') :
    ∃ u', run (step cfg) u (firsts t.seen as) = some u' ∧ Similar t' u' := by
  induction as generalizing t u with
  | nil =>
    obtain rfl : t = t' := by simpa using hrun
    exact ⟨u, rfl, h⟩
  | cons a as ih =>
    obtain ⟨s, hs, hrest⟩ := run_cons_eq_some hrun
    rw [along_cons_some hs] at hG
    cases a with
    | deliver d =>
      simp only [step] at hs
      split at hs
      · rename_i data event hreceived
        cases hs
        have hevent : ∀ e ∈ event,
            if d.message ∈ t.seen then RepeatableEvent e else FlushesOwn cfg t d e := by
          intro e he
          refine hG.1 e ?_
          rw [hreceived]
          exact he
        by_cases hold : d.message ∈ t.seen
        · simp only [firsts, if_pos hold]
          have hsim : Similar (deliver cfg t d data event) u :=
            h.again hold fun e he => by simpa only [if_pos hold] using hevent e he
          have hseen : (deliver cfg t d data event).seen = t.seen := if_pos hold
          rw [← hseen]
          exact ih hsim hG.2 hrest
        · simp only [firsts, if_neg hold]
          have hsim : Similar (deliver cfg t d data event) (deliver cfg u d data event) :=
            h.first hold fun e he => by simpa only [if_neg hold] using hevent e he
          have hseen : (deliver cfg t d data event).seen = d.message :: t.seen := if_neg hold
          rw [← hseen, run_cons_some (t := deliver cfg u d data event)]
          · exact ih hsim hG.2 hrest
          · simp only [step, hreceived]
      · cases hs
    | expireSpans executionId =>
      obtain ⟨u', hu, hsim⟩ := h.expireSpans hs
      have hseen : s.seen = t.seen := by
        cases hs
        rfl
      rw [firsts, run_cons_some hu, ← hseen]
      exact ih hsim hG.2 hrest
    | expireFailure executionId =>
      obtain ⟨u', hu, hsim⟩ := h.expireFailure hs
      have hseen : s.seen = t.seen := by
        cases hs
        rfl
      rw [firsts, run_cons_some hu, ← hseen]
      exact ih hsim hG.2 hrest

end Similar

/-- After a schedule whose redeliveries are of events without a row, and which flushes no
stale span, the tables hold the rows that the first deliveries alone leave. -/
theorem tables_as_delivered_once (cfg : Config F D) {as : List (Action D)} {t : State F}
    (hrepeatable : Along (step cfg) (fun s a _ => Repeatable cfg s a) {} as)
    (hrun : run (step cfg) {} as = some t) :
    ∃ u, run (step cfg) {} (firsts [] as) = some u ∧ SameTables t.store u.store := by
  have hinitial : Similar ({} : State F) {} :=
    ⟨rfl, ⟨.refl _, .refl _⟩, rfl, fun _ _ _ => rfl⟩
  obtain ⟨u, hu, hsim⟩ := exists_similar_run hinitial hrepeatable hrun
  exact ⟨u, hu, hsim.tables⟩

/-! ## A slow execution of one step, tried twice -/

section Example

instance [DecidableEq F] (s s' : Store F) : Decidable (SameTables s s') :=
  decidable_of_iff (s.traces.Perm s'.traces ∧ s.audit.Perm s'.audit)
    ⟨fun h => ⟨h.1, h.2⟩, fun h => ⟨h.traces, h.audit⟩⟩

def attempt (durationMs : String) : Data :=
  Dict.ofPairs
    [("event_type", "execution.step.completed"), ("trace_id", (Uuid.repdigit 1).str),
      ("tenant_id", (Uuid.repdigit 2).str), ("execution_id", (Uuid.repdigit 3).str),
      ("workflow_id", (Uuid.repdigit 4).str), ("step_name", "fetch"), ("step_index", "0"),
      ("duration_ms", durationMs)]

def slowCompletion : Event Unit Unit :=
  .executionCompleted
    { traceId := Uuid.repdigit 1, tenantId := Uuid.repdigit 2, timestamp := (),
      executionId := Uuid.repdigit 3, workflowId := Uuid.repdigit 4, status := .completed,
      totalDurationMs := 45000, totalCostUsd := (), totalSteps := 1 }

def slowExecution : Config Unit Unit where
  scalars := plainScalars
  builtins :=
    ⟨fun text => (plainInt text).toOption, fun text => if text = "0.0" then some () else none⟩
  slowThresholdMs := 30000
  stream := [attempt "500", attempt "700", slowCompletion.toStreamDict plainScalars]

/-- A delivery whose draw, if one is made, is not below the sample rate. -/
def take (message : Nat) : Action Unit :=
  .deliver ⟨message, ⟨Uuid.repdigit 0, ()⟩, false, ⟨Uuid.repdigit 0, Uuid.repdigit 0⟩⟩

/-- A schedule leaves other rows than its first deliveries. -/
def Differs (cfg : Config F D) (as : List (Action D)) : Prop :=
  ∃ t u, run (step cfg) {} as = some t ∧ run (step cfg) {} (firsts [] as) = some u ∧
    ¬ SameTables t.store u.store

theorem differs_of_any [DecidableEq F] {cfg : Config F D} {as : List (Action D)}
    (h : (run (step cfg) {} as).any fun t =>
      (run (step cfg) {} (firsts [] as)).any fun u => ¬ SameTables t.store u.store) :
    Differs cfg as := by
  obtain ⟨t, ht, hu⟩ := (Option.any_eq_true _ _).mp h
  obtain ⟨u, hu, hne⟩ := exists_of_any hu
  exact ⟨t, u, ht, hu, hne⟩

/-- The completion is delivered again, or the first attempt after the second. -/
theorem redelivery_changes_tables :
    Differs slowExecution [take 0, take 1, take 2, take 2] ∧
      Differs slowExecution [take 0, take 1, take 0, take 2] :=
  ⟨differs_of_any (by decide +kernel), differs_of_any (by decide +kernel)⟩

/-- The second attempt is delivered twice before the completion. -/
theorem tables_as_delivered_once_attempted :
    ∃ t, run (step slowExecution) {} [take 0, take 1, take 1, take 2] = some t ∧
      ∃ u, run (step slowExecution) {} (firsts [] [take 0, take 1, take 1, take 2]) = some u ∧
        SameTables t.store u.store := by
  have hrun : (run (step slowExecution) {} [take 0, take 1, take 1, take 2]).isSome := by
    decide +kernel
  obtain ⟨t, ht⟩ := Option.isSome_iff_exists.mp hrun
  exact ⟨t, ht, tables_as_delivered_once slowExecution (by decide +kernel) ht⟩

end Example

end Sutram.Observability.Replay
