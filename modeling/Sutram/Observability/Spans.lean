/-
The messages of an execution and their spans in the database.

A row is the span of a message when it carries the fields of the message.  The execution
is complete once the completion span and a span of every step event are stored.
-/
import Sutram.Observability.Handler

namespace Sutram.Observability

open Sutram.Core

variable {F D : Type} {n : Nat}

/-! ## The messages of an execution -/

section Messages

variable (e : Uuid) (data : Data)

def OfExecution : Prop := (data.get? "execution_id").bind Uuid.parse = some e

def HasType (eventType : String) : Prop := data.get? "event_type" = some eventType

def IsFailed : Prop := OfExecution e data ∧ HasType data "execution.step.failed"

def IsStep : Prop :=
  OfExecution e data ∧
    (HasType data "execution.step.completed" ∨ HasType data "execution.step.failed")

def IsCompleted : Prop := OfExecution e data ∧ HasType data "execution.completed"

instance : Decidable (IsFailed e data) := inferInstanceAs (Decidable (_ = _ ∧ _ = _))

instance : Decidable (IsStep e data) := inferInstanceAs (Decidable (_ = _ ∧ (_ = _ ∨ _ = _)))

instance : Decidable (IsCompleted e data) := inferInstanceAs (Decidable (_ = _ ∧ _ = _))

end Messages

variable (cfg : Config F D) (e : Uuid)

/-- The duration is above the slow threshold. -/
def isSlow (data : Data) : Bool :=
  match (data.get? "total_duration_ms").map cfg.scalars.int with
  | some (.ok duration) => cfg.slowThresholdMs < duration
  | _ => false

def AllSlow : Prop := ∀ data ∈ cfg.stream, IsCompleted e data → isSlow cfg data

/-- The traces that must be kept in full: a step failed, or the execution was slow. -/
def MustKeep : Prop := (∃ data ∈ cfg.stream, IsFailed e data) ∨ AllSlow cfg e

instance : Decidable (AllSlow cfg e) := inferInstanceAs (Decidable (∀ data ∈ cfg.stream, _ → _))

instance : Decidable (MustKeep cfg e) := inferInstanceAs (Decidable (_ ∨ _))

/-! ## What the database holds -/

/-- The row carries the fields of the message. -/
structure SpanOf (b : Builtins F) (row : ExecutionTraceORM F) (data : Data) : Prop where
  traceId : ∀ text ∈ data.get? "trace_id", Uuid.parse text = some row.traceId
  executionId : ∀ text ∈ data.get? "execution_id", Uuid.parse text = some row.executionId
  eventType : row.eventType = (data.get? "event_type").getD "unknown"
  stepName : row.stepName = data.get? "step_name"
  stepIndex : readField b.int (data.get? "step_index") = some row.stepIndex
  durationMs : readField b.int (data.get? "duration_ms") = some row.durationMs
  costUsd : readField b.float (data.get? "cost_usd") = some row.costUsd
  errorType : row.errorType = data.get? "error_type"
  errorMessage : row.errorMessage = data.get? "error_message"

instance [DecidableEq F] (b : Builtins F) (row : ExecutionTraceORM F) (data : Data) :
    Decidable (SpanOf b row data) :=
  decidable_of_iff
    ((∀ text ∈ data.get? "trace_id", Uuid.parse text = some row.traceId) ∧
      (∀ text ∈ data.get? "execution_id", Uuid.parse text = some row.executionId) ∧
      row.eventType = (data.get? "event_type").getD "unknown" ∧
      row.stepName = data.get? "step_name" ∧
      readField b.int (data.get? "step_index") = some row.stepIndex ∧
      readField b.int (data.get? "duration_ms") = some row.durationMs ∧
      readField b.float (data.get? "cost_usd") = some row.costUsd ∧
      row.errorType = data.get? "error_type" ∧ row.errorMessage = data.get? "error_message")
    ⟨fun ⟨h1, h2, h3, h4, h5, h6, h7, h8, h9⟩ => ⟨h1, h2, h3, h4, h5, h6, h7, h8, h9⟩,
      fun ⟨h1, h2, h3, h4, h5, h6, h7, h8, h9⟩ => ⟨h1, h2, h3, h4, h5, h6, h7, h8, h9⟩⟩

/-- Every conversion of `_write_span_from_dict` succeeds. -/
def Convertible (b : Builtins F) (span : Data) : Prop :=
  (readField Uuid.parse (span.get? "trace_id")).isSome ∧
    (readField Uuid.parse (span.get? "execution_id")).isSome ∧
    (readField b.int (span.get? "step_index")).isSome ∧
    (readField b.int (span.get? "duration_ms")).isSome ∧
    (readField b.float (span.get? "cost_usd")).isSome

instance (b : Builtins F) (span : Data) : Decidable (Convertible b span) :=
  inferInstanceAs (Decidable (_ ∧ _ ∧ _ ∧ _ ∧ _))

def Stored (w : World F D n) (data : Data) : Prop := ∃ row ∈ w.traces, SpanOf cfg.builtins row data

/-- The completion span and a span for every step event. -/
def Complete (w : World F D n) : Prop :=
  (∃ row ∈ w.traces, row.executionId = e ∧ row.eventType = "execution.completed") ∧
    ∀ data ∈ cfg.stream, IsStep e data → Stored cfg w data

/-- Every message of the execution is acknowledged. -/
def AllAcked (w : World F D n) : Prop :=
  ∀ i data, cfg.stream[i]? = some data → OfExecution e data → i ∈ w.acked

theorem allAcked_of_forall {w : World F D n} (h : ∀ i < cfg.stream.length, i ∈ w.acked) :
    AllAcked cfg e w :=
  fun i _ hi _ => h i (List.getElem?_eq_some_iff.mp hi).1

section Decidable

variable [DecidableEq F] (w : World F D n)

instance (data : Data) : Decidable (Stored cfg w data) :=
  inferInstanceAs (Decidable (∃ row ∈ w.traces, _))

instance : Decidable (Complete cfg e w) := inferInstanceAs (Decidable (_ ∧ _))

end Decidable

/-! ## Spans and rows -/

section Rows

variable {b : Builtins F}

theorem readField_eq_some {α : Type} {convert : String → Option α} {o : Option String}
    {x : Option α} (h : readField convert o = some x) {text : String} (htext : text ∈ o) :
    ∃ a, convert text = some a ∧ x = some a := by
  obtain rfl : o = some text := htext
  obtain ⟨a, ha, rfl⟩ := Option.map_eq_some_iff.mp h
  exact ⟨a, ha, rfl⟩

theorem spanOf_write {ids : FallbackIds} {tenantId workflowId : Uuid} {span : Data}
    {row : ExecutionTraceORM F} (h : writeSpanFromDict b ids tenantId workflowId span = some row) :
    SpanOf b row span := by
  unfold writeSpanFromDict at h
  split at h
  · rename_i htrace hexecution hindex hduration hcost
    obtain rfl := Option.some.inj h
    refine ⟨fun text htext => ?_, fun text htext => ?_, rfl, rfl, hindex, hduration, hcost, rfl,
      rfl⟩
    · obtain ⟨u, hu, rfl⟩ := readField_eq_some htrace htext
      exact hu
    · obtain ⟨u, hu, rfl⟩ := readField_eq_some hexecution htext
      exact hu
  · cases h

theorem tenantId_write {ids : FallbackIds} {tenantId workflowId : Uuid} {span : Data}
    {row : ExecutionTraceORM F} (h : writeSpanFromDict b ids tenantId workflowId span = some row) :
    row.tenantId = tenantId := by
  unfold writeSpanFromDict at h
  split at h
  · cases h
    rfl
  · cases h

theorem writeSpanFromDict_of_convertible (ids : FallbackIds) (tenantId workflowId : Uuid)
    {span : Data} (h : Convertible b span) :
    (writeSpanFromDict b ids tenantId workflowId span).isSome := by
  obtain ⟨htrace, hexecution, hindex, hduration, hcost⟩ := h
  obtain ⟨_, htrace⟩ := Option.isSome_iff_exists.mp htrace
  obtain ⟨_, hexecution⟩ := Option.isSome_iff_exists.mp hexecution
  obtain ⟨_, hindex⟩ := Option.isSome_iff_exists.mp hindex
  obtain ⟨_, hduration⟩ := Option.isSome_iff_exists.mp hduration
  obtain ⟨_, hcost⟩ := Option.isSome_iff_exists.mp hcost
  simp only [writeSpanFromDict, htrace, hexecution, hindex, hduration, hcost, Option.isSome_some]

theorem exists_of_forall₂ {α β : Type} {r : α → β → Prop} {as : List α} {bs : List β}
    (h : List.Forall₂ r as bs) {a : α} (ha : a ∈ as) : ∃ b ∈ bs, r a b := by
  induction h with
  | nil => cases ha
  | cons hab _ ih =>
    rcases List.mem_cons.mp ha with rfl | ha
    · exact ⟨_, List.mem_cons_self, hab⟩
    · obtain ⟨b, hb, hr⟩ := ih ha
      exact ⟨b, List.mem_cons_of_mem _ hb, hr⟩

theorem writeSpans_cons_eq_some {ids : Nat → FallbackIds} {tenantId workflowId : Uuid} {span : Data}
    {rest : List Data} {rows : List (ExecutionTraceORM F)}
    (h : writeSpans b ids tenantId workflowId (span :: rest) = some rows) :
    ∃ row rows', writeSpanFromDict b (ids rest.length) tenantId workflowId span = some row ∧
      writeSpans b ids tenantId workflowId rest = some rows' ∧ rows = row :: rows' := by
  rw [writeSpans] at h
  split at h
  · rename_i row rows' hrow hrows
    exact ⟨row, rows', hrow, hrows, (Option.some.inj h).symm⟩
  · cases h

/-- The rows are those of the spans, one by one. -/
theorem forall₂_writeSpans {ids : Nat → FallbackIds} {tenantId workflowId : Uuid}
    {spans : List Data} {rows : List (ExecutionTraceORM F)}
    (h : writeSpans b ids tenantId workflowId spans = some rows) :
    List.Forall₂
      (fun row span => ∃ id, writeSpanFromDict b id tenantId workflowId span = some row)
      rows spans := by
  induction spans generalizing rows with
  | nil =>
    cases h
    exact .nil
  | cons span rest ih =>
    obtain ⟨row, rows', hrow, hrows, rfl⟩ := writeSpans_cons_eq_some h
    exact .cons ⟨_, hrow⟩ (ih hrows)

/-- Every span that was read has its row. -/
theorem mem_writeSpans {ids : Nat → FallbackIds} {tenantId workflowId : Uuid} {spans : List Data}
    {rows : List (ExecutionTraceORM F)}
    (h : writeSpans b ids tenantId workflowId spans = some rows) {span : Data}
    (hspan : span ∈ spans) :
    ∃ row ∈ rows, SpanOf b row span := by
  obtain ⟨row, hrow, _, hwrite⟩ := exists_of_forall₂ (forall₂_writeSpans h).flip hspan
  exact ⟨row, hrow, spanOf_write hwrite⟩

theorem writeSpans_ne_none {ids : Nat → FallbackIds} {tenantId workflowId : Uuid}
    {spans : List Data} (h : ∀ span ∈ spans, Convertible b span) :
    writeSpans b ids tenantId workflowId spans ≠ none := by
  induction spans with
  | nil => simp [writeSpans]
  | cons first rest ih =>
    rw [List.forall_mem_cons] at h
    obtain ⟨row, hrow⟩ := Option.isSome_iff_exists.mp
      (writeSpanFromDict_of_convertible (ids rest.length) tenantId workflowId h.1)
    obtain ⟨rows, hrows⟩ := Option.ne_none_iff_exists'.mp (ih h.2)
    simp [writeSpans, hrow, hrows]

end Rows

/-! ## What the messages determine -/

/-- The execution whose completed event this is. -/
def completedOf : Event F D → Option Uuid
  | .executionCompleted e => some e.executionId
  | _ => none

section Messages

variable {cfg e} {data : Data} {fresh : Fresh D} {event : Event F D}

theorem completedOf_eq_some_iff {executionId : Uuid} :
    completedOf event = some executionId ↔
      ∃ ev, event = .executionCompleted ev ∧ ev.executionId = executionId := by
  cases event <;> simp [completedOf]

/-- A completed message of the execution is parsed to its completed event. -/
theorem completedOf_of_isCompleted (hparse : parseEvent cfg.scalars fresh data = .ok event)
    (h : IsCompleted e data) : completedOf event = some e := by
  have htype := (parseEvent_eventType hparse).symm.trans h.2
  cases event with
  | executionCompleted ev =>
    exact (parseEvent_executionCompleted hparse).1.symm.trans h.1
  | executionStarted | stepCompleted | stepFailed | executionPaused | memoryWritten
  | memorySearched => simp [Event.eventType] at htype

theorem isSlow_of_completed {ev : ExecutionCompletedEvent F D}
    (hparse : parseEvent cfg.scalars fresh data = .ok (.executionCompleted ev)) :
    isSlow cfg data = decide (cfg.slowThresholdMs < ev.totalDurationMs) := by
  rw [isSlow, (parseEvent_executionCompleted hparse).2]

theorem isCompleted_of_completedOf (hparse : parseEvent cfg.scalars fresh data = .ok event)
    (h : completedOf event = some e) : IsCompleted e data := by
  obtain ⟨ev, rfl, rfl⟩ := completedOf_eq_some_iff.mp h
  exact ⟨(parseEvent_executionCompleted hparse).1, parseEvent_eventType hparse⟩

/-- A step of the execution is buffered under the execution. -/
theorem spanKey_of_isStep (hparse : parseEvent cfg.scalars fresh data = .ok event)
    (h : IsStep e data) : ∃ key, spanKey event = some (e, key) := by
  have htype := parseEvent_eventType hparse
  cases event with
  | stepCompleted ev =>
    have hid := Option.some.inj ((parseEvent_stepCompleted hparse).symm.trans h.1)
    exact ⟨_, by rw [spanKey, hid]⟩
  | stepFailed ev =>
    have hid := Option.some.inj ((parseEvent_stepFailed hparse).symm.trans h.1)
    exact ⟨_, by rw [spanKey, hid]⟩
  | executionStarted | executionCompleted | executionPaused | memoryWritten | memorySearched =>
    rcases h.2 with h | h <;> simp [HasType, htype, Event.eventType] at h

theorem IsFailed.isStep (h : IsFailed e data) : IsStep e data := ⟨h.1, .inr h.2⟩

theorem not_isFailed_of_stepCompleted {ev : StepCompletedEvent F D}
    (hparse : parseEvent cfg.scalars fresh data = .ok (.stepCompleted ev)) :
    ¬ IsFailed e data := by
  rintro ⟨-, htype⟩
  have htype := (parseEvent_eventType hparse).symm.trans htype
  simp [Event.eventType] at htype

end Messages

end Sutram.Observability
