/-
The spans of a kept trace, read back.

The rows of a trace are written when its execution completes, in one transaction, and
their `start_time` is the start of that transaction.  The timestamps of the events stay
behind in the buffered messages.
-/
import Sutram.Library.OrderBy
import Sutram.Observability.BufferedSpans
import Sutram.Observability.Spans

namespace Sutram.Observability.Replay

open Sutram.Core

variable {F D : Type}

/-! ## The rows of a completion -/

/-- A row and the time the server gives it.  `occurred` is history: the timestamp of the
event, for which the table has no column. -/
structure Span (F D : Type) where
  row : ExecutionTraceORM F
  startTime : D
  occurred : D

def Span.Of (executionId tenantId : Uuid) (span : Span F D) : Prop :=
  span.row.executionId = executionId ∧ span.row.tenantId = tenantId

instance (executionId tenantId : Uuid) :
    DecidablePred (Span.Of executionId tenantId : Span F D → Prop) :=
  fun _ => inferInstanceAs (Decidable (_ ∧ _))

namespace Handled

def timestamp (h : Handled F D) : D := h.event.base.timestamp

/-- The message is parsed to the event, which has a span of the execution. -/
def Buffered (c : Scalars F D) (executionId : Uuid) (h : Handled F D) : Prop :=
  parseEvent c h.delivery.fresh h.data = .ok h.event ∧ SpanOf executionId h.event

end Handled

section Complete

variable (cfg : Config F D) (s : Store F) (d : Delivery D) (e : ExecutionCompletedEvent F D)

/-- What a completion adds to the table if it keeps the trace.  `now` is `NOW()`. -/
def keptTrace (buffered : List (Handled F D)) (now : D) : Option (List (Span F D)) :=
  if s.shouldKeep cfg e d.draw then
    match writeSpans cfg.builtins (fun _ => d.ids) e.tenantId e.workflowId
      (buffered.map Handled.data) with
    | some rows =>
      some (⟨completionSpan e, now, e.timestamp⟩ ::
        (rows.zip buffered).map fun p => ⟨p.1, now, p.2.timestamp⟩)
    | none => none
  else none

variable {cfg s d e} {buffered : List (Handled F D)} {now : D} {written : List (Span F D)}

/-- The row of a span is of the execution its message names. -/
theorem of_writeSpanFromDict {b : Builtins F} {ids : FallbackIds}
    {executionId tenantId workflowId : Uuid} {span : Data} {row : ExecutionTraceORM F}
    (hexecution : (span.get? "execution_id").bind Uuid.parse = some executionId)
    (h : writeSpanFromDict b ids tenantId workflowId span = some row) :
    row.executionId = executionId ∧ row.tenantId = tenantId := by
  obtain ⟨text, htext, hparse⟩ := Option.bind_eq_some_iff.mp hexecution
  have hrow := (spanOf_write h).executionId text htext
  exact ⟨Option.some.inj (hrow.symm.trans hparse), tenantId_write h⟩

theorem Handled.Buffered.executionId {c : Scalars F D} {executionId : Uuid} {h : Handled F D}
    (hbuffered : h.Buffered c executionId) :
    (h.data.get? "execution_id").bind Uuid.parse = some executionId := by
  obtain ⟨hparse, hspan⟩ := hbuffered
  unfold SpanOf at hspan
  cases hevent : h.event with
  | executionStarted e =>
    rw [hevent] at hparse hspan
    rw [parseEvent_executionStarted hparse]
    exact congrArg (Option.map Prod.fst) hspan
  | stepCompleted e =>
    rw [hevent] at hparse hspan
    rw [parseEvent_stepCompleted hparse]
    exact congrArg (Option.map Prod.fst) hspan
  | stepFailed e =>
    rw [hevent] at hparse hspan
    rw [parseEvent_stepFailed hparse]
    exact congrArg (Option.map Prod.fst) hspan
  | _ =>
    rw [hevent] at hspan
    cases hspan

theorem keptTrace_eq_some (h : keptTrace cfg s d e buffered now = some written) :
    ∃ rows, s.shouldKeep cfg e d.draw = true ∧
      writeSpans cfg.builtins (fun _ => d.ids) e.tenantId e.workflowId
        (buffered.map Handled.data) = some rows ∧
      written = ⟨completionSpan e, now, e.timestamp⟩ ::
        (rows.zip buffered).map fun p => ⟨p.1, now, p.2.timestamp⟩ := by
  unfold keptTrace at h
  split at h
  · rename_i hkeep
    split at h
    · rename_i rows hrows
      exact ⟨rows, hkeep, hrows, (Option.some.inj h).symm⟩
    · cases h
  · cases h

/-- The rows are those the handler commits. -/
theorem traces_onExecutionCompleted
    (hvalues : s.buffer.values e.executionId = buffered.map Handled.data)
    (h : keptTrace cfg s d e buffered now = some written) :
    (s.onExecutionCompleted cfg d e).traces = s.traces ++ written.map Span.row := by
  obtain ⟨rows, hkeep, hrows, rfl⟩ := keptTrace_eq_some h
  have hlength : rows.length ≤ buffered.length := by
    simpa using (forall₂_writeSpans hrows).length_eq.le
  have hmap : ((rows.zip buffered).map fun p => (⟨p.1, now, p.2.timestamp⟩ : Span F D)).map
      Span.row = rows := by
    rw [List.map_map]
    exact List.map_fst_zip hlength
  simp only [Store.onExecutionCompleted, if_pos hkeep, hvalues, hrows, List.map_cons, hmap]

/-- The times of the events are those of the completion and of the buffered messages. -/
theorem map_occurred (h : keptTrace cfg s d e buffered now = some written) :
    written.map Span.occurred = e.timestamp :: buffered.map Handled.timestamp := by
  obtain ⟨rows, -, hrows, rfl⟩ := keptTrace_eq_some h
  have hlength : buffered.length ≤ rows.length := by
    simpa using (forall₂_writeSpans hrows).length_eq.ge
  have hmap : ((rows.zip buffered).map fun p => (⟨p.1, now, p.2.timestamp⟩ : Span F D)).map
      Span.occurred = buffered.map Handled.timestamp := by
    have hsnd := congrArg (List.map Handled.timestamp) (List.map_snd_zip hlength)
    rw [← hsnd, List.map_map, List.map_map]
    rfl
  rw [List.map_cons, hmap]

/-- Every row is of the execution, and all have the time of the transaction. -/
theorem of_mem_keptTrace (hbuffered : ∀ h ∈ buffered, h.Buffered cfg.scalars e.executionId)
    (h : keptTrace cfg s d e buffered now = some written) {span : Span F D}
    (hspan : span ∈ written) : span.Of e.executionId e.tenantId ∧ span.startTime = now := by
  obtain ⟨rows, -, hrows, rfl⟩ := keptTrace_eq_some h
  rcases List.mem_cons.mp hspan with rfl | hspan
  · exact ⟨⟨rfl, rfl⟩, rfl⟩
  · obtain ⟨⟨row, m⟩, hmem, rfl⟩ := List.mem_map.mp hspan
    have hforall := forall₂_writeSpans hrows
    rw [List.forall₂_map_right_iff] at hforall
    obtain ⟨ids, hrow⟩ := (List.forall₂_iff_zip.mp hforall).2 hmem
    have hm := hbuffered m (List.of_mem_zip hmem).2
    exact ⟨of_writeSpanFromDict hm.executionId hrow, rfl⟩

end Complete

/-! ## The answers -/

section Answers

variable [LinearOrder D]

/-- `get_traces`: the spans of the execution, in an order the database may give them in. -/
def GetTraces (table : List (Span F D)) (executionId tenantId : Uuid)
    (answer : List (Span F D)) : Prop :=
  OrderBy.Answers Span.startTime (table.filter fun span => span.Of executionId tenantId) answer

/-- Every answer has the spans in the order of their events. -/
def InOrder (table : List (Span F D)) (executionId tenantId : Uuid) : Prop :=
  ∀ answer, GetTraces table executionId tenantId answer →
    answer.Pairwise fun a b => a.occurred ≤ b.occurred

theorem inOrder_iff {table : List (Span F D)} {executionId tenantId : Uuid} :
    InOrder table executionId tenantId ↔
      ∀ a ∈ table.filter fun span => span.Of executionId tenantId,
        ∀ b ∈ table.filter fun span => span.Of executionId tenantId,
          a.occurred < b.occurred → a.startTime < b.startTime :=
  OrderBy.ordered_iff

instance (table : List (Span F D)) (executionId tenantId : Uuid) :
    Decidable (InOrder table executionId tenantId) :=
  decidable_of_iff _ inOrder_iff.symm

/-- A kept trace is read back in the order of its events exactly when every event has the
timestamp of the completion: the rows have one time among them. -/
theorem getTraces_inOrder_iff (cfg : Config F D) {s : Store F} {d : Delivery D}
    {e : ExecutionCompletedEvent F D} {buffered : List (Handled F D)} {now : D}
    {written others table : List (Span F D)}
    (hbuffered : ∀ h ∈ buffered, h.Buffered cfg.scalars e.executionId)
    (hkept : keptTrace cfg s d e buffered now = some written)
    (hothers : ∀ span ∈ others, ¬ span.Of e.executionId e.tenantId)
    (htable : table.Perm (others ++ written)) :
    InOrder table e.executionId e.tenantId ↔ ∀ h ∈ buffered, h.timestamp = e.timestamp := by
  have hmem (span : Span F D) :
      span ∈ table.filter (fun span => span.Of e.executionId e.tenantId) ↔ span ∈ written := by
    rw [List.mem_filter, htable.mem_iff, List.mem_append, decide_eq_true_eq]
    constructor
    · rintro ⟨hspan | hspan, hof⟩
      · exact absurd hof (hothers span hspan)
      · exact hspan
    · exact fun hspan => ⟨.inr hspan, (of_mem_keptTrace hbuffered hkept hspan).1⟩
  have htied : InOrder table e.executionId e.tenantId ↔
      ∀ a ∈ written, ∀ b ∈ written, b.occurred ≤ a.occurred := by
    rw [inOrder_iff]
    refine forall_congr' fun a => imp_congr_ctx (hmem a) fun ha => ?_
    refine forall_congr' fun b => imp_congr_ctx (hmem b) fun hb => ?_
    rw [(of_mem_keptTrace hbuffered hkept ha).2, (of_mem_keptTrace hbuffered hkept hb).2]
    simp
  have hoccurred (t : D) : (∃ a ∈ written, a.occurred = t) ↔
      t = e.timestamp ∨ ∃ h ∈ buffered, h.timestamp = t := by
    rw [← List.mem_map, map_occurred hkept, List.mem_cons, List.mem_map]
  rw [htied]
  constructor
  · intro htied h hh
    obtain ⟨a, ha, hat⟩ := (hoccurred h.timestamp).mpr (.inr ⟨h, hh, rfl⟩)
    obtain ⟨b, hb, hbt⟩ := (hoccurred e.timestamp).mpr (.inl rfl)
    rw [← hat, ← hbt]
    exact le_antisymm (htied b hb a ha) (htied a ha b hb)
  · intro hsame
    have hone : ∀ a ∈ written, a.occurred = e.timestamp := fun a ha => by
      rcases (hoccurred a.occurred).mp ⟨a, ha, rfl⟩ with h | ⟨m, hm, h⟩
      · exact h
      · rw [← h, hsame m hm]
    intro a ha b hb
    rw [hone a ha, hone b hb]

end Answers

/-! ## An execution that fails in its first step -/

/-- Scalars with the one float `0.0`, and instants in whole seconds. -/
def clockScalars : Scalars Unit Int where
  zero := ()
  floatStr := plainScalars.floatStr
  floatEq := plainScalars.floatEq
  dateStr := toString
  int := plainInt
  float := plainScalars.float
  date := plainInt
  floatEq_self := plainScalars.floatEq_self
  int_str := plainInt_str
  float_str := plainScalars.float_str
  date_str := plainInt_str

def failedAt (timestamp : Int) : Event Unit Int :=
  .stepFailed
    { traceId := Uuid.repdigit 1, tenantId := Uuid.repdigit 2, timestamp := timestamp,
      executionId := Uuid.repdigit 3, workflowId := Uuid.repdigit 4, stepName := "fetch",
      stepIndex := 0, errorType := "TimeoutError", errorMessage := "timed out" }

def completedAt (timestamp : Int) : ExecutionCompletedEvent Unit Int :=
  { traceId := Uuid.repdigit 5, tenantId := Uuid.repdigit 2, timestamp := timestamp,
    executionId := Uuid.repdigit 3, workflowId := Uuid.repdigit 4, status := .failed,
    totalDurationMs := 45000, totalCostUsd := (), totalSteps := 1 }

def stepAt (timestamp : Int) : Handled Unit Int where
  delivery := ⟨0, ⟨Uuid.repdigit 0, 0⟩, false, ⟨Uuid.repdigit 0, Uuid.repdigit 0⟩⟩
  data := (failedAt timestamp).toStreamDict clockScalars
  event := failedAt timestamp

def clocked : Config Unit Int where
  scalars := clockScalars
  builtins := slowExecution.builtins
  slowThresholdMs := 30000
  stream := []

/-- The trace of a step and a completion, kept by a transaction of time 100. -/
def traceOf (step completion : Int) : Option (List (Span Unit Int)) :=
  keptTrace clocked (handleAll clocked {} [stepAt step]) (stepAt step).delivery
    (completedAt completion) [stepAt step] 100

/-- The step and the completion tie, and an answer may have the completion first. -/
theorem completion_read_before_step :
    ((handleAll clocked {} [stepAt 40]).buffer.values (Uuid.repdigit 3) = [(stepAt 40).data] ∧
        parseEvent clockScalars (stepAt 40).delivery.fresh (stepAt 40).data =
          .ok (stepAt 40).event) ∧
      ∃ written, traceOf 40 50 = some written ∧
        ¬ InOrder written (Uuid.repdigit 3) (Uuid.repdigit 2) := by
  refine ⟨by decide +kernel, ?_⟩
  have hany : (traceOf 40 50).any fun written =>
      ¬ InOrder written (Uuid.repdigit 3) (Uuid.repdigit 2) := by decide +kernel
  exact (Option.any_eq_true _ _).mp hany |>.imp fun written h => ⟨h.1, of_decide_eq_true h.2⟩

theorem failure_at_completion_in_order :
    ∃ written, traceOf 50 50 = some written ∧
      InOrder written (Uuid.repdigit 3) (Uuid.repdigit 2) := by
  have hsome : (traceOf 50 50).isSome := by decide +kernel
  obtain ⟨written, hwritten⟩ := Option.isSome_iff_exists.mp hsome
  have hbuffered : ∀ h ∈ [stepAt 50], h.Buffered clockScalars (Uuid.repdigit 3) :=
    List.forall_mem_singleton.mpr ⟨by decide +kernel, rfl⟩
  have hiff := getTraces_inOrder_iff clocked hbuffered hwritten
    (List.forall_mem_nil _) (List.Perm.refl ([] ++ written))
  exact ⟨written, hwritten, hiff.mpr (List.forall_mem_singleton.mpr rfl)⟩

end Sutram.Observability.Replay
