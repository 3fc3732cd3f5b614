/-
The billing figures of `GET /metrics`.

The route counts the completions in `execution_traces` and adds up their costs.  Whether a
completion has a row there is the tail sampler's decision about its trace.
-/
import Mathlib.Algebra.BigOperators.Group.List.Basic
import Mathlib.Algebra.Order.Ring.Rat
import Mathlib.Data.List.ReduceOption
import Sutram.Library.Ghost
import Sutram.Library.Grouping
import Sutram.Observability.Replay
import Sutram.Observability.Spans

namespace Sutram.Observability.MetricsApi

open Sutram.Core Runs

variable {D : Type}

/-! ## The route -/

structure StatusSummary where
  status : Option String
  count : Nat
  totalCostUsd : ℚ
  avgDurationMs : ℚ
deriving DecidableEq

structure MetricsSummary where
  tenantId : Uuid
  executionsByStatus : List StatusSummary
deriving DecidableEq

/-- `func.sum` skips NULLs; the sum of none is NULL, which the route reports as 0. -/
def total (values : List (Option ℚ)) : ℚ := values.reduceOption.sum

/-- `func.avg`, likewise. -/
def average (values : List (Option Int)) : ℚ :=
  (values.reduceOption.sum : ℚ) / values.reduceOption.length

def isCompletion (tenantId : Uuid) (row : ExecutionTraceORM ℚ) : Bool :=
  row.tenantId = tenantId ∧ row.eventType = "execution.completed"

def summarise (group : Option String × List (ExecutionTraceORM ℚ)) : StatusSummary where
  status := group.1
  count := group.2.length
  totalCostUsd := total (group.2.map (·.costUsd))
  avgDurationMs := average (group.2.map (·.durationMs))

def getMetricsSummary (traces : List (ExecutionTraceORM ℚ)) (tenantId : Uuid) : MetricsSummary where
  tenantId := tenantId
  executionsByStatus :=
    (Grouping.groups (·.status) (traces.filter (isCompletion tenantId))).map summarise

/-- The count and the cost a client reads for a status; a status that is not listed has
neither. -/
def MetricsSummary.figures (s : MetricsSummary) (status : ExecutionStatus) : Nat × ℚ :=
  match s.executionsByStatus.find? fun x => x.status = some status.value with
  | some x => (x.count, x.totalCostUsd)
  | none => (0, 0)

/-- The same figures, of a list of completed executions. -/
def billed (handled : List (ExecutionCompletedEvent ℚ D)) (tenantId : Uuid)
    (status : ExecutionStatus) : Nat × ℚ :=
  let events := handled.filter fun e => e.tenantId = tenantId ∧ e.status = status
  (events.length, (events.map (·.totalCostUsd)).sum)

/-! ## The completions handled -/

/-- A handled completion, and whether its trace was kept. -/
abbrev Handled (D : Type) := ExecutionCompletedEvent ℚ D × Bool

/-- A completion is handled unless one of its spans does not convert. -/
def noteHandled (cfg : Config ℚ D) (s : Replay.State ℚ) (a : Replay.Action D)
    (_ : Replay.State ℚ) (handled : List (Handled D)) : List (Handled D) :=
  match a with
  | .deliver d =>
    match Replay.received cfg d with
    | some (_, some (.executionCompleted e)) =>
      let keep := s.store.shouldKeep cfg e d.draw
      if keep ∧ writeSpans cfg.builtins (fun _ => d.ids) e.tenantId e.workflowId
          (s.store.buffer.values e.executionId) = none then handled
      else handled ++ [(e, keep)]
    | _ => handled
  | _ => handled

def handledStep (cfg : Config ℚ D) : Ghosted (Replay.State ℚ) (List (Handled D)) →
    Replay.Action D → Option (Ghosted (Replay.State ℚ) (List (Handled D))) :=
  ghostStep (Replay.step cfg) (noteHandled cfg)

/-- A completion of the tenant is one whose trace `should_keep` keeps. -/
def KeptEvent (cfg : Config ℚ D) (tenantId : Uuid) (s : Replay.State ℚ) (d : Replay.Delivery D) :
    Event ℚ D → Prop
  | .executionCompleted e => e.tenantId = tenantId → s.store.shouldKeep cfg e d.draw
  | _ => True

instance (cfg : Config ℚ D) (tenantId : Uuid) (s : Replay.State ℚ) (d : Replay.Delivery D) :
    DecidablePred (KeptEvent cfg tenantId s d)
  | .executionCompleted _ => inferInstanceAs (Decidable (_ → _))
  | .executionStarted _ | .stepCompleted _ | .stepFailed _ | .executionPaused _
  | .memoryWritten _ | .memorySearched _ => isTrue trivial

def KeepsCompletions (cfg : Config ℚ D) (tenantId : Uuid) (s : Replay.State ℚ) :
    Replay.Action D → Prop
  | .deliver d => ∀ message ∈ Replay.received cfg d, ∀ event ∈ message.2,
    KeptEvent cfg tenantId s d event
  | .expireSpans _ | .expireFailure _ => True

instance (cfg : Config ℚ D) (tenantId : Uuid) (s : Replay.State ℚ) :
    DecidablePred (KeepsCompletions cfg tenantId s)
  | .deliver d => inferInstanceAs (Decidable (∀ message ∈ Replay.received cfg d, _))
  | .expireSpans _ | .expireFailure _ => isTrue trivial

/-! ## What the route counts -/

theorem value_injective {s s' : ExecutionStatus} (h : s.value = s'.value) : s = s' := by
  cases s <;> cases s' <;> first | rfl | simp [ExecutionStatus.value] at h

theorem total_map_some {α : Type} (f : α → ℚ) (l : List α) :
    total (l.map fun x => some (f x)) = (l.map f).sum := by
  induction l with
  | nil => rfl
  | cons x l ih =>
    simp only [total, List.map_cons, List.reduceOption_cons_of_some, List.sum_cons] at ih ⊢
    rw [ih]

/-- The rows of a status, whether or not there are any. -/
theorem figures_getMetricsSummary (traces : List (ExecutionTraceORM ℚ)) (tenantId : Uuid)
    (status : ExecutionStatus) :
    (getMetricsSummary traces tenantId).figures status =
      (((traces.filter (isCompletion tenantId)).filter fun row =>
          row.status = some status.value).length,
        total (((traces.filter (isCompletion tenantId)).filter fun row =>
          row.status = some status.value).map (·.costUsd))) := by
  have hfind : (getMetricsSummary traces tenantId).executionsByStatus.find?
      (fun x => x.status = some status.value) =
      ((Grouping.groups (·.status) (traces.filter (isCompletion tenantId))).find?
        fun g => g.1 = some status.value).map summarise := List.find?_map ..
  rw [MetricsSummary.figures, hfind, Grouping.find?_groups]
  split_ifs with hk
  · rfl
  · rw [Grouping.filter_eq_nil hk]
    rfl

/-- No completion waits in the buffer. -/
def Uncompleted (b : TraceBuffer) : Prop :=
  ∀ executionId, ∀ span ∈ b.values executionId,
    span.get? "event_type" ≠ some "execution.completed"

/-- The completions among the rows are those of the kept traces, in their order. -/
structure Billed (s : Ghosted (Replay.State ℚ) (List (Handled D))) : Prop where
  buffered : Uncompleted s.state.store.buffer
  rows : s.state.store.traces.filter (fun row => row.eventType = "execution.completed") =
    ((s.ghost.filter Prod.snd).map fun h => completionSpan h.1)

theorem Billed.filter {s : Ghosted (Replay.State ℚ) (List (Handled D))} (hI : Billed s)
    (tenantId : Uuid) (status : ExecutionStatus) :
    ((s.state.store.traces.filter (isCompletion tenantId)).filter fun row =>
        row.status = some status.value) =
      (((s.ghost.filter Prod.snd).map Prod.fst).filter fun e =>
        e.tenantId = tenantId ∧ e.status = status).map completionSpan := by
  have hsplit : ((s.state.store.traces.filter (isCompletion tenantId)).filter fun row =>
      row.status = some status.value) =
      (s.state.store.traces.filter (fun row => row.eventType = "execution.completed")).filter
        fun row => row.tenantId = tenantId ∧ row.status = some status.value := by
    rw [List.filter_filter, List.filter_filter]
    refine List.filter_congr fun row _ => ?_
    rw [isCompletion, ← Bool.decide_and, ← Bool.decide_and, decide_eq_decide]
    tauto
  rw [hsplit, hI.rows, List.filter_map, List.filter_map, List.map_map]
  congr 1
  refine List.filter_congr fun h _ => ?_
  rw [Function.comp_apply, Function.comp_apply, decide_eq_decide]
  have hstatus : some h.1.status.value = some status.value ↔ h.1.status = status :=
    ⟨fun heq => value_injective (Option.some.inj heq), fun heq => by rw [heq]⟩
  exact and_congr_right fun _ => hstatus

theorem Billed.figures {s : Ghosted (Replay.State ℚ) (List (Handled D))} (hI : Billed s)
    (tenantId : Uuid) (status : ExecutionStatus) :
    (getMetricsSummary s.state.store.traces tenantId).figures status =
      billed ((s.ghost.filter Prod.snd).map Prod.fst) tenantId status := by
  rw [figures_getMetricsSummary, hI.filter, billed, List.length_map, List.map_map]
  congr 1
  exact total_map_some _ _

/-- Nothing is missing exactly when every completion of the tenant was kept. -/
theorem billed_kept_iff (handled : List (Handled D)) (tenantId : Uuid) :
    (∀ status, billed ((handled.filter Prod.snd).map Prod.fst) tenantId status =
        billed (handled.map Prod.fst) tenantId status) ↔
      ∀ h ∈ handled, h.1.tenantId = tenantId → h.2 := by
  constructor
  · intro heq h hmem htenant
    have hlength := congrArg Prod.fst (heq h.1.status)
    simp only [billed, List.filter_map, List.length_map] at hlength
    rw [List.filter_comm, List.length_filter_eq_length_iff] at hlength
    exact hlength h (List.mem_filter.mpr ⟨hmem, by simp [htenant]⟩)
  · intro hkept status
    simp only [billed, List.filter_map]
    rw [List.filter_comm, List.filter_eq_self.mpr]
    intro h hmem
    obtain ⟨hmem, hof⟩ := List.mem_filter.mp hmem
    exact hkept h hmem (of_decide_eq_true hof).1

/-! ## The buffer holds no completion -/

section Buffer

variable {b : TraceBuffer} {executionId : Uuid} {key : String} {span : Data}

theorem mem_values_iff :
    span ∈ b.values executionId ↔ ∃ key, (b.spans executionId).get? key = some span := by
  constructor
  · intro h
    obtain ⟨⟨key, _⟩, hmem, rfl⟩ := List.mem_map.mp h
    exact ⟨key, (Dict.mem_iff_get? _ _ _).mp hmem⟩
  · rintro ⟨key, hget⟩
    exact List.mem_map.mpr ⟨(key, span), (Dict.mem_iff_get? _ _ _).mpr hget, rfl⟩

theorem Uncompleted.bufferSpan (h : Uncompleted b)
    (hspan : span.get? "event_type" ≠ some "execution.completed") :
    Uncompleted (b.bufferSpan executionId key span) := by
  intro other old hold
  obtain ⟨key', hget⟩ := mem_values_iff.mp hold
  by_cases hplace : (other, key') = (executionId, key)
  · cases hplace
    rw [Replay.get?_bufferSpan_self] at hget
    cases hget
    exact hspan
  · rw [Replay.get?_bufferSpan_of_ne b hplace] at hget
    exact h other old (mem_values_iff.mpr ⟨key', hget⟩)

theorem Uncompleted.dropSpans (h : Uncompleted b) : Uncompleted (b.dropSpans executionId) := by
  intro other old hold
  obtain ⟨key, hget⟩ := mem_values_iff.mp hold
  by_cases hother : other = executionId
  · subst hother
    rw [Replay.get?_dropSpans_self] at hget
    cases hget
  · rw [Replay.get?_dropSpans_of_ne b hother] at hget
    exact h other old (mem_values_iff.mpr ⟨key, hget⟩)

theorem uncompleted_handle {cfg : Config ℚ D} {s : Replay.Store ℚ} {d : Replay.Delivery D}
    {data : Data} {event : Event ℚ D} (h : Uncompleted s.buffer)
    (htype : data.get? "event_type" = some event.eventType) :
    Uncompleted (s.handle cfg d data event).buffer := by
  cases event with
  | executionStarted | stepCompleted | stepFailed =>
    exact h.bufferSpan (by rw [htype]; simp [Event.eventType])
  | executionCompleted e =>
    have hflush : Uncompleted (s.flush e.executionId).buffer := h.dropSpans
    rw [Replay.Store.handle, Replay.Store.onExecutionCompleted]
    split
    · split <;> exact hflush
    · exact hflush
  | executionPaused | memoryWritten | memorySearched => exact h

end Buffer

/-! ## One delivery -/

section Deliver

variable {cfg : Config ℚ D} {s : Replay.Store ℚ} {d : Replay.Delivery D} {data : Data}

theorem exists_of_mem_rows {ids : Nat → FallbackIds} {tenantId workflowId : Uuid}
    {spans : List Data} {rows : List (ExecutionTraceORM ℚ)}
    (h : writeSpans cfg.builtins ids tenantId workflowId spans = some rows)
    {row : ExecutionTraceORM ℚ} (hrow : row ∈ rows) :
    ∃ span ∈ spans, SpanOf cfg.builtins row span := by
  obtain ⟨span, hspan, _, hwrite⟩ := exists_of_forall₂ (forall₂_writeSpans h) hrow
  exact ⟨span, hspan, spanOf_write hwrite⟩

/-- The rows of buffered spans are no completions. -/
theorem filter_rows (h : Uncompleted s.buffer) {executionId tenantId workflowId : Uuid}
    {ids : Nat → FallbackIds} {rows : List (ExecutionTraceORM ℚ)}
    (hrows : writeSpans cfg.builtins ids tenantId workflowId (s.buffer.values executionId) =
      some rows) :
    rows.filter (fun row => row.eventType = "execution.completed") = [] := by
  rw [List.filter_eq_nil_iff]
  intro row hrow htype
  obtain ⟨span, hspan, hof⟩ := exists_of_mem_rows hrows hrow
  have htype : (span.get? "event_type").getD "unknown" = "execution.completed" := by
    rw [← hof.eventType]
    exact of_decide_eq_true htype
  cases hget : span.get? "event_type" with
  | none => simp [hget] at htype
  | some text =>
    rw [hget] at htype
    exact h executionId span hspan (by rw [hget]; exact congrArg some htype)

theorem traces_handle {event : Event ℚ D} (h : ∀ e, event ≠ .executionCompleted e) :
    (s.handle cfg d data event).traces = s.traces := by
  cases event with
  | executionCompleted e => exact absurd rfl (h e)
  | _ => rfl

/-- A completion leaves its row when it is kept and handled, and no other completion's. -/
theorem filter_onExecutionCompleted (cfg : Config ℚ D) (d : Replay.Delivery D)
    (h : Uncompleted s.buffer) (e : ExecutionCompletedEvent ℚ D) :
    (s.onExecutionCompleted cfg d e).traces.filter
        (fun row => row.eventType = "execution.completed") =
      s.traces.filter (fun row => row.eventType = "execution.completed") ++
        if s.shouldKeep cfg e d.draw ∧ writeSpans cfg.builtins (fun _ => d.ids) e.tenantId
          e.workflowId (s.buffer.values e.executionId) ≠ none then [completionSpan e] else [] := by
  rw [Replay.Store.onExecutionCompleted]
  by_cases hkeep : s.shouldKeep cfg e d.draw
  · cases hrows : writeSpans cfg.builtins (fun _ => d.ids) e.tenantId e.workflowId
      (s.buffer.values e.executionId) with
    | none => simp [hkeep, Replay.Store.flush]
    | some rows => simp [hkeep, filter_rows h hrows, completionSpan]
  · simp [hkeep, Replay.Store.flush, Replay.Store.writeAudit]

end Deliver

section Step

variable {cfg : Config ℚ D} {s t : Ghosted (Replay.State ℚ) (List (Handled D))}

theorem received_eq_some {d : Replay.Delivery D} {data : Data} {event : Option (Event ℚ D)}
    (h : Replay.received cfg d = some (data, event)) :
    ∀ e ∈ event, data.get? "event_type" = some e.eventType := by
  rintro e ⟨⟩
  unfold Replay.received at h
  split at h
  · cases h
  · split at h
    · cases h
    · cases h
    · rename_i hparse
      cases h
      exact parseEvent_eventType hparse

theorem billed_step {a : Replay.Action D} (hI : Billed s) (h : handledStep cfg s a = some t) :
    Billed t := by
  obtain ⟨t, handled⟩ := t
  obtain ⟨hstep, hghost⟩ := ghostStep_eq_some h
  dsimp only at hstep hghost
  cases a with
  | expireSpans executionId =>
    cases hstep
    exact ⟨hI.buffered.dropSpans, by rw [hghost]; exact hI.rows⟩
  | expireFailure executionId =>
    cases hstep
    exact ⟨hI.buffered, by rw [hghost]; exact hI.rows⟩
  | deliver d =>
    simp only [Replay.step] at hstep
    split at hstep
    · rename_i data event hreceived
      cases hstep
      have htype := received_eq_some hreceived
      simp only [noteHandled, hreceived] at hghost
      cases event with
      | none => exact ⟨hI.buffered, by rw [hghost]; exact hI.rows⟩
      | some event =>
        refine ⟨uncompleted_handle hI.buffered (htype event rfl), ?_⟩
        cases event with
        | executionCompleted e =>
          show (s.state.store.onExecutionCompleted cfg d e).traces.filter _ = _
          rw [filter_onExecutionCompleted cfg d hI.buffered e, hI.rows, hghost]
          by_cases hkeep : s.state.store.shouldKeep cfg e d.draw
          · by_cases hrows : writeSpans cfg.builtins (fun _ => d.ids) e.tenantId e.workflowId
                (s.state.store.buffer.values e.executionId) = none
            · simp [hkeep, hrows]
            · simp [hkeep, hrows]
          · simp [hkeep]
        | _ => exact hghost ▸ hI.rows
    · cases hstep

def AllKept (tenantId : Uuid) (handled : List (Handled D)) : Prop :=
  ∀ h ∈ handled, h.1.tenantId = tenantId → h.2

theorem allKept_append {tenantId : Uuid} {handled : List (Handled D)}
    {e : ExecutionCompletedEvent ℚ D} {keep : Bool} :
    AllKept tenantId (handled ++ [(e, keep)]) ↔
      AllKept tenantId handled ∧ (e.tenantId = tenantId → keep) := by
  simp only [AllKept, List.mem_append, List.mem_singleton]
  constructor
  · exact fun h => ⟨fun x hx => h x (.inl hx), fun he => h (e, keep) (.inr rfl) he⟩
  · rintro ⟨hall, he⟩ x (hx | rfl)
    · exact hall x hx
    · exact he

theorem allKept_step {tenantId : Uuid} {a : Replay.Action D} (h : handledStep cfg s a = some t) :
    AllKept tenantId t.ghost ↔
      AllKept tenantId s.ghost ∧ KeepsCompletions cfg tenantId s.state a := by
  rw [(ghostStep_eq_some h).2]
  cases a with
  | expireSpans | expireFailure => simp [noteHandled, KeepsCompletions]
  | deliver d =>
    simp only [noteHandled, KeepsCompletions]
    split
    · rename_i e hreceived
      have hevent : (∀ message ∈ Replay.received cfg d, ∀ event ∈ message.2,
          KeptEvent cfg tenantId s.state d event) ↔
          (e.tenantId = tenantId → s.state.store.shouldKeep cfg e d.draw) := by
        simp [hreceived, KeptEvent]
      rw [hevent]
      split
      · rename_i hraises
        simp [hraises.1]
      · exact allKept_append
    · rename_i hother
      refine (and_iff_left ?_).symm
      rintro ⟨data, event⟩ hreceived event ⟨⟩
      cases event with
      | executionCompleted e => exact absurd hreceived (hother data e)
      | _ => trivial

theorem allKept_run {tenantId : Uuid} {as : List (Replay.Action D)}
    (hrun : run (handledStep cfg) s as = some t) :
    AllKept tenantId t.ghost ↔ AllKept tenantId s.ghost ∧
      Along (Replay.step cfg) (fun s a _ => KeepsCompletions cfg tenantId s a) s.state as := by
  induction as generalizing s with
  | nil =>
    obtain rfl : s = t := by simpa using hrun
    simp
  | cons a as ih =>
    obtain ⟨u, hu, hrest⟩ := run_cons_eq_some hrun
    rw [ih hrest, allKept_step hu, along_cons_some (ghostStep_eq_some hu).1, and_assoc]

end Step

/-- The figures of a tenant are those of its handled completions exactly when the trace of
each was kept. -/
theorem metrics_exact_iff (cfg : Config ℚ D) (tenantId : Uuid) {as : List (Replay.Action D)}
    {t : Ghosted (Replay.State ℚ) (List (Handled D))}
    (hrun : run (handledStep cfg) ⟨{}, []⟩ as = some t) :
    (∀ status, (getMetricsSummary t.state.store.traces tenantId).figures status =
        billed (t.ghost.map Prod.fst) tenantId status) ↔
      Along (Replay.step cfg) (fun s a _ => KeepsCompletions cfg tenantId s a) {} as := by
  have hbilled : Billed t := by
    refine invariant_run (I := Billed) (G := fun _ _ => True) ?_ ?_
      (along_of_mem (fun _ _ => trivial) _) hrun
    · exact fun _ _ _ hI _ h => billed_step hI h
    · exact ⟨fun _ _ h => (by cases h), rfl⟩
  rw [← (allKept_run hrun).trans (and_iff_right (fun h hmem => by cases hmem))]
  rw [AllKept, ← billed_kept_iff]
  exact forall_congr' fun status => by rw [hbilled.figures]

/-! ## An execution that cost 1.5 -/

section Example

/-- Scalars with the floats `0.0` and `1.5` and one instant. -/
def costScalars : Scalars ℚ Unit where
  zero := 0
  floatStr x := if x = 3 / 2 then "1.5" else "0.0"
  floatEq x y := x = y ∧ (x = 0 ∨ x = 3 / 2)
  dateStr := plainScalars.dateStr
  int := plainInt
  float text :=
    if text = "1.5" then .ok (3 / 2) else if text = "0.0" then .ok 0 else .error "float_parsing"
  date := plainScalars.date
  floatEq_self x y h := by
    obtain ⟨-, hx⟩ := of_decide_eq_true h
    exact decide_eq_true ⟨rfl, hx⟩
  int_str := plainInt_str
  float_str x h := by
    obtain ⟨-, rfl | rfl⟩ := of_decide_eq_true h
    · decide +kernel
    · decide +kernel
  date_str := plainScalars.date_str

def completion (totalDurationMs : Int) : Event ℚ Unit :=
  .executionCompleted
    { traceId := Uuid.repdigit 1, tenantId := Uuid.repdigit 2, timestamp := (),
      executionId := Uuid.repdigit 3, workflowId := Uuid.repdigit 4, status := .completed,
      totalDurationMs, totalCostUsd := 3 / 2, totalSteps := 1 }

def completedIn (totalDurationMs : Int) : Config ℚ Unit where
  scalars := costScalars
  builtins := ⟨fun text => (plainInt text).toOption, fun text => (costScalars.float text).toOption⟩
  slowThresholdMs := 30000
  stream := [(completion totalDurationMs).toStreamDict costScalars]

/-- A fast completion whose draw is not below the sample rate is not billed. -/
theorem fast_completion_not_billed :
    (run (handledStep (completedIn 500)) ⟨{}, []⟩
        [.deliver ⟨0, ⟨Uuid.repdigit 0, ()⟩, false, ⟨Uuid.repdigit 0, Uuid.repdigit 0⟩⟩]).any
      fun t =>
        billed (t.ghost.map Prod.fst) (Uuid.repdigit 2) .completed = (1, 3 / 2) ∧
          (getMetricsSummary t.state.store.traces (Uuid.repdigit 2)).figures .completed =
            (0, 0) := by
  decide +kernel

/-- A slow one is. -/
theorem metrics_exact_of_slow :
    ∃ t, run (handledStep (completedIn 45000)) ⟨{}, []⟩
        [.deliver ⟨0, ⟨Uuid.repdigit 0, ()⟩, false, ⟨Uuid.repdigit 0, Uuid.repdigit 0⟩⟩] =
          some t ∧
      ∀ status, (getMetricsSummary t.state.store.traces (Uuid.repdigit 2)).figures status =
        billed (t.ghost.map Prod.fst) (Uuid.repdigit 2) status := by
  have hrun : (run (handledStep (completedIn 45000)) ⟨{}, []⟩
      [.deliver ⟨0, ⟨Uuid.repdigit 0, ()⟩, false, ⟨Uuid.repdigit 0, Uuid.repdigit 0⟩⟩]).isSome := by
    decide +kernel
  obtain ⟨t, ht⟩ := Option.isSome_iff_exists.mp hrun
  exact ⟨t, ht, (metrics_exact_iff (completedIn 45000) (Uuid.repdigit 2) ht).mpr
    (by decide +kernel)⟩

end Example

end Sutram.Observability.MetricsApi
