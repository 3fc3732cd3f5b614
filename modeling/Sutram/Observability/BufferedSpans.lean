/-
What a flush returns of the events of one execution.

The buffer is a hash, and a span is stored under a key made of the kind of its event and
the step it concerns.  A redelivery finds its own span there and replaces it by itself.
So does another event of the same kind about the same step: a step that is attempted
again, or a second start of the execution.
-/
import Mathlib.Data.List.Dedup
import Sutram.Observability.Replay

namespace Sutram.Core

/-- What makes two deliveries deliveries of one event. -/
def Event.traceId {F D : Type} : Event F D → Uuid
  | .executionStarted e => e.traceId
  | .stepCompleted e => e.traceId
  | .stepFailed e => e.traceId
  | .executionCompleted e => e.traceId
  | .executionPaused e => e.traceId
  | .memoryWritten e => e.traceId
  | .memorySearched e => e.traceId

end Sutram.Core

namespace Sutram.Observability.Replay

open Sutram.Core

variable {F D : Type}

/-! ## Span keys -/

/-- Both are starts, or outcomes of one kind of one step. -/
def SameSpan : Event F D → Event F D → Prop
  | .executionStarted _, .executionStarted _ => True
  | .stepCompleted e, .stepCompleted e' => e.stepIndex = e'.stepIndex
  | .stepFailed e, .stepFailed e' => e.stepIndex = e'.stepIndex
  | _, _ => False

def spanName (e : Event F D) : String := ((spanKey e).map Prod.snd).getD ""

/-- The event is one of those buffered for the execution. -/
def SpanOf (executionId : Uuid) (e : Event F D) : Prop :=
  spanKey e = some (executionId, spanName e)

theorem toString_injective {n m : Int} (h : toString n = toString m) : n = m := by
  have := plainInt_str m
  rw [← h, plainInt_str] at this
  exact Except.ok.inj this

theorem append_ne_of_take {a b : String} (c d : String) {n : Nat} (ha : n ≤ a.toList.length)
    (hb : n ≤ b.toList.length) (h : a.toList.take n ≠ b.toList.take n) : a ++ c ≠ b ++ d := by
  intro heq
  have htake := congrArg (fun s : String => s.toList.take n) heq
  simp only [String.toList_append, List.take_append_of_le_length ha,
    List.take_append_of_le_length hb] at htake
  exact h htake

/-- The keys of two spans are the same when the events are of one kind and one step. -/
theorem spanName_eq_iff {executionId : Uuid} {e e' : Event F D} (h : SpanOf executionId e)
    (h' : SpanOf executionId e') : spanName e = spanName e' ↔ SameSpan e e' := by
  have hstarted (c d : String) : "started:" ++ c ≠ "step:" ++ d :=
    append_ne_of_take (n := 5) c d (by decide) (by decide) (by decide)
  have hstarted' (c d : String) : "started:" ++ c ≠ "step_failed:" ++ d :=
    append_ne_of_take (n := 5) c d (by decide) (by decide) (by decide)
  have hstep (c d : String) : "step:" ++ c ≠ "step_failed:" ++ d :=
    append_ne_of_take (n := 5) c d (by decide) (by decide) (by decide)
  have hindex (n m : Int) : n.repr = m.repr ↔ n = m := ⟨toString_injective, congrArg toString⟩
  unfold SpanOf at h h'
  cases e with
  | executionStarted e =>
    cases e' with
    | executionStarted e' =>
      simp only [spanKey, Option.some.injEq, Prod.mk.injEq] at h h'
      simp [spanName, spanKey, SameSpan, h.1, h'.1]
    | stepCompleted e' => simp [spanName, spanKey, SameSpan, hstarted]
    | stepFailed e' => simp [spanName, spanKey, SameSpan, hstarted']
    | _ => cases h'
  | stepCompleted e =>
    cases e' with
    | executionStarted e' => simp [spanName, spanKey, SameSpan, (hstarted _ _).symm]
    | stepCompleted e' => simp [spanName, spanKey, SameSpan, hindex]
    | stepFailed e' => simp [spanName, spanKey, SameSpan, hstep]
    | _ => cases h'
  | stepFailed e =>
    cases e' with
    | executionStarted e' => simp [spanName, spanKey, SameSpan, (hstarted' _ _).symm]
    | stepCompleted e' => simp [spanName, spanKey, SameSpan, (hstep _ _).symm]
    | stepFailed e' => simp [spanName, spanKey, SameSpan, hindex]
    | _ => cases h'
  | _ => cases h

/-! ## A sequence of deliveries -/

structure Handled (F D : Type) where
  delivery : Delivery D
  data : Data
  event : Event F D

/-- What every delivery of a message has in common. -/
def Handled.message (h : Handled F D) : Data × Event F D := (h.data, h.event)

def handleAll (cfg : Config F D) (s : Store F) (hs : List (Handled F D)) : Store F :=
  hs.foldl (fun s h => s.handle cfg h.delivery h.data h.event) s

/-- The spans are those of the events handled, each event's once. -/
def ExactlyOnce (hs : List (Handled F D)) (spans : List Data) : Prop :=
  ∃ distinct : List (Data × Event F D), (distinct.map fun m => m.2.traceId).Nodup ∧
    (∀ m, m ∈ distinct ↔ m ∈ hs.map Handled.message) ∧ spans.Perm (distinct.map Prod.fst)

theorem handle_spans (cfg : Config F D) (s : Store F) (d : Delivery D) (data : Data)
    {executionId : Uuid} {e : Event F D} (h : SpanOf executionId e) :
    (s.handle cfg d data e).buffer.spans executionId =
      (s.buffer.spans executionId).set (spanName e) data := by
  have hbuffer : (s.bufferSpan e data).buffer.spans executionId =
      (s.buffer.spans executionId).set (spanName e) data := by
    unfold SpanOf at h
    simp only [Store.bufferSpan, h, TraceBuffer.bufferSpan, Function.update_self]
  unfold SpanOf at h
  cases e with
  | executionStarted e | stepCompleted e | stepFailed e => exact hbuffer
  | _ => cases h

/-- The buffer is the dictionary of the spans in the order of their deliveries. -/
theorem handleAll_spans (cfg : Config F D) {s : Store F} {executionId : Uuid}
    (hempty : s.buffer.spans executionId = Dict.empty) {hs : List (Handled F D)}
    (hspan : ∀ h ∈ hs, SpanOf executionId h.event) :
    (handleAll cfg s hs).buffer.spans executionId =
      Dict.ofPairs ((hs.map Handled.message).map fun m => (spanName m.2, m.1)) := by
  induction hs using List.reverseRecOn with
  | nil => exact hempty
  | append_singleton hs h ih =>
    have hrest := ih fun h hh => hspan h (List.mem_append_left _ hh)
    have hlast : handleAll cfg s (hs ++ [h]) =
        (handleAll cfg s hs).handle cfg h.delivery h.data h.event := by
      simp [handleAll]
    rw [hlast, handle_spans cfg _ _ _ (hspan h (by simp)), hrest, List.map_append, List.map_append,
      List.map_singleton, List.map_singleton, Dict.ofPairs_concat]
    rfl

theorem flush_leaves_nothing (s : Store F) (executionId : Uuid) :
    (s.flush executionId).buffer.spans executionId = Dict.empty ∧
      (s.flush executionId).buffer.hasFailure executionId = false := by
  simp [Store.flush, TraceBuffer.dropFailure, TraceBuffer.dropSpans]

/-- A flush returns one span of every event and leaves nothing, exactly as long as no two
events are starts, or outcomes of one kind of one step. -/
theorem flush_exactlyOnce_iff (cfg : Config F D) {s : Store F} {executionId : Uuid}
    (hempty : s.buffer.spans executionId = Dict.empty) {hs : List (Handled F D)}
    (hspan : ∀ h ∈ hs, SpanOf executionId h.event)
    (hsame : ∀ h ∈ hs, ∀ h' ∈ hs, h.event.traceId = h'.event.traceId → h.message = h'.message) :
    (ExactlyOnce hs ((handleAll cfg s hs).buffer.values executionId) ∧
        ((handleAll cfg s hs).flush executionId).buffer.spans executionId = Dict.empty ∧
        ((handleAll cfg s hs).flush executionId).buffer.hasFailure executionId = false) ↔
      ∀ h ∈ hs, ∀ h' ∈ hs, SameSpan h.event h'.event →
        h.event.traceId = h'.event.traceId := by
  have hmessages : ∀ m ∈ hs.map Handled.message, ∀ m' ∈ hs.map Handled.message,
      m.2.traceId = m'.2.traceId → m = m' :=
    List.forall_mem_map.mpr fun h hh => List.forall_mem_map.mpr (hsame h hh)
  have hkeys : (∀ h ∈ hs, ∀ h' ∈ hs, SameSpan h.event h'.event →
      h.event.traceId = h'.event.traceId) ↔
      ∀ m ∈ hs.map Handled.message, ∀ m' ∈ hs.map Handled.message,
        spanName m.2 = spanName m'.2 → m = m' := by
    rw [List.forall_mem_map]
    refine forall₂_congr fun h hh => ?_
    rw [List.forall_mem_map]
    refine forall₂_congr fun h' hh' => ?_
    rw [← spanName_eq_iff (hspan h hh) (hspan h' hh')]
    refine imp_congr_right fun _ => ⟨hsame h hh h' hh', fun heq => ?_⟩
    exact congrArg (fun m : Data × Event F D => m.2.traceId) heq
  rw [hkeys, TraceBuffer.values, handleAll_spans cfg hempty hspan]
  constructor
  · rintro ⟨⟨distinct, -, hmem, hperm⟩, -⟩
    refine Dict.separate_of_length Prod.fst hmem ?_
    simpa using hperm.length_eq.ge
  · intro hsep
    refine ⟨?_, flush_leaves_nothing _ _⟩
    classical
    have hmem (m : Data × Event F D) :
        m ∈ (hs.map Handled.message).dedup ↔ m ∈ hs.map Handled.message := List.mem_dedup
    have hnodup := List.nodup_dedup (hs.map Handled.message)
    refine ⟨(hs.map Handled.message).dedup, ?_, hmem, ?_⟩
    · refine List.Nodup.map_on (fun m hm m' hm' h => ?_) hnodup
      exact hmessages m ((hmem m).mp hm) m' ((hmem m').mp hm') h
    · have hperm := (Dict.entries_perm_of_separate Prod.fst hnodup hmem hsep).map Prod.snd
      simpa [Function.comp_def] using hperm

/-! ## A step that fails twice -/

def handledAs (event : Event Unit Unit) : Handled Unit Unit where
  delivery := ⟨0, ⟨Uuid.repdigit 0, ()⟩, false, ⟨Uuid.repdigit 0, Uuid.repdigit 0⟩⟩
  data := event.toStreamDict plainScalars
  event := event

def started : Handled Unit Unit :=
  handledAs (.executionStarted
    { traceId := Uuid.repdigit 9, tenantId := Uuid.repdigit 2, timestamp := (),
      executionId := Uuid.repdigit 3, workflowId := Uuid.repdigit 4 })

/-- A failure of the first step, with its own trace id for each attempt. -/
def fetchFailed (attempt : Fin 16) : Handled Unit Unit :=
  handledAs (.stepFailed
    { traceId := Uuid.repdigit attempt, tenantId := Uuid.repdigit 2, timestamp := (),
      executionId := Uuid.repdigit 3, workflowId := Uuid.repdigit 4, stepName := "fetch",
      stepIndex := 0, errorType := "TimeoutError", errorMessage := "timed out" })

/-- The step fails again after a resume, and the flush returns one span. -/
theorem second_attempt_replaces_first :
    ¬ ExactlyOnce [fetchFailed 1, fetchFailed 2]
      ((handleAll slowExecution {} [fetchFailed 1, fetchFailed 2]).buffer.values
        (Uuid.repdigit 3)) := by
  intro h
  obtain ⟨distinct, -, hmem, hperm⟩ := h
  have hvalues : ((handleAll slowExecution {} [fetchFailed 1, fetchFailed 2]).buffer.values
      (Uuid.repdigit 3)).length = 1 := by decide +kernel
  have hlength : distinct.length = 1 := by
    rw [← hvalues, hperm.length_eq, List.length_map]
  obtain ⟨m, rfl⟩ := List.length_eq_one_iff.mp hlength
  have hfirst : (fetchFailed 1).message = m := by
    simpa using (hmem (fetchFailed 1).message).mpr (by simp)
  have hsecond : (fetchFailed 2).message = m := by
    simpa using (hmem (fetchFailed 2).message).mpr (by simp)
  exact absurd (hfirst.trans hsecond.symm) (by decide +kernel)

/-- The start, and a failure that is delivered twice. -/
theorem redelivered_attempt_kept_once :
    ExactlyOnce [started, fetchFailed 1, fetchFailed 1]
      ((handleAll slowExecution {} [started, fetchFailed 1, fetchFailed 1]).buffer.values
        (Uuid.repdigit 3)) := by
  refine ((flush_exactlyOnce_iff slowExecution rfl ?_ ?_).mpr ?_).1
  · simp [SpanOf, spanName, spanKey, started, fetchFailed, handledAs]
  · decide +kernel
  · simp [SameSpan, started, fetchFailed, handledAs]

end Sutram.Observability.Replay
