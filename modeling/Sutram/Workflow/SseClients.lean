/-
What the clients of an event stream read.

The service encodes each frame, the gateway passes on the bytes of the response in the
pieces they come in, and the client's EventSource reads the events out of them again.
The data of an event is the entry of the stream as JSON, on one line.
-/
import Sutram.Core.Events
import Sutram.Core.JsonText
import Sutram.Gateway.Proxy
import Sutram.Library.EventSource
import Sutram.Observability.Dispatcher
import Sutram.Workflow.EventStream

namespace Sutram.Gateway.Proxy

/-- `event_stream`: the pieces of the upstream body, if the upstream answers with 200. -/
def eventStream {ε : Type} (statusCode : Nat) (pieces : List ByteArray) :
    Except (Exn ε) (List ByteArray) :=
  if statusCode ≠ 200 then .error (.httpException statusCode) else .ok pieces

end Sutram.Gateway.Proxy

namespace Sutram.Workflow

open Sutram.Core Sutram.Gateway Runs Streams

/-! ## Bytes -/

/-- A body from its pieces. -/
def joined (pieces : List ByteArray) : ByteArray := pieces.foldr (· ++ ·) ByteArray.empty

/-- The chunks of a response as they are sent. -/
def encoded (chunks : List String) : List ByteArray := chunks.map String.toByteArray

/-- The events an EventSource dispatches for a body. -/
def dispatched (body : ByteArray) : Option (List EventSource.Event) :=
  body.utf8Decode?.map fun text => (EventSource.read {} text.toList).events

theorem joined_encoded (chunks : List String) :
    joined (encoded chunks) = (chunks.flatMap String.toList).utf8Encode := by
  induction chunks with
  | nil => rfl
  | cons chunk chunks ih =>
    have hchunk : chunk.toByteArray = chunk.toList.utf8Encode := by
      rw [← String.toByteArray_ofList, String.ofList_toList]
    rw [List.flatMap_cons, List.utf8Encode_append, ← ih, ← hchunk]
    rfl

/-! ## Entries -/

namespace Fields

/-- The entry as JSON. -/
def json (fields : Fields) : Json := .dict (fields.entries.map fun e => (e.1, .str e.2))

theorem plain_json (float : String → String) (fields : Fields) : fields.json.Plain float :=
  Json.plain_strs fields.nodup

theorem sseFrame_eq (fields : Fields) :
    fields.sseFrame = EventSource.frame (fields.eventType.getD "message") fields.json.dumps := rfl

theorem oneLine_dumps (fields : Fields) : EventSource.OneLine fields.json.dumps.toList := by
  intro c hc
  have hprint := Json.printable_dumps _ (fields.plain_json id) c hc
  constructor <;> (rintro rfl; exact absurd hprint (by decide))

/-- What an EventSource makes of the entry. -/
def event (fields : Fields) : EventSource.Event :=
  ⟨fields.eventType.getD "message", fields.json.dumps⟩

end Fields

/-- The frames of entries whose event types fit in a line. -/
theorem read_frames {entries : List Fields}
    (h : ∀ fields ∈ entries, ∃ name, fields.eventType = some name ∧ name ≠ "" ∧
      EventSource.OneLine name.toList) {r : EventSource.Reader} (hr : EventSource.Ready r) :
    EventSource.read r ((entries.map Fields.sseFrame).flatMap String.toList) =
      { r with events := r.events ++ entries.map Fields.event } := by
  induction entries generalizing r with
  | nil => simp [EventSource.read]
  | cons fields entries ih =>
    obtain ⟨⟨name, hname, hne, hline⟩, hrest⟩ := List.forall_mem_cons.mp h
    have hframe := EventSource.read_frame hr hline fields.oneLine_dumps
    have hevent : fields.event = ⟨name, fields.json.dumps⟩ := by rw [Fields.event, hname]; rfl
    rw [if_neg hne, ← hevent] at hframe
    have hr' : EventSource.Ready { r with events := r.events ++ [fields.event] } := hr
    rw [List.map_cons, List.flatMap_cons, EventSource.read_append, Fields.sseFrame_eq, hname,
      Option.getD_some, hframe, ih hrest hr']
    simp

/-! ## The entries of a run -/

/-- Every entry is of the kind, in the stream and in the hands of the clients. -/
structure Entries (P : Fields → Prop) (w : Feed) : Prop where
  stream : ∀ m ∈ w.group.messages, P m.body
  clients : ∀ c, ∀ m ∈ (w.clients c).sent ++ (w.clients c).phase.batch, P m.body
  chunks : ∀ c, (w.clients c).chunks = (w.clients c).sent.map fun m => m.body.sseFrame

/-- A client moves. -/
theorem Entries.set {P : Fields → Prop} {w : Feed} (hI : Entries P w) {c : Nat} {k : Client}
    (hmessages : ∀ m ∈ k.sent ++ k.phase.batch, P m.body)
    (hchunks : k.chunks = k.sent.map fun m => m.body.sseFrame) : Entries P (w.set c k) := by
  refine ⟨hI.stream, fun d m hm => ?_, fun d => ?_⟩
  · by_cases hd : d = c
    · subst hd
      simp only [Feed.set, Function.update_self] at hm
      exact hmessages m hm
    · simp only [Feed.set, Function.update_of_ne hd] at hm
      exact hI.clients d m hm
  · by_cases hd : d = c
    · subst hd
      simpa [Feed.set] using hchunks
    · simpa [Feed.set, hd] using hI.chunks d

theorem entries_step {P : Fields → Prop} {w w' : Feed} {a : FeedAction}
    (hP : ∀ fields evicts, a = .publish fields evicts → P fields) (hI : Entries P w)
    (h : feedStep w a = some w') : Entries P w' := by
  cases a with
  | publish fields evicts =>
    simp only [feedStep] at h
    split at h <;> cases h
    refine ⟨fun m hm => ?_, hI.clients, hI.chunks⟩
    rw [Group.evict_messages, Group.append_messages] at hm
    rcases List.mem_append.mp hm with hm | hm
    · exact hI.stream m hm
    · rw [List.mem_singleton.mp hm]
      exact hP fields evicts rfl
  | connect c =>
    simp only [feedStep] at h
    split at h <;> cases h
    exact hI.set (fun _ hm => absurd hm List.not_mem_nil) rfl
  | run c =>
    simp only [feedStep, runClient] at h
    split at h
    · rename_i hreading
      cases h
      have hread : Entries P { w with group := w.group.read readCount } :=
        ⟨hI.stream, hI.clients, hI.chunks⟩
      refine hread.set (fun m hm => ?_) (hI.chunks c)
      rw [ofBatch_batch] at hm
      rcases List.mem_append.mp hm with hm | hm
      · exact hI.clients c m (List.mem_append_left _ hm)
      · exact hI.stream m (List.mem_of_mem_drop (List.mem_of_mem_take hm))
    · rename_i m rest hsending
      cases h
      have hheld : ∀ x ∈ (w.clients c).sent ++ m :: rest, P x.body := by
        have hclients := hI.clients c
        rwa [hsending] at hclients
      refine hI.set (fun x hx => hheld x ?_) (by simp [hI.chunks c])
      rcases List.mem_append.mp hx with hx | hx
      · rcases List.mem_append.mp hx with hx | hx
        · exact List.mem_append_left _ hx
        · exact List.mem_append_right _ (List.mem_cons.mpr (.inl (List.mem_singleton.mp hx)))
      · split at hx
        · cases hx
        · rw [ofBatch_batch] at hx
          exact List.mem_append_right _ (List.mem_cons_of_mem m hx)
    · cases h
  | drop c =>
    simp only [feedStep] at h
    split at h <;> cases h
    refine hI.set (fun m hm => hI.clients c m ?_) (hI.chunks c)
    simpa [ClientPhase.batch] using List.mem_append_left _ hm

theorem entries_of_run {P : Fields → Prop} {w : Feed} {as : List FeedAction}
    (hP : ∀ fields evicts, .publish fields evicts ∈ as → P fields)
    (hrun : run feedStep {} as = some w) : Entries P w := by
  have hinitial : Entries P {} := ⟨nofun, fun c => nofun, fun c => rfl⟩
  refine invariant_run (G := fun _ a => ∀ fields evicts, a = .publish fields evicts → P fields)
    (fun _ _ _ hI hG h => entries_step hG hI h) hinitial ?_ hrun
  refine along_of_mem (fun a ha fields evicts heq => ?_) _
  subst heq
  exact hP fields evicts ha

section Published

variable {F D : Type} (scalars : Scalars F D)

theorem eventType_toStreamDict (e : Event F D) :
    Fields.eventType (e.toStreamDict scalars) = some e.eventType :=
  e.get?_toStreamDict scalars (k := "event_type") (v := .str e.eventType) (by
    simp [Event.modelDump, BaseEvent.dump])

theorem oneLine_eventType (e : Event F D) :
    e.eventType ≠ "" ∧ EventSource.OneLine e.eventType.toList := by
  cases e <;> simp only [Event.eventType] <;>
    exact ⟨by decide, List.all_iff_forall_prop.mp (by decide)⟩

/-- Whatever clients there are and in whatever pieces the gateway receives the response, the
client's EventSource dispatches the entries it was sent, in order, each under its event type
and with its fields as JSON. -/
theorem events_of_run {w : Feed} {as : List FeedAction}
    (hpublished : ∀ fields evicts, .publish fields evicts ∈ as →
      ∃ e : Event F D, fields = e.toStreamDict scalars)
    (hrun : run feedStep {} as = some w) (c : Nat) {pieces : List ByteArray}
    (hpieces : joined pieces = joined (encoded (w.clients c).chunks)) :
    ∃ events, (Proxy.eventStream 200 pieces : Except (Proxy.Exn Unit) _).map
        (fun body => dispatched (joined body)) = .ok (some events) ∧
      events.map (fun e => (some e.name, Json.loads id e.data)) =
        (w.clients c).sent.map fun m => (m.body.eventType, some m.body.json) := by
  have hentries := entries_of_run (P := fun fields => ∃ e : Event F D,
    fields = e.toStreamDict scalars) hpublished hrun
  have hnames : ∀ fields ∈ (w.clients c).sent.map Message.body, ∃ name,
      fields.eventType = some name ∧ name ≠ "" ∧ EventSource.OneLine name.toList := by
    intro fields hfields
    obtain ⟨m, hm, rfl⟩ := List.mem_map.mp hfields
    obtain ⟨e, he⟩ := hentries.clients c m (List.mem_append_left _ hm)
    rw [he]
    exact ⟨e.eventType, eventType_toStreamDict scalars e, oneLine_eventType e⟩
  have hread := read_frames hnames (r := {}) ⟨rfl, rfl, rfl, rfl⟩
  have hchunks : (w.clients c).chunks =
      ((w.clients c).sent.map Message.body).map Fields.sseFrame := by
    rw [hentries.chunks c, List.map_map]
    rfl
  refine ⟨((w.clients c).sent.map Message.body).map Fields.event, ?_, ?_⟩
  · show Except.ok (dispatched (joined pieces)) = _
    rw [hpieces, joined_encoded, dispatched, List.utf8Decode?_utf8Encode, hchunks]
    show Except.ok (some (EventSource.read {} _).events) = _
    rw [hread]
    rfl
  · simp only [List.map_map]
    refine List.map_congr_left fun m hm => ?_
    obtain ⟨name, hname, -⟩ := hnames m.body (List.mem_map_of_mem hm)
    simp [Fields.event, hname, Json.loads_dumps (Fields.plain_json id m.body)]

end Published

/-- A step of a workflow, and its end. -/
def stepEvents : List (Event Unit Unit) :=
  [.stepCompleted
      { traceId := .repdigit 1, tenantId := .repdigit 2, timestamp := (),
        executionId := .repdigit 3, workflowId := .repdigit 4, stepName := "summarize",
        stepIndex := 1, durationMs := 500, costUsd := (),
        outputs := [("answer", .str "yes\n\ndata: no")] },
    .executionCompleted
      { traceId := .repdigit 1, tenantId := .repdigit 2, timestamp := (),
        executionId := .repdigit 3, workflowId := .repdigit 4, status := .completed,
        totalDurationMs := 700, totalCostUsd := (), totalSteps := 1 }]

def publishedSteps : List FeedAction :=
  .connect 0 :: (stepEvents.map fun e =>
    .publish (e.toStreamDict Observability.plainScalars) 0) ++ [.run 0, .run 0, .run 0]

theorem events_of_run_steps :
    ∃ w events, run feedStep {} publishedSteps = some w ∧
      dispatched (joined [joined (encoded (w.clients 0).chunks)]) = some events ∧
      events.map (fun e => some e.name) =
        [some "execution.step.completed", some "execution.completed"] := by
  obtain ⟨w, hrun, hsent⟩ : ∃ w, run feedStep {} publishedSteps = some w ∧
      (w.clients 0).sent.map (fun m => m.body.eventType) =
        [some "execution.step.completed", some "execution.completed"] :=
    exists_of_any (by decide +kernel)
  have hpublished : ∀ fields evicts, .publish fields evicts ∈ publishedSteps →
      ∃ e : Event Unit Unit, fields = e.toStreamDict Observability.plainScalars := by
    intro fields evicts h
    have hmem : FeedAction.publish fields evicts ∈ stepEvents.map fun e =>
        FeedAction.publish (e.toStreamDict Observability.plainScalars) 0 := by
      simpa [publishedSteps] using h
    obtain ⟨e, -, he⟩ := List.mem_map.mp hmem
    cases he
    exact ⟨e, rfl⟩
  have hpieces : joined [joined (encoded (w.clients 0).chunks)] =
      joined (encoded (w.clients 0).chunks) := ByteArray.append_empty
  obtain ⟨events, hbody, hevents⟩ := events_of_run Observability.plainScalars hpublished hrun 0
    hpieces
  refine ⟨w, events, hrun, Except.ok.inj hbody, ?_⟩
  have hnames := congrArg (List.map Prod.fst) hevents
  rw [List.map_map, List.map_map] at hnames
  exact hnames.trans hsent

end Sutram.Workflow
