/-
The dispatcher of the observability consumer, and its round trip with the encoder.

`parse_event` picks the event class by the `event_type` of a message and validates the
message against it.
-/
import Sutram.Core.Events

namespace Sutram.Observability

open Sutram.Core

variable {F D : Type}

inductive ParseError where
  | unknownEventType (eventType : String)
  | validationError (errors : List FieldError)
deriving DecidableEq, Repr

section Parse

variable (c : Scalars F D) (fresh : Fresh D) (data : Dict String String)

def registry : List (String × Checked (Event F D)) :=
  [("execution.started", (ExecutionStartedEvent.validate c fresh data).map .executionStarted),
    ("execution.step.completed", (StepCompletedEvent.validate c fresh data).map .stepCompleted),
    ("execution.step.failed", (StepFailedEvent.validate c fresh data).map .stepFailed),
    ("execution.completed",
      (ExecutionCompletedEvent.validate c fresh data).map .executionCompleted),
    ("execution.paused", (ExecutionPausedEvent.validate c fresh data).map .executionPaused),
    ("memory.written", (MemoryWrittenEvent.validate c fresh data).map .memoryWritten),
    ("memory.searched", (MemorySearchedEvent.validate c fresh data).map .memorySearched)]

def parseEvent : Except ParseError (Event F D) :=
  let eventType := (data.get? "event_type").getD ""
  match (registry c fresh data).lookup eventType with
  | none => .error (.unknownEventType eventType)
  | some checked => checked.mapError .validationError

end Parse

/-! ## Defaults do not decide -/

section Defaults

variable (c : Scalars F D) (fresh fresh' : Fresh D) (data : Dict String String)

theorem isOk_validate_base (eventType : String) :
    (BaseEvent.validate c fresh data eventType).isOk =
      (BaseEvent.validate c fresh' data eventType).isOk := by
  simp only [BaseEvent.validate, Checked.isOk_seq]
  rw [isOk_optional fresh.traceId fresh'.traceId, isOk_optional fresh.timestamp fresh'.timestamp]

theorem isOk_map {α β : Type} (x : Checked α) (f : α → β) : (x.map f).isOk = x.isOk := by
  cases x <;> rfl

theorem isOk_registry :
    (registry c fresh data).map (fun entry => (entry.1, entry.2.isOk)) =
      (registry c fresh' data).map fun entry => (entry.1, entry.2.isOk) := by
  simp only [registry, List.map_cons, List.map_nil, isOk_map, ExecutionStartedEvent.validate,
    StepCompletedEvent.validate, StepFailedEvent.validate, ExecutionCompletedEvent.validate,
    ExecutionPausedEvent.validate, MemoryWrittenEvent.validate, MemorySearchedEvent.validate,
    Checked.isOk_seq, isOk_validate_base c fresh fresh' data]

theorem lookup_map_snd {α β : Type} (f : α → β) (k : String) (l : List (String × α)) :
    (l.map fun entry => (entry.1, f entry.2)).lookup k = (l.lookup k).map f := by
  induction l with
  | nil => rfl
  | cons entry rest ih =>
    rw [List.map_cons, List.lookup_cons, List.lookup_cons, ih]
    cases k == entry.1 <;> rfl

theorem isOk_parseEvent_eq :
    (parseEvent c fresh data).isOk = ((((registry c fresh data).map fun entry =>
      (entry.1, entry.2.isOk)).lookup ((data.get? "event_type").getD "")).getD false) := by
  rw [lookup_map_snd]
  unfold parseEvent
  cases hlookup : (registry c fresh data).lookup ((data.get? "event_type").getD "") with
  | none => simp only [hlookup]; rfl
  | some checked =>
    simp only [hlookup]
    cases checked <;> rfl

/-- A message is parsed with any defaults or with none. -/
theorem isOk_parseEvent : (parseEvent c fresh data).isOk = (parseEvent c fresh' data).isOk := by
  rw [isOk_parseEvent_eq, isOk_registry c fresh fresh' data, ← isOk_parseEvent_eq]

end Defaults

/-! ## What a parsed message says -/

section Parsed

variable {c : Scalars F D} {fresh : Fresh D} {data : Dict String String}

theorem map_mapError_eq_ok_iff {α : Type} {checked : Checked α} {f : α → Event F D}
    {e : Event F D} :
    (checked.map f).mapError ParseError.validationError = .ok e ↔
      ∃ a, checked = .ok a ∧ f a = e := by
  cases checked <;> simp [Except.map, Except.mapError]

theorem parseEvent_of_get {eventType : String} {checked : Checked (Event F D)}
    (hget : data.get? "event_type" = some eventType)
    (hlookup : (registry c fresh data).lookup eventType = some checked) :
    parseEvent c fresh data = checked.mapError .validationError := by
  simp only [parseEvent, hget, Option.getD_some, hlookup]

theorem eq_some_of_getD {o : Option String} {text : String} (h : o.getD "" = text)
    (hne : text ≠ "") : o = some text := by
  cases o with
  | none => exact absurd h.symm hne
  | some text' => exact congrArg some h

/-- An event comes from a message of its own type. -/
theorem parseEvent_eventType {e : Event F D} (h : parseEvent c fresh data = .ok e) :
    data.get? "event_type" = some e.eventType := by
  unfold parseEvent at h
  cases hlookup : (registry c fresh data).lookup ((data.get? "event_type").getD "") with
  | none => simp [hlookup] at h
  | some checked =>
    simp only [hlookup] at h
    obtain ⟨before, after, hsplit, -⟩ := List.lookup_eq_some_iff.mp hlookup
    have hmem : ((data.get? "event_type").getD "", checked) ∈ registry c fresh data := by
      rw [hsplit]
      exact List.mem_append_right _ List.mem_cons_self
    simp only [registry, List.mem_cons, List.not_mem_nil, or_false, Prod.mk.injEq] at hmem
    rcases hmem with ⟨hk, rfl⟩ | ⟨hk, rfl⟩ | ⟨hk, rfl⟩ | ⟨hk, rfl⟩ | ⟨hk, rfl⟩ | ⟨hk, rfl⟩ |
      ⟨hk, rfl⟩
    all_goals
      obtain ⟨a, -, rfl⟩ := map_mapError_eq_ok_iff.mp h
      exact eq_some_of_getD hk (by simp [Event.eventType])

/-- A message of a registered type is not of an unknown type. -/
theorem parseEvent_unknown {eventType : String}
    (h : parseEvent c fresh data = .error (.unknownEventType eventType)) :
    data.get? "event_type" ≠ some "execution.completed" := by
  intro hget
  have hparse := parseEvent_of_get hget
    (rfl : (registry c fresh data).lookup "execution.completed" =
      some ((ExecutionCompletedEvent.validate c fresh data).map .executionCompleted))
  rw [hparse] at h
  cases hvalidate : ExecutionCompletedEvent.validate c fresh data with
  | ok e =>
    rw [hvalidate] at h
    cases h
  | error es =>
    rw [hvalidate] at h
    cases h

/-- The class an event is of is the one that has validated its message. -/
theorem validate_of_parsed {α : Type} {checked : Checked α} {mk : α → Event F D} {a : α}
    (hmk : mk.Injective)
    (hlookup : (registry c fresh data).lookup (mk a).eventType = some (checked.map mk))
    (h : parseEvent c fresh data = .ok (mk a)) : checked = .ok a := by
  rw [parseEvent_of_get (parseEvent_eventType h) hlookup] at h
  obtain ⟨a', hchecked, ha'⟩ := map_mapError_eq_ok_iff.mp h
  rw [hchecked, hmk ha']

theorem executionId_of_required {u : Uuid}
    (h : required data "execution_id" Coerce.uuid = .ok u) :
    (data.get? "execution_id").bind Uuid.parse = some u := by
  obtain ⟨text, hget, hok⟩ := required_eq_ok_iff.mp h
  rw [hget]
  exact Coerce.uuid_eq_ok_iff.mp hok

/-- The two fields of a completed event the sampler decides by. -/
theorem parseEvent_executionCompleted {e : ExecutionCompletedEvent F D}
    (h : parseEvent c fresh data = .ok (.executionCompleted e)) :
    (data.get? "execution_id").bind Uuid.parse = some e.executionId ∧
      (data.get? "total_duration_ms").map c.int = some (.ok e.totalDurationMs) := by
  have hvalidate := validate_of_parsed (fun _ _ => Event.executionCompleted.inj) rfl h
  obtain ⟨_, steps, h1, -, rfl⟩ := Checked.seq_eq_ok_iff.mp hvalidate
  obtain ⟨_, cost, h2, -, rfl⟩ := Checked.seq_eq_ok_iff.mp h1
  obtain ⟨_, duration, h3, hduration, rfl⟩ := Checked.seq_eq_ok_iff.mp h2
  obtain ⟨_, status, h4, -, rfl⟩ := Checked.seq_eq_ok_iff.mp h3
  obtain ⟨_, workflowId, h5, -, rfl⟩ := Checked.seq_eq_ok_iff.mp h4
  obtain ⟨_, executionId, h6, hexecution, rfl⟩ := Checked.seq_eq_ok_iff.mp h5
  obtain ⟨_, base, h7, -, rfl⟩ := Checked.seq_eq_ok_iff.mp h6
  cases h7
  obtain ⟨text, hget, hok⟩ := required_eq_ok_iff.mp hduration
  exact ⟨executionId_of_required hexecution, by rw [hget]; exact congrArg some hok⟩

theorem parseEvent_executionStarted {e : ExecutionStartedEvent D}
    (h : parseEvent c fresh data = .ok (.executionStarted e : Event F D)) :
    (data.get? "execution_id").bind Uuid.parse = some e.executionId := by
  have hvalidate := validate_of_parsed (fun _ _ => Event.executionStarted.inj) rfl h
  obtain ⟨_, workflowId, h1, -, rfl⟩ := Checked.seq_eq_ok_iff.mp hvalidate
  obtain ⟨_, executionId, h2, hexecution, rfl⟩ := Checked.seq_eq_ok_iff.mp h1
  obtain ⟨_, base, h3, -, rfl⟩ := Checked.seq_eq_ok_iff.mp h2
  cases h3
  exact executionId_of_required hexecution

/-- A span is buffered under the execution its message names. -/
theorem parseEvent_stepFailed {e : StepFailedEvent D}
    (h : parseEvent c fresh data = .ok (.stepFailed e : Event F D)) :
    (data.get? "execution_id").bind Uuid.parse = some e.executionId := by
  have hvalidate := validate_of_parsed (fun _ _ => Event.stepFailed.inj) rfl h
  obtain ⟨_, retry, h1, -, rfl⟩ := Checked.seq_eq_ok_iff.mp hvalidate
  obtain ⟨_, message, h2, -, rfl⟩ := Checked.seq_eq_ok_iff.mp h1
  obtain ⟨_, type, h3, -, rfl⟩ := Checked.seq_eq_ok_iff.mp h2
  obtain ⟨_, stepIndex, h4, -, rfl⟩ := Checked.seq_eq_ok_iff.mp h3
  obtain ⟨_, stepName, h5, -, rfl⟩ := Checked.seq_eq_ok_iff.mp h4
  obtain ⟨_, workflowId, h6, -, rfl⟩ := Checked.seq_eq_ok_iff.mp h5
  obtain ⟨_, executionId, h7, hexecution, rfl⟩ := Checked.seq_eq_ok_iff.mp h6
  obtain ⟨_, base, h8, -, rfl⟩ := Checked.seq_eq_ok_iff.mp h7
  cases h8
  exact executionId_of_required hexecution

theorem parseEvent_stepCompleted {e : StepCompletedEvent F D}
    (h : parseEvent c fresh data = .ok (.stepCompleted e)) :
    (data.get? "execution_id").bind Uuid.parse = some e.executionId := by
  have hvalidate := validate_of_parsed (fun _ _ => Event.stepCompleted.inj) rfl h
  obtain ⟨_, outputs, h1, -, rfl⟩ := Checked.seq_eq_ok_iff.mp hvalidate
  obtain ⟨_, cost, h2, -, rfl⟩ := Checked.seq_eq_ok_iff.mp h1
  obtain ⟨_, duration, h3, -, rfl⟩ := Checked.seq_eq_ok_iff.mp h2
  obtain ⟨_, stepIndex, h4, -, rfl⟩ := Checked.seq_eq_ok_iff.mp h3
  obtain ⟨_, stepName, h5, -, rfl⟩ := Checked.seq_eq_ok_iff.mp h4
  obtain ⟨_, workflowId, h6, -, rfl⟩ := Checked.seq_eq_ok_iff.mp h5
  obtain ⟨_, executionId, h7, hexecution, rfl⟩ := Checked.seq_eq_ok_iff.mp h6
  obtain ⟨_, base, h8, -, rfl⟩ := Checked.seq_eq_ok_iff.mp h7
  cases h8
  exact executionId_of_required hexecution

end Parsed

/-! ## The round trip, class by class -/

section RoundTrip

variable (c : Scalars F D) (fresh : Fresh D)

theorem get?_ownFields (e : Event F D) :
    ∀ kv ∈ e.ownFields, (e.toStreamDict c).get? kv.1 = some (kv.2.text c) :=
  fun _ hmem => e.get?_toStreamDict c (List.mem_append_right _ hmem)

theorem validate_base (e : Event F D) :
    BaseEvent.validate c fresh (e.toStreamDict c) e.eventType = .ok e.base := by
  have hget : ∀ kv ∈ e.base.dump e.eventType,
      (e.toStreamDict c).get? kv.1 = some (kv.2.text c) :=
    fun _ hmem => e.get?_toStreamDict c (List.mem_append_left _ hmem)
  simp only [BaseEvent.dump, List.forall_mem_cons, Value.text] at hget
  obtain ⟨htype, htrace, htenant, htimestamp, hversion, -⟩ := hget
  rw [BaseEvent.validate, optional_of_get htype (Coerce.literal_self _),
    optional_of_get htrace (Coerce.uuid_str _), required_of_get htenant (Coerce.uuid_str _),
    optional_of_get htimestamp (c.date_str _), optional_of_get hversion (c.int_str _)]
  rfl

theorem validate_executionStarted (e : ExecutionStartedEvent D) :
    ExecutionStartedEvent.validate c fresh
      ((Event.executionStarted e : Event F D).toStreamDict c) = .ok e := by
  have hget := get?_ownFields c (.executionStarted e : Event F D)
  have hbase := validate_base c fresh (.executionStarted e : Event F D)
  simp only [Event.ownFields, List.forall_mem_cons, Value.text] at hget
  obtain ⟨hexecution, hworkflow, -⟩ := hget
  simp only [ExecutionStartedEvent.validate, required_of_get hexecution (Coerce.uuid_str _),
    required_of_get hworkflow (Coerce.uuid_str _)]
  rw [show BaseEvent.validate c fresh _ "execution.started" = .ok e.toBaseEvent from hbase]
  rfl

theorem validate_stepFailed (e : StepFailedEvent D) :
    StepFailedEvent.validate c fresh
      ((Event.stepFailed e : Event F D).toStreamDict c) = .ok e := by
  have hget := get?_ownFields c (.stepFailed e : Event F D)
  have hbase := validate_base c fresh (.stepFailed e : Event F D)
  simp only [Event.ownFields, List.forall_mem_cons, Value.text] at hget
  obtain ⟨hexecution, hworkflow, hname, hindex, htype, hmessage, hretry, -⟩ := hget
  simp only [StepFailedEvent.validate, required_of_get hexecution (Coerce.uuid_str _),
    required_of_get hworkflow (Coerce.uuid_str _), required_of_get hname (Coerce.str_eq _),
    required_of_get hindex (c.int_str _), required_of_get htype (Coerce.str_eq _),
    required_of_get hmessage (Coerce.str_eq _), optional_of_get hretry (Coerce.bool_ofBool _)]
  rw [show BaseEvent.validate c fresh _ "execution.step.failed" = .ok e.toBaseEvent from hbase]
  rfl

/-- A cost that is equal to itself is read back. -/
theorem validate_executionCompleted (e : ExecutionCompletedEvent F D)
    (hcost : c.floatEq e.totalCostUsd e.totalCostUsd) :
    ExecutionCompletedEvent.validate c fresh
      ((Event.executionCompleted e : Event F D).toStreamDict c) = .ok e := by
  have hget := get?_ownFields c (.executionCompleted e : Event F D)
  have hbase := validate_base c fresh (.executionCompleted e : Event F D)
  simp only [Event.ownFields, List.forall_mem_cons, Value.text] at hget
  obtain ⟨hexecution, hworkflow, hstatus, hduration, htotal, hsteps, -⟩ := hget
  simp only [ExecutionCompletedEvent.validate, required_of_get hexecution (Coerce.uuid_str _),
    required_of_get hworkflow (Coerce.uuid_str _),
    required_of_get hstatus (ExecutionStatus.coerce_value _),
    required_of_get hduration (c.int_str _), required_of_get htotal (c.float_str _ hcost),
    required_of_get hsteps (c.int_str _)]
  rw [show BaseEvent.validate c fresh _ "execution.completed" = .ok e.toBaseEvent from hbase]
  rfl

theorem validate_executionPaused (e : ExecutionPausedEvent D) :
    ExecutionPausedEvent.validate c fresh
      ((Event.executionPaused e : Event F D).toStreamDict c) = .ok e := by
  have hget := get?_ownFields c (.executionPaused e : Event F D)
  have hbase := validate_base c fresh (.executionPaused e : Event F D)
  simp only [Event.ownFields, List.forall_mem_cons, Value.text] at hget
  obtain ⟨hexecution, hworkflow, hreason, hstep, -⟩ := hget
  simp only [ExecutionPausedEvent.validate, required_of_get hexecution (Coerce.uuid_str _),
    required_of_get hworkflow (Coerce.uuid_str _), required_of_get hreason (Coerce.str_eq _),
    required_of_get hstep (Coerce.str_eq _)]
  rw [show BaseEvent.validate c fresh _ "execution.paused" = .ok e.toBaseEvent from hbase]
  rfl

theorem validate_memoryWritten (e : MemoryWrittenEvent D) :
    MemoryWrittenEvent.validate c fresh
      ((Event.memoryWritten e : Event F D).toStreamDict c) = .ok e := by
  have hget := get?_ownFields c (.memoryWritten e : Event F D)
  have hbase := validate_base c fresh (.memoryWritten e : Event F D)
  simp only [Event.ownFields, List.forall_mem_cons, Value.text] at hget
  obtain ⟨hitem, htype, -⟩ := hget
  simp only [MemoryWrittenEvent.validate, required_of_get hitem (Coerce.uuid_str _),
    required_of_get htype (MemoryType.coerce_value _)]
  rw [show BaseEvent.validate c fresh _ "memory.written" = .ok e.toBaseEvent from hbase]
  rfl

theorem validate_memorySearched (e : MemorySearchedEvent D) :
    MemorySearchedEvent.validate c fresh
      ((Event.memorySearched e : Event F D).toStreamDict c) = .ok e := by
  have hget := get?_ownFields c (.memorySearched e : Event F D)
  have hbase := validate_base c fresh (.memorySearched e : Event F D)
  simp only [Event.ownFields, List.forall_mem_cons, Value.text] at hget
  obtain ⟨hhash, hcount, hlatency, hcache, -⟩ := hget
  simp only [MemorySearchedEvent.validate, required_of_get hhash (Coerce.str_eq _),
    required_of_get hcount (c.int_str _), required_of_get hlatency (c.int_str _),
    optional_of_get hcache (Coerce.bool_ofBool _)]
  rw [show BaseEvent.validate c fresh _ "memory.searched" = .ok e.toBaseEvent from hbase]
  rfl

/-- The dict field `outputs` arrives as a string, which no dict field accepts. -/
theorem validate_stepCompleted (e : StepCompletedEvent F D) (e' : StepCompletedEvent F D) :
    StepCompletedEvent.validate c fresh
      ((Event.stepCompleted e : Event F D).toStreamDict c) ≠ .ok e' := by
  have hget := get?_ownFields c (.stepCompleted e : Event F D)
  simp only [Event.ownFields, List.forall_mem_cons, Value.text] at hget
  obtain ⟨-, -, -, -, -, -, houtputs, -⟩ := hget
  intro h
  rw [StepCompletedEvent.validate, Checked.seq_eq_ok_iff] at h
  obtain ⟨-, outputs, -, hok, -⟩ := h
  rw [optional_of_some houtputs] at hok
  cases hok

/-! ## The round trip -/

theorem get?_eventType (e : Event F D) :
    (e.toStreamDict c).get? "event_type" = some e.eventType :=
  e.get?_toStreamDict c (List.mem_append_left _ List.mem_cons_self)

/-- Exactly the events that are no `StepCompletedEvent` and whose cost, if they have
one, is a number come back equal to what was published. -/
theorem parse_toStreamDict_iff (e : Event F D) :
    (∃ e', parseEvent c fresh (e.toStreamDict c) = .ok e' ∧ e.Equal c e') ↔
      (∀ s, e ≠ .stepCompleted s) ∧
        ∀ s, e = .executionCompleted s → c.floatEq s.totalCostUsd s.totalCostUsd := by
  have hparse : ∀ checked, (registry c fresh (e.toStreamDict c)).lookup e.eventType = some checked →
      parseEvent c fresh (e.toStreamDict c) = checked.mapError .validationError :=
    fun _ => parseEvent_of_get (get?_eventType c e)
  cases e with
  | executionStarted e =>
    rw [hparse _ rfl, validate_executionStarted]
    simp [Except.map, Except.mapError, Event.Equal]
  | stepCompleted e =>
    rw [hparse _ rfl]
    constructor
    · rintro ⟨e', hok, -⟩
      obtain ⟨s, hvalid, -⟩ := map_mapError_eq_ok_iff.mp hok
      exact absurd hvalid (validate_stepCompleted c fresh e s)
    · intro h
      exact absurd rfl (h.1 e)
  | stepFailed e =>
    rw [hparse _ rfl, validate_stepFailed]
    simp [Except.map, Except.mapError, Event.Equal]
  | executionCompleted e =>
    rw [hparse _ rfl]
    constructor
    · rintro ⟨e', -, heq⟩
      refine ⟨fun s hs => (by cases hs), fun s hs => ?_⟩
      obtain rfl := Event.executionCompleted.inj hs
      cases e' with
      | executionCompleted s => exact c.floatEq_self _ _ heq.2
      | executionStarted | stepCompleted | stepFailed | executionPaused | memoryWritten
      | memorySearched => cases heq
    · intro h
      have hcost := h.2 e rfl
      rw [validate_executionCompleted c fresh e hcost]
      exact ⟨_, rfl, rfl, hcost⟩
  | executionPaused e =>
    rw [hparse _ rfl, validate_executionPaused]
    simp [Except.map, Except.mapError, Event.Equal]
  | memoryWritten e =>
    rw [hparse _ rfl, validate_memoryWritten]
    simp [Except.map, Except.mapError, Event.Equal]
  | memorySearched e =>
    rw [hparse _ rfl, validate_memorySearched]
    simp [Except.map, Except.mapError, Event.Equal]

end RoundTrip

/-! ## A message that is refused -/

def decimal (digits : List Char) : Except String Nat :=
  if digits ≠ [] ∧ digits.all Char.isDigit then .ok (Nat.ofDigitChars 10 digits 0)
  else .error "int_parsing"

/-- An integer in the form `str` writes it. -/
def plainInt : Coerce Int := fun text =>
  match text.toList with
  | '-' :: digits => (decimal digits).map fun n : Nat => -(n : Int)
  | digits => (decimal digits).map fun n : Nat => (n : Int)

theorem decimal_toDigits (n : Nat) : decimal (Nat.toDigits 10 n) = .ok n := by
  have hdigits : (Nat.toDigits 10 n).all Char.isDigit := by
    rw [List.all_eq_true]
    exact fun c hc => Nat.isDigit_of_mem_toDigits (by omega) (by omega) hc
  rw [decimal, if_pos ⟨Nat.toDigits_ne_nil, hdigits⟩, Nat.ofDigitChars_ten_toDigits]

theorem plainInt_str (n : Int) : plainInt (toString n) = .ok n := by
  cases n with
  | ofNat m =>
    have hlist : (toString (Int.ofNat m)).toList = Nat.toDigits 10 m := Nat.toList_repr
    have hsign : '-' ∉ Nat.toDigits 10 m := fun hmem =>
      absurd (Nat.isDigit_of_mem_toDigits (by omega) (by omega) hmem) (by decide)
    rw [plainInt, hlist]
    split
    · rename_i digits heq
      rw [heq] at hsign
      exact absurd List.mem_cons_self hsign
    · rw [decimal_toDigits]
      rfl
  | negSucc m =>
    have hlist : (toString (Int.negSucc m)).toList = '-' :: Nat.toDigits 10 (m + 1) := by
      rw [← Nat.toList_repr]
      exact String.toList_append
    rw [plainInt, hlist]
    show (decimal (Nat.toDigits 10 (m + 1))).map _ = _
    rw [decimal_toDigits]
    rfl

/-- Scalars with the one float `0.0` and one instant. -/
def plainScalars : Scalars Unit Unit where
  zero := ()
  floatStr _ := "0.0"
  floatEq _ _ := true
  dateStr _ := "2026-01-01 00:00:00+00:00"
  int := plainInt
  float text := if text = "0.0" then .ok () else .error "float_parsing"
  date text :=
    if text = "2026-01-01 00:00:00+00:00" then .ok () else .error "datetime_from_date_parsing"
  floatEq_self _ _ _ := rfl
  int_str := plainInt_str
  float_str _ _ := rfl
  date_str _ := rfl

def summarized : Event Unit Unit :=
  .stepCompleted
    { traceId := Uuid.repdigit 1, tenantId := Uuid.repdigit 2, timestamp := (),
      executionId := Uuid.repdigit 3, workflowId := Uuid.repdigit 4, stepName := "summarize",
      stepIndex := 1, durationMs := 500, costUsd := (),
      outputs := [("tokens", .int 42), ("answer", .str "yes")] }

theorem outputs_refused :
    parseEvent plainScalars ⟨Uuid.repdigit 5, ()⟩ (summarized.toStreamDict plainScalars) =
      .error (.validationError [⟨"outputs", "dict_type"⟩]) := by
  decide +kernel

end Sutram.Observability
