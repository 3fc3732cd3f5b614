/-
What becomes of the published events while consumers come and go.

The producer bounds a stream at about 10,000 entries, whatever its group has read; the
consumer creates the group at the end of the stream when it first starts; and a reclaim
drops the pending entries that are no longer in the stream.  Each is a way in which an
event that nobody has processed gets out of the group's reach, and there is no other.
-/
import Sutram.Library.ConsumerGroup
import Sutram.Library.Runs
import Sutram.Observability.Handler
import Sutram.Observability.Loop

namespace Sutram.Observability.Backlog

open Sutram.Core Runs
open Streams (Message)

variable {F D : Type}

/-! ## A stream and its group -/

/-- The streams of `ensure_consumer_groups`. -/
inductive StreamName where
  | executions
  | memoryEvents
deriving DecidableEq, Repr

/-- The order in which they are visited. -/
def streams : List StreamName := [.executions, .memoryEvents]

/-- `pending` is the list of the group's pending entries, by their numbers.  `processed`
is history: the events whose handler has committed or that have been acknowledged. -/
structure Channel where
  group : Streams.Group Data := .empty
  created : Bool := false
  pending : List Nat := []
  processed : List Nat := []

def maxLen : Nat := 10000

namespace Channel

variable (ch : Channel)

/-- `XADD` with `MAXLEN ~`, which removes the first `trimmed` entries. -/
def publish (data : Data) (trimmed : Nat) : Channel :=
  { ch with group := (ch.group.append data).evict trimmed }

/-- `XGROUP CREATE` at `$`.  A group that exists is left alone. -/
def createGroup : Channel :=
  if ch.created then ch else { ch with group := ch.group.toEnd, created := true }

/-- `XREADGROUP` of new messages. -/
def read (count : Nat) : Channel :=
  { ch with
    group := ch.group.read count
    pending := ch.pending ++ (ch.group.batch count).map Message.id }

/-- What `_process_one` leaves. -/
def settle (id : Nat) (attempt : Attempt D) : Channel :=
  { ch with
    pending := if attempt.acked then ch.pending.erase id else ch.pending
    processed :=
      if attempt.handled || attempt.acked then id :: ch.processed else ch.processed }

/-- A pending entry that is no longer in the stream. -/
def Gone (id : Nat) : Prop := id < ch.group.evicted

instance (id : Nat) : Decidable (ch.Gone id) := inferInstanceAs (Decidable (_ < _))

/-- `XAUTOCLAIM` drops the entries it comes across that are gone. -/
def reclaim (ids : List Nat) : Channel :=
  { ch with pending := ch.pending.filter fun id => ¬ (id ∈ ids ∧ ch.Gone id) }

/-- The others are handed out once more. -/
def claimed (ids : List Nat) : List (Message Data) :=
  ch.group.messages.filter fun m => m.id ∈ ids ∧ ¬ ch.Gone m.id

end Channel

/-! ## The consumers -/

/-- Where `run_consumer_loop` stands: what of a visit of the streams is still to do. -/
inductive Phase where
  | stopped
  | creating (todo : List StreamName)
  | reading (todo : List StreamName)
  | reclaiming (todo : List StreamName)
deriving DecidableEq, Repr

/-- `hands` are the messages of a batch that are still to be processed. -/
structure Consumer where
  phase : Phase := .stopped
  hands : List (StreamName × Message Data) := []
  messagesProcessed : Nat := 0

namespace Consumer

/-- The loop after a visit of the streams. -/
def turn (k : Consumer) : Option Consumer :=
  match k.phase, k.hands with
  | .creating [], [] => some { k with phase := .reading streams }
  | .reading [], [] =>
    if 0 < k.messagesProcessed ∧ k.messagesProcessed % 50 = 0 then
      some { k with phase := .reclaiming streams }
    else some { k with phase := .reading streams }
  | .reclaiming [], [] => some { k with phase := .reading streams }
  | _, _ => none

/-- An exception leaves the batch, or the operation before it. -/
def raised (k : Consumer) : Consumer :=
  match k.phase with
  -- It leaves `run_consumer_loop`.
  | .stopped | .creating _ => { k with phase := .stopped, hands := [] }
  | .reading _ => { k with phase := .reading streams, hands := [] }
  -- `_reclaim_pending` catches it, and the next stream follows.
  | .reclaiming todo =>
    { k with phase := .reclaiming (if k.hands.isEmpty then todo.tail else todo), hands := [] }

/-- The batch goes on behind its first message. -/
def advance (k : Consumer) : Consumer :=
  match k.phase with
  | .reading _ =>
    { k with hands := k.hands.tail, messagesProcessed := k.messagesProcessed + 1 }
  | _ => { k with hands := k.hands.tail }

end Consumer

structure State where
  channels : StreamName → Channel := fun _ => {}
  consumers : Nat → Consumer := fun _ => {}

namespace State

def setChannel (s : State) (name : StreamName) (ch : Channel) : State :=
  { s with channels := Function.update s.channels name ch }

def setConsumer (s : State) (c : Nat) (k : Consumer) : State :=
  { s with consumers := Function.update s.consumers c k }

end State

inductive Action (D : Type) where
  | publish (name : StreamName) (data : Data) (trimmed : Nat)
  | start (c : Nat)
  | createGroup (c : Nat)
  | read (c : Nat)
  | process (c : Nat) (fresh : Fresh D) (handlerSucceeds ackSucceeds : Bool)
  | reclaim (c : Nat) (ids : List Nat)
  | turn (c : Nat)
  /-- A Redis operation raises. -/
  | fail (c : Nat)
  /-- The loop is cancelled, or its process dies. -/
  | stop (c : Nat)

section Step

variable (scalars : Scalars F D)

/-- `_process_one` of a message in hands. -/
def attempt (m : Message Data) (fresh : Fresh D) (handlerSucceeds ackSucceeds : Bool) :
    Attempt D :=
  Observability.processOne scalars
    { msgId := toString m.id
      fields := m.body.entries.map fun kv => (.text kv.1, .text kv.2)
      fresh := fresh
      handlerSucceeds := handlerSucceeds
      ackSucceeds := ackSucceeds } m.body

def step (s : State) : Action D → Option State
  | .publish name data trimmed =>
    -- Of the oldest entries beyond the bound any number may be removed.
    if trimmed ≤ (s.channels name).group.history.length + 1 - maxLen then
      some (s.setChannel name ((s.channels name).publish data trimmed))
    else none
  | .start c =>
    match (s.consumers c).phase with
    | .stopped => some (s.setConsumer c { phase := .creating streams })
    | _ => none
  | .createGroup c =>
    match (s.consumers c).phase with
    | .creating (name :: rest) =>
      some ((s.setChannel name (s.channels name).createGroup).setConsumer c
        { s.consumers c with phase := .creating rest })
    | _ => none
  | .read c =>
    match (s.consumers c).phase, (s.consumers c).hands with
    | .reading (name :: rest), [] =>
      -- Without its group the read raises.
      if (s.channels name).created then
        some ((s.setChannel name ((s.channels name).read 100)).setConsumer c
          { s.consumers c with
            phase := .reading rest
            hands := ((s.channels name).group.batch 100).map fun m => (name, m) })
      else none
    | _, _ => none
  | .process c fresh handlerSucceeds ackSucceeds =>
    match (s.consumers c).hands with
    | (name, m) :: _ =>
      let a := attempt scalars m fresh handlerSucceeds ackSucceeds
      let s := s.setChannel name ((s.channels name).settle m.id a)
      if a.raised then some (s.setConsumer c (s.consumers c).raised)
      else some (s.setConsumer c (s.consumers c).advance)
    | [] => none
  | .reclaim c ids =>
    match (s.consumers c).phase, (s.consumers c).hands with
    | .reclaiming (name :: rest), [] =>
      if ids.length ≤ 50 ∧ ids.Sublist (s.channels name).pending then
        some ((s.setChannel name ((s.channels name).reclaim ids)).setConsumer c
          { s.consumers c with
            phase := .reclaiming rest
            hands := ((s.channels name).claimed ids).map fun m => (name, m) })
      else none
    | _, _ => none
  | .turn c => (s.consumers c).turn.map (s.setConsumer c)
  | .fail c =>
    match (s.consumers c).phase with
    | .stopped => none
    | _ => some (s.setConsumer c (s.consumers c).raised)
  | .stop c => some (s.setConsumer c {})

end Step

/-! ## What is owed to a published event -/

/-- Every event is still readable by the group, pending in it or processed. -/
def Channel.Kept (ch : Channel) : Prop :=
  ∀ m ∈ ch.group.messages,
    m ∈ ch.group.unread ∨ m.id ∈ ch.pending ∨ m.id ∈ ch.processed

def Kept (s : State) : Prop := ∀ name, (s.channels name).Kept

/-- The action removes nothing that is unread, creates a group only on an empty stream,
and drops no pending entry that is not processed. -/
def Spares (s : State) : Action D → Prop
  | .publish name _ trimmed => trimmed ≤ (s.channels name).group.start
  | .createGroup c =>
    match (s.consumers c).phase with
    | .creating (name :: _) =>
      (s.channels name).created ∨ (s.channels name).group.history = []
    | _ => True
  | .reclaim c ids =>
    match (s.consumers c).phase with
    | .reclaiming (name :: _) =>
      ∀ id ∈ ids, (s.channels name).Gone id → id ∈ (s.channels name).processed
    | _ => True
  | _ => True

/-! ## One stream -/

namespace Channel

/-- What has been handed out comes before the cursor, and nothing has been before the
group exists. -/
structure Tidy (ch : Channel) : Prop where
  pending : ∀ id ∈ ch.pending, id < ch.group.cursor
  processed : ∀ id ∈ ch.processed, id < ch.group.cursor
  created : ch.created = false → ch.group.cursor = 0

variable {ch : Channel} {data : Data} {trimmed count id : Nat} {ids : List Nat}

theorem start_publish (ch : Channel) (data : Data)
    (h : trimmed ≤ ch.group.history.length + 1 - maxLen) :
    (ch.publish data trimmed).group.start = max ch.group.start trimmed := by
  have hlength : ((ch.group.append data).history).length = ch.group.history.length + 1 :=
    List.length_append
  have hmin : min trimmed (ch.group.append data).history.length = trimmed := by omega
  show max ch.group.cursor (max ch.group.evicted (min trimmed _)) = _
  rw [hmin, ← Nat.max_assoc]
  rfl

theorem messages_publish (ch : Channel) (data : Data) (trimmed : Nat) :
    (ch.publish data trimmed).group.messages =
      ch.group.messages ++ [⟨ch.group.history.length, data⟩] := by
  rw [publish, Streams.Group.evict_messages, Streams.Group.append_messages]

theorem Tidy.publish (h : ch.Tidy) : (ch.publish data trimmed).Tidy :=
  ⟨h.pending, h.processed, h.created⟩

/-- A publication discards no event exactly when it trims none that is unread. -/
theorem kept_publish_iff (htidy : ch.Tidy) (hkept : ch.Kept)
    (htrimmed : trimmed ≤ ch.group.history.length + 1 - maxLen) :
    (ch.publish data trimmed).Kept ↔ trimmed ≤ ch.group.start := by
  have hstart := start_publish ch data htrimmed
  constructor
  · intro h
    by_contra hlt
    have hnext : ch.group.start < ch.group.history.length := by
      unfold maxLen at htrimmed
      omega
    obtain ⟨m, hm, hid⟩ := Streams.Group.exists_message hnext
    have hmem : m ∈ (ch.publish data trimmed).group.messages := by
      rw [messages_publish]
      exact List.mem_append_left _ hm
    have hcursor : ch.group.cursor ≤ m.id := by
      rw [hid]
      exact Nat.le_max_left _ _
    rcases h m hmem with hunread | hpending | hprocessed
    · have hle := (Streams.Group.mem_unread.mp hunread).2
      omega
    · have hlt' := htidy.pending _ hpending
      omega
    · have hlt' := htidy.processed _ hprocessed
      omega
  · intro hle m hm
    rw [Nat.max_eq_left hle] at hstart
    rw [messages_publish, List.mem_append, List.mem_singleton] at hm
    rcases hm with hold | rfl
    · rcases hkept m hold with hunread | hsettled
      · refine .inl (Streams.Group.mem_unread.mpr ⟨?_, ?_⟩)
        · rw [messages_publish]
          exact List.mem_append_left _ hold
        · rw [hstart]
          exact (Streams.Group.mem_unread.mp hunread).2
      · exact .inr hsettled
    · refine .inl (Streams.Group.mem_unread.mpr ⟨?_, ?_⟩)
      · rw [messages_publish]
        exact List.mem_append_right _ (List.mem_singleton_self _)
      · rw [hstart]
        exact ch.group.start_le

theorem Tidy.createGroup (h : ch.Tidy) : ch.createGroup.Tidy := by
  unfold Channel.createGroup
  split
  · exact h
  · have hle := ch.group.cursor_le
    refine ⟨fun id hid => ?_, fun id hid => ?_, fun hfalse => by cases hfalse⟩
    · exact Nat.lt_of_lt_of_le (h.pending id hid) hle
    · exact Nat.lt_of_lt_of_le (h.processed id hid) hle

theorem cursor_createGroup (ch : Channel) :
    ch.group.cursor ≤ ch.createGroup.group.cursor := by
  unfold Channel.createGroup
  split
  · exact Nat.le_refl _
  · exact ch.group.cursor_le

/-- A new group starts behind every event there is. -/
theorem kept_createGroup_iff (htidy : ch.Tidy) (hkept : ch.Kept) :
    ch.createGroup.Kept ↔ ch.created ∨ ch.group.history = [] := by
  unfold Channel.createGroup
  by_cases hcreated : ch.created
  · simp only [hcreated, if_true, true_or, iff_true]
    exact hkept
  · have hzero := htidy.created (by simpa using hcreated)
    rw [if_neg hcreated]
    constructor
    · intro h
      refine .inr (List.eq_nil_iff_length_eq_zero.mpr ?_)
      by_contra hne
      obtain ⟨m, hm, -⟩ := Streams.Group.exists_message (Nat.pos_of_ne_zero hne)
      rcases h m hm with hunread | hpending | hprocessed
      · rw [Streams.Group.toEnd_unread] at hunread
        cases hunread
      · have hlt := htidy.pending _ hpending
        omega
      · have hlt := htidy.processed _ hprocessed
        omega
    · intro h m hm
      have hlt : m.id < ch.group.history.length := Streams.Group.id_lt hm
      rw [h.resolve_left hcreated] at hlt
      cases hlt

theorem cursor_read (ch : Channel) (count : Nat) :
    ch.group.cursor ≤ (ch.read count).group.cursor :=
  Nat.le_trans (Nat.le_max_left _ _) (Nat.le_add_right _ _)

/-- A message that is read comes before the cursor from then on. -/
theorem id_lt_of_mem_batch {m : Message Data} (h : m ∈ ch.group.batch count) :
    m.id < (ch.read count).group.cursor := by
  obtain ⟨i, hi, rfl⟩ := List.mem_iff_getElem.mp h
  show _ < ch.group.start + (ch.group.batch count).length
  simp only [Streams.Group.batch, Streams.Group.unread, Streams.Group.messages,
    List.getElem_take, List.getElem_drop, List.getElem_mapIdx]
  exact Nat.add_lt_add_left hi _

theorem Tidy.read (h : ch.Tidy) (hcreated : ch.created) : (ch.read count).Tidy := by
  refine ⟨fun id hid => ?_, fun id hid => ?_, fun hfalse => ?_⟩
  · rcases List.mem_append.mp hid with hold | hnew
    · exact Nat.lt_of_lt_of_le (h.pending id hold) (cursor_read ch count)
    · obtain ⟨m, hm, rfl⟩ := List.mem_map.mp hnew
      exact id_lt_of_mem_batch hm
  · exact Nat.lt_of_lt_of_le (h.processed id hid) (cursor_read ch count)
  · rw [show ch.created = false from hfalse] at hcreated
    cases hcreated

theorem Kept.read (h : ch.Kept) : (ch.read count).Kept := by
  intro m hm
  rcases h m hm with hunread | hpending | hprocessed
  · rw [← ch.group.batch_append_unread count, List.mem_append] at hunread
    rcases hunread with hbatch | hrest
    · exact .inr (.inl (List.mem_append_right _ (List.mem_map_of_mem hbatch)))
    · exact .inl hrest
  · exact .inr (.inl (List.mem_append_left _ hpending))
  · exact .inr (.inr hprocessed)

theorem Tidy.settle (h : ch.Tidy) (hid : id < ch.group.cursor) (a : Attempt D) :
    (ch.settle id a).Tidy := by
  refine ⟨fun i hi => h.pending i ?_, fun i hi => ?_, h.created⟩
  · simp only [Channel.settle] at hi
    split at hi
    · exact List.mem_of_mem_erase hi
    · exact hi
  · simp only [Channel.settle] at hi
    split at hi
    · rcases List.mem_cons.mp hi with rfl | hold
      · exact hid
      · exact h.processed i hold
    · exact h.processed i hi

/-- A message leaves the pending entries when it is acknowledged only. -/
theorem Kept.settle (h : ch.Kept) (id : Nat) (a : Attempt D) : (ch.settle id a).Kept := by
  intro m hm
  have hprocessed : m.id ∈ ch.processed → m.id ∈ (ch.settle id a).processed := by
    intro hmem
    simp only [Channel.settle]
    split
    · exact List.mem_cons_of_mem _ hmem
    · exact hmem
  rcases h m hm with hunread | hpending | hdone
  · exact .inl hunread
  · by_cases hacked : a.acked
    · by_cases heq : m.id = id
      · refine .inr (.inr ?_)
        simp [Channel.settle, hacked, heq]
      · refine .inr (.inl ?_)
        simpa [Channel.settle, hacked] using (List.mem_erase_of_ne heq).mpr hpending
    · refine .inr (.inl ?_)
      simpa [Channel.settle, hacked] using hpending
  · exact .inr (.inr (hprocessed hdone))

theorem mem_pending_reclaim {ids : List Nat} :
    id ∈ (ch.reclaim ids).pending ↔ id ∈ ch.pending ∧ ¬ (id ∈ ids ∧ ch.Gone id) := by
  simp only [Channel.reclaim, List.mem_filter, decide_eq_true_eq]

theorem Tidy.reclaim (h : ch.Tidy) (ids : List Nat) : (ch.reclaim ids).Tidy :=
  ⟨fun id hid => h.pending id (mem_pending_reclaim.mp hid).1, h.processed, h.created⟩

theorem mem_of_mem_claimed {m : Message Data} (h : m ∈ ch.claimed ids) : m.id ∈ ids := by
  simp only [Channel.claimed, List.mem_filter, decide_eq_true_eq] at h
  exact h.2.1

/-- A reclaim discards no event exactly when the entries it drops are processed. -/
theorem kept_reclaim_iff (htidy : ch.Tidy) (hkept : ch.Kept) (hids : ids ⊆ ch.pending) :
    (ch.reclaim ids).Kept ↔ ∀ id ∈ ids, ch.Gone id → id ∈ ch.processed := by
  constructor
  · intro h id hid hgone
    have hlt : id < ch.group.history.length :=
      Nat.lt_of_lt_of_le (htidy.pending id (hids hid)) ch.group.cursor_le
    obtain ⟨m, hm, rfl⟩ := Streams.Group.exists_message hlt
    rcases h m hm with hunread | hpending | hprocessed
    · have hstart : ch.group.start ≤ m.id := (Streams.Group.mem_unread.mp hunread).2
      have hevicted : ch.group.evicted ≤ ch.group.start := Nat.le_max_right _ _
      exact absurd (Nat.le_trans hevicted hstart) (Nat.not_le_of_lt hgone)
    · exact absurd ⟨hid, hgone⟩ (mem_pending_reclaim.mp hpending).2
    · exact hprocessed
  · intro h m hm
    rcases hkept m hm with hunread | hpending | hprocessed
    · exact .inl hunread
    · by_cases hdropped : m.id ∈ ids ∧ ch.Gone m.id
      · exact .inr (.inr (h m.id hdropped.1 hdropped.2))
      · exact .inr (.inl (mem_pending_reclaim.mpr ⟨hpending, hdropped⟩))
    · exact .inr (.inr hprocessed)

end Channel

/-! ## One step -/

/-- What a consumer has in hands has been handed out. -/
structure Inv (s : State) : Prop where
  tidy : ∀ name, (s.channels name).Tidy
  hands : ∀ c, ∀ p ∈ (s.consumers c).hands, p.2.id < (s.channels p.1).group.cursor

@[simp] theorem setChannel_channels (s : State) (name : StreamName) (ch : Channel) :
    (s.setChannel name ch).channels name = ch := by
  simp [State.setChannel]

theorem setChannel_channels_of_ne (s : State) {name other : StreamName} (h : other ≠ name)
    (ch : Channel) : (s.setChannel name ch).channels other = s.channels other := by
  simp [State.setChannel, h]

section Parts

variable {s : State} {name : StreamName} {ch : Channel} {c : Nat} {k : Consumer}

theorem Inv.setChannel (h : Inv s) (htidy : ch.Tidy)
    (hcursor : (s.channels name).group.cursor ≤ ch.group.cursor) :
    Inv (s.setChannel name ch) := by
  constructor
  · intro other
    by_cases heq : other = name
    · subst heq
      rwa [setChannel_channels]
    · rw [setChannel_channels_of_ne s heq]
      exact h.tidy other
  · rintro d ⟨other, m⟩ hp
    have hlt : m.id < (s.channels other).group.cursor := h.hands d (other, m) hp
    by_cases heq : other = name
    · subst heq
      rw [setChannel_channels]
      exact Nat.lt_of_lt_of_le hlt hcursor
    · rwa [setChannel_channels_of_ne s heq]

theorem Inv.setConsumer (h : Inv s)
    (hhands : ∀ p ∈ k.hands, p.2.id < (s.channels p.1).group.cursor) :
    Inv (s.setConsumer c k) := by
  refine ⟨h.tidy, fun d p hp => ?_⟩
  by_cases heq : d = c
  · subst heq
    simp only [State.setConsumer, Function.update_self] at hp
    exact hhands p hp
  · simp only [State.setConsumer, Function.update_of_ne heq] at hp
    exact h.hands d p hp

/-- Only the stream that changes is in question. -/
theorem kept_setChannel_iff (h : Kept s) : Kept (s.setChannel name ch) ↔ ch.Kept := by
  constructor
  · intro hkept
    have hname := hkept name
    rwa [setChannel_channels] at hname
  · intro hch other
    by_cases heq : other = name
    · subst heq
      rwa [setChannel_channels]
    · rw [setChannel_channels_of_ne s heq]
      exact h other

theorem hands_raised (k : Consumer) : k.raised.hands = [] := by
  unfold Consumer.raised
  split <;> rfl

theorem hands_advance (k : Consumer) : k.advance.hands = k.hands.tail := by
  unfold Consumer.advance
  split <;> rfl

theorem hands_turn {k' : Consumer} (h : k.turn = some k') : k'.hands = k.hands := by
  unfold Consumer.turn at h
  split at h
  · cases h
    rfl
  · split at h
    all_goals
      cases h
      rfl
  · cases h
    rfl
  · cases h

end Parts

/-- What every step does: it keeps the invariant, and discards no event exactly when it
spares them all. -/
structure Exact (s : State) (a : Action D) (t : State) : Prop where
  inv : Inv t
  kept : Kept s → (Kept t ↔ Spares s a)

section Steps

variable {scalars : Scalars F D} {s t : State}

/-- A step of a consumer alone. -/
theorem Inv.exact_setConsumer (h : Inv s) {a : Action D} (hspares : Spares s a) {c : Nat}
    {k : Consumer} (hhands : ∀ p ∈ k.hands, p.2.id < (s.channels p.1).group.cursor) :
    Exact s a (s.setConsumer c k) :=
  ⟨h.setConsumer hhands, fun hkept => ⟨fun _ => hspares, fun _ => hkept⟩⟩

theorem exact_publish (h : Inv s) {name : StreamName} {data : Data} {trimmed : Nat}
    (hs : step scalars s (.publish name data trimmed) = some t) :
    Exact s (.publish name data trimmed : Action D) t := by
  simp only [step] at hs
  split at hs
  · rename_i htrimmed
    cases hs
    refine ⟨h.setChannel (h.tidy name).publish (Nat.le_refl _), fun hkept => ?_⟩
    rw [kept_setChannel_iff hkept]
    exact Channel.kept_publish_iff (h.tidy name) (hkept name) htrimmed
  · cases hs

theorem exact_createGroup (h : Inv s) {c : Nat}
    (hs : step scalars s (.createGroup c) = some t) : Exact s (.createGroup c : Action D) t := by
  simp only [step] at hs
  split at hs
  · rename_i name rest hphase
    cases hs
    have hcursor := Channel.cursor_createGroup (s.channels name)
    have hinv := h.setChannel (h.tidy name).createGroup hcursor
    refine ⟨hinv.setConsumer (hinv.hands c), fun hkept => ?_⟩
    rw [Spares, hphase]
    exact (kept_setChannel_iff hkept).trans
      (Channel.kept_createGroup_iff (h.tidy name) (hkept name))
  · cases hs

theorem exact_read (h : Inv s) {c : Nat} (hs : step scalars s (.read c) = some t) :
    Exact s (.read c : Action D) t := by
  simp only [step] at hs
  split at hs
  · rename_i name rest hphase hhands
    split at hs
    · rename_i hcreated
      cases hs
      have hinv := h.setChannel ((h.tidy name).read hcreated)
        (Channel.cursor_read (s.channels name) 100)
      refine ⟨hinv.setConsumer fun p hp => ?_, fun hkept => ?_⟩
      · obtain ⟨m, hm, rfl⟩ := List.mem_map.mp hp
        rw [setChannel_channels]
        exact Channel.id_lt_of_mem_batch hm
      · refine ⟨fun _ => trivial, fun _ => (kept_setChannel_iff hkept).mpr ?_⟩
        exact (hkept name).read
    · cases hs
  · cases hs

theorem exact_process (h : Inv s) {c : Nat} {fresh : Fresh D} {handlerSucceeds ackSucceeds : Bool}
    (hs : step scalars s (.process c fresh handlerSucceeds ackSucceeds) = some t) :
    Exact s (.process c fresh handlerSucceeds ackSucceeds : Action D) t := by
  simp only [step] at hs
  split at hs
  · rename_i name m rest hhands
    generalize attempt scalars m fresh handlerSucceeds ackSucceeds = a at hs
    have hid : m.id < (s.channels name).group.cursor :=
      h.hands c (name, m) (by rw [hhands]; exact List.mem_cons_self)
    have hinv := h.setChannel ((h.tidy name).settle hid a) (Nat.le_refl _)
    have hkept : Kept s → Kept (s.setChannel name ((s.channels name).settle m.id a)) := fun hk =>
      (kept_setChannel_iff hk).mpr ((hk name).settle m.id a)
    split at hs
    · cases hs
      refine ⟨hinv.setConsumer fun p hp => ?_, fun hk => ⟨fun _ => trivial, fun _ => hkept hk⟩⟩
      rw [hands_raised] at hp
      cases hp
    · cases hs
      refine ⟨hinv.setConsumer fun p hp => ?_, fun hk => ⟨fun _ => trivial, fun _ => hkept hk⟩⟩
      rw [hands_advance] at hp
      exact hinv.hands c p (List.mem_of_mem_tail hp)
  · cases hs

theorem exact_reclaim (h : Inv s) {c : Nat} {ids : List Nat}
    (hs : step scalars s (.reclaim c ids) = some t) : Exact s (.reclaim c ids : Action D) t := by
  simp only [step] at hs
  split at hs
  · rename_i name rest hphase hhands
    split at hs
    · rename_i hids
      cases hs
      have hinv := h.setChannel ((h.tidy name).reclaim ids) (Nat.le_refl _)
      refine ⟨hinv.setConsumer fun p hp => ?_, fun hkept => ?_⟩
      · obtain ⟨m, hm, rfl⟩ := List.mem_map.mp hp
        rw [setChannel_channels]
        exact (h.tidy name).pending _ (hids.2.subset (Channel.mem_of_mem_claimed hm))
      · rw [Spares, hphase]
        exact (kept_setChannel_iff hkept).trans
          (Channel.kept_reclaim_iff (h.tidy name) (hkept name) hids.2.subset)
    · cases hs
  · cases hs

theorem exact_step (h : Inv s) {a : Action D} (hs : step scalars s a = some t) : Exact s a t := by
  cases a with
  | publish name data trimmed => exact exact_publish h hs
  | createGroup c => exact exact_createGroup h hs
  | read c => exact exact_read h hs
  | process c fresh handlerSucceeds ackSucceeds => exact exact_process h hs
  | reclaim c ids => exact exact_reclaim h hs
  | start c =>
    simp only [step] at hs
    split at hs
    · cases hs
      refine h.exact_setConsumer (a := .start c) trivial fun p hp => ?_
      cases hp
    · cases hs
  | turn c =>
    obtain ⟨k, hk, rfl⟩ := Option.map_eq_some_iff.mp hs
    refine h.exact_setConsumer (a := .turn c) trivial fun p hp => ?_
    rw [hands_turn hk] at hp
    exact h.hands c p hp
  | fail c =>
    simp only [step] at hs
    split at hs
    · cases hs
    · cases hs
      refine h.exact_setConsumer (a := .fail c) trivial fun p hp => ?_
      rw [hands_raised] at hp
      cases hp
  | stop c =>
    cases hs
    refine h.exact_setConsumer (a := .stop c) trivial fun p hp => ?_
    cases hp

/-- A group that is as far behind as the stream is long may lose an event with the next
publication. -/
theorem exists_discarding_publish (h : Inv s) (hkept : Kept s) (name : StreamName) (data : Data)
    (hbehind : maxLen ≤ (s.channels name).group.unread.length) :
    ∃ trimmed t, step scalars s (.publish name data trimmed) = some t ∧ ¬ Kept t := by
  have hstart := (s.channels name).group.start_le
  simp only [Streams.Group.unread, List.length_drop, Streams.Group.length_messages] at hbehind
  have htrimmed : (s.channels name).group.start + 1 ≤
      (s.channels name).group.history.length + 1 - maxLen := by
    unfold maxLen at hbehind ⊢
    omega
  refine ⟨(s.channels name).group.start + 1, _, by rw [step, if_pos htrimmed], fun hkept' => ?_⟩
  rw [kept_setChannel_iff hkept,
    Channel.kept_publish_iff (h.tidy name) (hkept name) htrimmed] at hkept'
  omega

end Steps

/-! ## Runs -/

theorem inv_initial : Inv {} := by
  refine ⟨fun name => ⟨fun id hid => ?_, fun id hid => ?_, fun _ => rfl⟩, fun c p hp => ?_⟩
  · cases hid
  · cases hid
  · cases hp

theorem kept_initial : Kept {} := by
  intro name m hm
  cases hm

/-- Along a run of publications and consumers, every event stays readable by the group,
pending in it or processed exactly when every action of the run spares the others. -/
theorem events_kept_iff (scalars : Scalars F D) (as : List (Action D)) :
    Along (step scalars) (fun _ _ t => Kept t) {} as ↔
      Along (step scalars) (fun s a _ => Spares s a) {} as := by
  refine along_iff (I := fun s => Inv s ∧ Kept s) ?_ ?_ ⟨inv_initial, kept_initial⟩
  · intro s a t hI hs hkept
    exact ⟨(exact_step hI.1 hs).inv, hkept⟩
  · intro s a t hI hs
    exact (exact_step hI.1 hs).kept hI.2

instance (ch : Channel) : Decidable ch.Kept :=
  inferInstanceAs (Decidable (∀ m ∈ ch.group.messages,
    m ∈ ch.group.unread ∨ m.id ∈ ch.pending ∨ m.id ∈ ch.processed))

instance (s : State) : Decidable (Kept s) :=
  decidable_of_iff ((s.channels .executions).Kept ∧ (s.channels .memoryEvents).Kept)
    ⟨fun h name => by cases name <;> simp [h], fun h => ⟨h .executions, h .memoryEvents⟩⟩

/-- An event is published before the consumer has ever run. -/
def lateFirstStart : List (Action Unit) :=
  [.publish .executions (Dict.ofPairs [("event_type", "execution.started")]) 0, .start 0,
    .createGroup 0]

theorem first_event_discarded :
    ¬ Along (step plainScalars) (fun _ _ t => Kept t) {} lateFirstStart := by
  decide +kernel

end Sutram.Observability.Backlog
