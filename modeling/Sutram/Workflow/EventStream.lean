/-
The event stream of an execution and its SSE clients.

`_publish` appends every event of an execution to `execution:{id}`, and each client of
`GET /executions/{id}/stream` sends on what it reads there.  All clients read through
the one group `sse-stream-consumers`, created at the start of the stream by the first of
them, each under a consumer name of its own.  So a client is sent all events that
follow its connection only where no other client reads one of them first.
-/
import Sutram.Core.Json
import Sutram.Library.ConsumerGroup
import Sutram.Library.Dict
import Sutram.Library.Runs

namespace Sutram.Workflow

open Sutram.Core Runs Streams

/-! ## Entries -/

/-- The fields of an entry, decoded. -/
abbrev Fields := Dict String String

namespace Fields

def eventType (fields : Fields) : Option String := fields.get? "event_type"

/-- `_TERMINAL` -/
def terminalTypes : List String := ["execution.completed", "execution.paused", "execution.failed"]

def isTerminal (fields : Fields) : Bool :=
  match fields.eventType with
  | some t => terminalTypes.contains t
  | none => false

/-- What the client is sent for the entry. -/
def sseFrame (fields : Fields) : String :=
  "event: " ++ fields.eventType.getD "message" ++ "\ndata: " ++
    (Json.dict (fields.entries.map fun e => (e.1, .str e.2))).dumps ++ "\n\n"

end Fields

abbrev Entry := Message Fields

def endsStream (m : Entry) : Bool := m.body.isTerminal

/-- `xadd` keeps at least this many entries. -/
def maxlen : Nat := 10000

/-- The `count` of `xreadgroup`. -/
def readCount : Nat := 10

/-! ## Clients -/

/-- Where `event_generator` is.  `closed` is its return, and `dropped` a client that has
disconnected or whose generator an exception has ended. -/
inductive ClientPhase where
  | idle
  | reading
  | sending (m : Entry) (rest : List Entry)
  | closed
  | dropped
deriving DecidableEq

namespace ClientPhase

/-- The loop over the entries of a read, and back to the next read. -/
def ofBatch : List Entry → ClientPhase
  | [] => reading
  | m :: rest => sending m rest

/-- The entries read and not yet sent. -/
def batch : ClientPhase → List Entry
  | sending m rest => m :: rest
  | _ => []

/-- The generator is running. -/
def isOpen : ClientPhase → Bool
  | reading | sending _ _ => true
  | _ => false

end ClientPhase

/-- A client, with the number of entries there were when it connected. -/
structure Client where
  phase : ClientPhase := .idle
  connectedAt : Nat := 0
  sent : List Entry := []
  chunks : List String := []

/-- The stream with its clients.  Before the group is created nobody reads, and it is
created at `0`, so its cursor can be there from the beginning. -/
structure Feed where
  group : Streams.Group Fields := .empty
  clients : Nat → Client := fun _ => {}

def Feed.set (w : Feed) (c : Nat) (k : Client) : Feed :=
  { w with clients := Function.update w.clients c k }

/-- The client's next operation: a read, or an entry acknowledged and sent. -/
def runClient (w : Feed) (c : Nat) : Option Feed :=
  let k := w.clients c
  match k.phase with
  | .reading =>
    let batch := w.group.batch readCount
    some (Feed.set { w with group := w.group.read readCount } c
      { k with phase := .ofBatch batch })
  | .sending m rest =>
    some (w.set c { k with
      sent := k.sent ++ [m]
      chunks := k.chunks ++ [m.body.sseFrame]
      phase := if endsStream m then .closed else .ofBatch rest })
  | _ => none

inductive FeedAction where
  /-- The first `evicts` entries may be evicted with it. -/
  | publish (fields : Fields) (evicts : Nat)
  | connect (c : Nat)
  | run (c : Nat)
  | drop (c : Nat)

def feedStep (w : Feed) : FeedAction → Option Feed
  | .publish fields evicts =>
    if evicts = 0 ∨ maxlen + evicts ≤ w.group.history.length + 1 then
      some { w with group := (w.group.append fields).evict evicts }
    else none
  | .connect c =>
    if (w.clients c).phase = .idle then
      some (w.set c { phase := .reading, connectedAt := w.group.history.length })
    else none
  | .run c => runClient w c
  | .drop c =>
    if (w.clients c).phase.isOpen then some (w.set c { w.clients c with phase := .dropped })
    else none

/-! ## What a client is to be sent -/

namespace Client

/-- The entries after the connection, up to and including the first terminal one. -/
def due (k : Client) (g : Streams.Group Fields) : List Entry :=
  through endsStream (after k.connectedAt g.messages)

/-- What the client has been sent of the entries after its connection. -/
def received (k : Client) : List Entry := after k.connectedAt k.sent

end Client

/-- The client has been sent nothing but its due entries, in their order, and all of
them once its stream is closed or it has nothing left to read.  A client that is gone
is owed nothing. -/
structure Served (g : Streams.Group Fields) (k : Client) : Prop where
  chunks : k.chunks = k.sent.map fun m => m.body.sseFrame
  prefixed : k.phase.isOpen → k.received <+: k.due g
  closed : k.phase = .closed → k.received = k.due g
  caughtUp : k.phase = .reading → g.unread = [] → k.received = k.due g

/-- Nothing takes from client `c` an entry it is still due: no other client reads one,
none is evicted unread, and its own reads hand it no terminal entry from before its
connection. -/
def Undisturbed (c : Nat) (w : Feed) (a : FeedAction) : Prop :=
  let k := w.clients c
  match a with
  | .publish fields evicts =>
    k.phase.isOpen →
      ∀ m ∈ (w.group.append fields).lost evicts, m ∉ k.due (w.group.append fields)
  | .run d =>
    (w.clients d).phase = .reading → k.phase.isOpen →
      ∀ m ∈ w.group.batch readCount,
        if d = c then endsStream m → k.connectedAt ≤ m.id else m ∉ k.due w.group
  | _ => True

instance (c : Nat) (w : Feed) (a : FeedAction) : Decidable (Undisturbed c w a) :=
  match a with
  | .publish fields evicts =>
    inferInstanceAs (Decidable ((w.clients c).phase.isOpen →
      ∀ m ∈ (w.group.append fields).lost evicts, m ∉ (w.clients c).due (w.group.append fields)))
  | .run d =>
    inferInstanceAs (Decidable ((w.clients d).phase = .reading → (w.clients c).phase.isOpen →
      ∀ m ∈ w.group.batch readCount, if d = c then endsStream m → (w.clients c).connectedAt ≤ m.id
        else m ∉ (w.clients c).due w.group))
  | .connect _ | .drop _ => isTrue trivial

/-- What a client has been sent, holds and can still read makes up what it is due. -/
structure Following (g : Streams.Group Fields) (k : Client) : Prop where
  chunks : k.chunks = k.sent.map fun m => m.body.sseFrame
  whole : k.phase.isOpen → through endsStream
    (k.received ++ (after k.connectedAt k.phase.batch ++ after k.connectedAt g.unread)) = k.due g
  going : k.phase.isOpen → ∀ m ∈ k.received, endsStream m = false
  recent : ∀ m ∈ k.phase.batch, endsStream m → k.connectedAt ≤ m.id
  closed : k.phase = .closed → k.received = k.due g ∧ k.received.any endsStream

theorem served_of_following {g : Streams.Group Fields} {k : Client} (hI : Following g k) :
    Served g k := by
  refine ⟨hI.chunks, fun hopen => ?_, fun hclosed => (hI.closed hclosed).1,
    fun hreading hunread => ?_⟩
  · rw [← hI.whole hopen, through_append_of_none (hI.going hopen)]
    exact List.prefix_append _ _
  · have hopen : k.phase.isOpen := by rw [hreading]; rfl
    have hwhole := hI.whole hopen
    rw [hunread, hreading] at hwhole
    rw [← hwhole]
    simpa [ClientPhase.batch] using (through_of_none (hI.going hopen)).symm

/-! ## The stream moves -/

theorem following_append {g : Streams.Group Fields} {k : Client} (hI : Following g k)
    (fields : Fields) : Following (g.append fields) k := by
  refine ⟨hI.chunks, fun hopen => ?_, hI.going, hI.recent, fun hclosed => ?_⟩
  · rw [Client.due, Streams.Group.append_unread, Streams.Group.append_messages, after_append,
      after_append, ← List.append_assoc, ← List.append_assoc, List.append_assoc k.received]
    exact through_append_congr (hI.whole hopen) _
  · obtain ⟨hdue, hany⟩ := hI.closed hclosed
    refine ⟨?_, hany⟩
    rw [hdue, Client.due] at hany
    rw [any_through] at hany
    rw [hdue, Client.due, Client.due, Streams.Group.append_messages, after_append,
      through_append_of_any hany]

/-- Entries that are none of the client's leave what is unread. -/
theorem following_lose {g g' : Streams.Group Fields} {k : Client} {lost : List Entry}
    (hI : Following g k) (hmessages : g'.messages = g.messages)
    (hunread : lost ++ g'.unread = g.unread)
    (hlost : k.phase.isOpen → ∀ m ∈ lost, m ∉ k.due g) : Following g' k := by
  have hdue : k.due g' = k.due g := by rw [Client.due, Client.due, hmessages]
  refine ⟨hI.chunks, fun hopen => ?_, hI.going, hI.recent, by rw [hdue]; exact hI.closed⟩
  have hwhole := hI.whole hopen
  rw [← hunread, after_append, ← List.append_assoc] at hwhole
  rw [hdue, ← hwhole, ← List.append_assoc]
  refine (through_skip fun m hm => ?_).symm
  rw [hwhole]
  exact hlost hopen m (mem_after.mp hm).1

/-! ## The client moves -/

@[simp] theorem ofBatch_batch (ms : List Entry) : (ClientPhase.ofBatch ms).batch = ms := by
  cases ms <;> rfl

@[simp] theorem ofBatch_ne_closed (ms : List Entry) : ClientPhase.ofBatch ms ≠ .closed := by
  cases ms <;> exact ClientPhase.noConfusion

theorem following_connect (g : Streams.Group Fields) :
    Following g { phase := .reading, connectedAt := g.history.length } := by
  have hunread : after g.history.length g.unread = [] :=
    Streams.Group.after_length_eq_nil (List.drop_subset _ _)
  have hmessages : after g.history.length g.messages = [] :=
    Streams.Group.after_length_eq_nil (List.Subset.refl _)
  constructor <;> simp [Client.due, Client.received, ClientPhase.batch, hunread, hmessages]

/-- What the client reads was unread before. -/
theorem following_read {g : Streams.Group Fields} {k : Client} (hI : Following g k)
    (hreading : k.phase = .reading)
    (hrecent : ∀ m ∈ g.batch readCount, endsStream m → k.connectedAt ≤ m.id) :
    Following (g.read readCount) { k with phase := .ofBatch (g.batch readCount) } := by
  have hopen : k.phase.isOpen := by rw [hreading]; rfl
  refine ⟨hI.chunks, fun _ => ?_, fun _ => hI.going hopen, by simpa using hrecent, by simp⟩
  have hwhole := hI.whole hopen
  rw [hreading, ← Streams.Group.batch_append_unread g readCount, after_append] at hwhole
  show through endsStream (k.received ++ (after k.connectedAt (ClientPhase.ofBatch _).batch ++
    after k.connectedAt (g.read readCount).unread)) = k.due g
  rw [ofBatch_batch]
  simpa [ClientPhase.batch] using hwhole

/-- The client sends on the next entry it has read.  A terminal entry ends the stream,
and it is one of the client's own, so the cut comes right after it. -/
theorem following_send {g : Streams.Group Fields} {k : Client} {m : Entry} {rest : List Entry}
    (hI : Following g k) (hsending : k.phase = .sending m rest) :
    Following g { k with
      sent := k.sent ++ [m]
      chunks := k.chunks ++ [m.body.sseFrame]
      phase := if endsStream m then .closed else .ofBatch rest } := by
  have hopen : k.phase.isOpen := by rw [hsending]; rfl
  have hchunks : k.chunks ++ [m.body.sseFrame] =
      (k.sent ++ [m]).map fun m => m.body.sseFrame := by
    rw [hI.chunks, List.map_append]
    rfl
  have hwhole := hI.whole hopen
  have hgoing := hI.going hopen
  have hrecent := hI.recent
  have hbatch : k.phase.batch = [m] ++ rest := by rw [hsending]; rfl
  rw [hbatch, after_append, List.append_assoc, ← List.append_assoc k.received] at hwhole
  rw [hbatch] at hrecent
  by_cases hend : endsStream m
  · have hown : after k.connectedAt [m] = [m] := by
      simpa [after] using hrecent m List.mem_cons_self hend
    have hany : (k.received ++ after k.connectedAt [m]).any endsStream := by simp [hown, hend]
    rw [through_append_of_any hany, hown, through_append_of_none hgoing, through, if_pos hend]
      at hwhole
    refine ⟨hchunks, ?_, ?_, ?_, fun _ => ⟨?_, ?_⟩⟩
    · simp [hend, ClientPhase.isOpen]
    · simp [hend, ClientPhase.isOpen]
    · simp [hend, ClientPhase.batch]
    · rw [Client.received, after_append, hown]
      exact hwhole
    · rw [Client.received, after_append]
      exact hany
  · refine ⟨hchunks, fun _ => ?_, fun _ => ?_, ?_, ?_⟩
    · rw [if_neg hend, ofBatch_batch, Client.received, after_append]
      exact hwhole
    · rw [Client.received, after_append]
      intro x hx
      rcases List.mem_append.mp hx with hx | hx
      · exact hgoing x hx
      · obtain rfl : x = m := by simpa using (mem_after.mp hx).1
        simpa using hend
    · rw [if_neg hend, ofBatch_batch]
      exact fun x hx => hrecent x (List.mem_append_right _ hx)
    · simp [hend]

/-! ## A run -/

theorem following_step {w w' : Feed} {a : FeedAction} {c : Nat}
    (hI : Following w.group (w.clients c)) (hG : Undisturbed c w a)
    (h : feedStep w a = some w') : Following w'.group (w'.clients c) := by
  cases a with
  | publish fields evicts =>
    simp only [feedStep] at h
    split at h <;> cases h
    exact following_lose (following_append hI fields) rfl (Streams.Group.lost_append_unread _ _) hG
  | connect d =>
    simp only [feedStep] at h
    split at h <;> cases h
    by_cases hd : c = d
    · subst hd
      simpa [Feed.set] using following_connect w.group
    · simpa [Feed.set, hd] using hI
  | drop d =>
    simp only [feedStep] at h
    split at h <;> cases h
    by_cases hd : c = d
    · subst hd
      have hchunks := hI.chunks
      constructor <;> simp [Feed.set, ClientPhase.isOpen, ClientPhase.batch, hchunks]
    · simpa [Feed.set, hd] using hI
  | run d =>
    cases hphase : (w.clients d).phase with
    | reading =>
      simp only [feedStep, runClient, hphase] at h
      cases h
      have hbatch := hG hphase
      by_cases hd : c = d
      · subst hd
        have hopen : (w.clients c).phase.isOpen := by rw [hphase]; rfl
        have hfollowing := following_read hI hphase (by simpa using hbatch hopen)
        simpa [Feed.set] using hfollowing
      · rw [show (Feed.set { w with group := w.group.read readCount } d
          { w.clients d with phase := .ofBatch (w.group.batch readCount) }).clients c =
            w.clients c by simp [Feed.set, hd]]
        refine following_lose hI rfl (Streams.Group.batch_append_unread _ _) fun hopen m hm => ?_
        have hdue := hbatch hopen m hm
        rwa [if_neg (Ne.symm hd)] at hdue
    | sending m rest =>
      simp only [feedStep, runClient, hphase] at h
      cases h
      by_cases hd : c = d
      · subst hd
        simpa [Feed.set] using following_send hI hphase
      · simpa [Feed.set, hd] using hI
    | idle | closed | dropped =>
      simp only [feedStep, runClient, hphase] at h
      cases h

/-- In every run, with any number of clients, that takes from client `c` no entry it is
due, the client is served in every state. -/
theorem client_served (as : List FeedAction) (w : Feed) (c : Nat)
    (hG : Along feedStep (fun w a _ => Undisturbed c w a) {} as)
    (hrun : run feedStep {} as = some w) : Served w.group (w.clients c) := by
  have hinitial : Following ({} : Feed).group (({} : Feed).clients c) := by
    constructor <;> simp [ClientPhase.isOpen, ClientPhase.batch]
  exact served_of_following (invariant_run (I := fun w => Following w.group (w.clients c))
    (fun _ _ _ => following_step) hinitial hG hrun)

/-! ## Two clients, and one -/

def stepCompleted : Fields := ⟨[("event_type", "step.completed"), ("step_name", "only")], by simp⟩

def executionCompleted : Fields := ⟨[("event_type", "execution.completed")], by simp⟩

/-- Two clients are connected when an event is published.  One reads it, and the other
is never sent it. -/
theorem event_sent_to_one_client :
    ∃ w, run feedStep {} [.connect 0, .connect 1, .publish stepCompleted 0, .run 0, .run 0] =
        some w ∧
      (w.clients 0).sent = [⟨0, stepCompleted⟩] ∧ (w.clients 1).phase = .reading ∧
      w.group.unread = [] ∧ (w.clients 1).sent = [] ∧ ¬ Served w.group (w.clients 1) := by
  have hend : (run feedStep {} [.connect 0, .connect 1, .publish stepCompleted 0, .run 0,
      .run 0]).any fun w =>
        (w.clients 0).sent = [⟨0, stepCompleted⟩] ∧ (w.clients 1).phase = .reading ∧
          w.group.unread = [] ∧ (w.clients 1).sent = [] ∧
          (w.clients 1).received ≠ (w.clients 1).due w.group := by
    decide +kernel
  obtain ⟨w, hrun, hzero, hreading, hunread, hone, hdue⟩ := exists_of_any hend
  exact ⟨w, hrun, hzero, hreading, hunread, hone, fun h => hdue (h.caughtUp hreading hunread)⟩

theorem client_served_alone :
    ∃ w, run feedStep {} [.connect 0, .publish stepCompleted 0, .run 0, .run 0,
        .publish executionCompleted 0, .run 0, .run 0] = some w ∧
      (w.clients 0).phase = .closed ∧ Served w.group (w.clients 0) := by
  have hend : (run feedStep {} [.connect 0, .publish stepCompleted 0, .run 0, .run 0,
      .publish executionCompleted 0, .run 0, .run 0]).any fun w =>
        (w.clients 0).phase = .closed := by
    decide +kernel
  obtain ⟨w, hrun, hw⟩ := exists_of_any hend
  exact ⟨w, hrun, hw, client_served _ w 0 (by decide +kernel) hrun⟩

end Sutram.Workflow
