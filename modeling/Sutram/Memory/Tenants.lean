/-
The memory service with the requests of all its tenants at once.

One database holds the rows of every tenant, and one Redis the query cache of all of
them.  A session belongs to the tenant its request names, and row-level security may be
bypassed, so that a statement sees the rows that its own conditions name.  The
statements, the order they come in and what a transaction does are those of one tenant's
memory; here each is run on the whole database.

SCAN with MATCH lists keys the pattern accepts, and the loop deletes what it lists.

What the embedder answers may differ from one operation to the next: `serveGiven` takes it
with each request.
-/
import Sutram.Library.Glob
import Sutram.Library.Projection
import Sutram.Memory.System

namespace Sutram.Memory

open Sutram.Core Runs

/-! ## The state -/

/-- What is recorded of a tenant's requests. -/
structure Records (R : Type) where
  stored : List Uuid := []
  forgotten : List Uuid := []
  answers : List (Answer R) := []

/-- The committed database, Redis, the sessions of each tenant, and the row locks with
the sessions that hold them.  Ids are drawn once, by one tenant. -/
structure Tenants (V R : Type) where
  now : Nat := 0
  db : MemoryDb V := {}
  cache : List (CacheEntry R) := []
  tokens : Uuid → Nat := fun _ => 0
  sessions : Uuid → Nat → Work V R := fun _ _ => .idle
  locks : List (Uuid × Uuid × Nat) := []
  drawn : List (Uuid × Uuid) := []
  records : Uuid → Records R := fun _ => {}

variable {V R : Type}

namespace Tenants

def initial : Tenants V R := {}

def set (w : Tenants V R) (t : Uuid) (i : Nat) (work : Work V R) : Tenants V R :=
  { w with sessions := Function.update w.sessions t (Function.update (w.sessions t) i work) }

def draw (w : Tenants V R) (t id : Uuid) : Tenants V R := { w with drawn := (t, id) :: w.drawn }

def record (w : Tenants V R) (t : Uuid) (records : Records R) : Tenants V R :=
  { w with records := Function.update w.records t records }

/-- No other session holds the lock of one of the rows. -/
def lockFree (w : Tenants V R) (t : Uuid) (i : Nat) (ids : List Uuid) : Bool :=
  w.locks.all fun l => l.2 = (t, i) || !ids.contains l.1

def lock (w : Tenants V R) (t : Uuid) (i : Nat) (ids : List Uuid) : Tenants V R :=
  { w with locks := ids.map (fun id => (id, t, i)) ++ w.locks }

/-- The session's transaction is over. -/
def close (w : Tenants V R) (t : Uuid) (i : Nat) : Tenants V R :=
  { w.set t i .idle with locks := w.locks.filter fun l => l.2 ≠ (t, i) }

def existing (w : Tenants V R) (ids : List Uuid) : List Uuid :=
  ids.filter fun id => (w.db.items.find? fun item => item.id = id).isSome

/-- `WHERE id = ANY(:ids) AND tenant_id = :tid` -/
def existingOf (w : Tenants V R) (t : Uuid) (ids : List Uuid) : List Uuid :=
  ids.filter fun id =>
    (w.db.items.find? fun item => item.id = id && item.tenantId = t).isSome

/-- SETEX.  A key that is there stays there. -/
def setex (w : Tenants V R) (t : Uuid) (key : String) (ttl : Nat)
    (results : List (MemorySearchResult R)) (known : List Uuid) : Tenants V R :=
  let token := match w.cache.find? fun e => e.key = key with
    | some e => e.token
    | none => w.tokens t
  { w with
    cache := { key, results, expiresAt := w.now + ttl, token, known } ::
      w.cache.filter fun e => e.key ≠ key
    tokens := Function.update w.tokens t (w.tokens t + 1) }

/-- Time passes, and entries expire. -/
def tick (w : Tenants V R) (d : Nat) : Tenants V R :=
  { w with now := w.now + d, cache := w.cache.filter fun e => w.now + d < e.expiresAt }

end Tenants

/-! ## Steps -/

/-- `pattern` in `_invalidate_query_cache` -/
def queryPattern (tenantId : Uuid) : String := "memory:query:" ++ tenantId.str ++ ":*"

/-- Does MATCH list the key? -/
def listed (tenantId : Uuid) (key : String) : Bool :=
  Glob.accepts (queryPattern tenantId).toList key.toList

/-- An operation of a tenant's session. -/
inductive Request where
  | tick (d : Nat)
  | op (t : Uuid) (i : Nat) (o : Op)

section

variable (svc : MemoryService V R)

/-- What a commit makes of the database and the records. -/
def Tenants.commit (w : Tenants V R) (t : Uuid) (i : Nat) : Option (Tenants V R) :=
  match w.sessions t i with
  | .invalidated (.stored item) =>
    (w.db.items.insert item).map fun items =>
      { (w.close t i).record t { w.records t with stored := item.id :: (w.records t).stored } with
        db := { w.db with items } }
  | .invalidated (.forgotten id) =>
    some
      { (w.close t i).record t { w.records t with forgotten := id :: (w.records t).forgotten } with
        db := { w.db with items := w.db.items.delete id } }
  | .touched ids accessedAt => some { w.close t i with db := w.db.touch ids accessedAt }
  | .picked [] => some (w.close t i)
  | .marked summary ids =>
    (w.db.summaries.insert summary).map fun summaries =>
      { w.close t i with db := { w.db.markCompressed ids with summaries } }
  | _ => none

/-- The next operation of a session. -/
def Tenants.perform (w : Tenants V R) (t : Uuid) (i : Nat) (o : Op) : Option (Tenants V R) :=
  match o, w.sessions t i with
  -- `store_memory`
  | .store body, .idle => some (w.set t i (.storing body w.now))
  | .insert id, .storing body since =>
    match svc.embed body.content svc.defaultEmbeddingModel with
    | some vector =>
      if id ∈ w.drawn.map Prod.snd then none
      else some ((w.set t i
        (.written (.stored (newItem svc t body id vector since w.now)))).draw t id)
    | none => none
  -- `forget_memory`
  | .forget id, .idle => some (w.set t i (.forgetting id))
  | .select, .forgetting id =>
    match w.db.items.find? fun item => item.id = id && item.tenantId = t with
    | some _ => some (w.set t i (.deleting id))
    | none => none
  | .delete, .deleting id =>
    if w.lockFree t i [id] then
      some ((w.set t i (.written (.forgotten id))).lock t i (w.existing [id]))
    else none
  -- `_invalidate_query_cache`
  | .startScan, .written write =>
    some (w.set t i
      (.scanning write ((w.cache.filter fun e => listed t e.key).map CacheEntry.token)))
  | .scan keys, .scanning write present =>
    if keys.all (listed t) then
      some { w.set t i (.scanning write present) with
        cache := w.cache.filter fun e => !keys.contains e.key }
    else none
  | .endScan, .scanning write present =>
    if w.cache.all fun e => !listed t e.key || !present.contains e.token then
      some (w.set t i (.invalidated write))
    else none
  -- `search_memory`
  | .search body, .idle =>
    some (w.set t i (.searching ⟨body, (w.records t).stored, (w.records t).forgotten⟩))
  | .get, .searching asked =>
    match w.cache.find? fun e => e.key = cacheKey svc t asked.body with
    | some e => some (w.set t i (.answering asked (some e.known) e.results []))
    | none => some (w.set t i (.gathering asked none
        (gatherLive svc asked.body.query t (typeValues asked.body.memoryTypes))))
  | .read, .gathering asked known (.read next) =>
    some (w.set t i
      (.gathering asked (some (known.getD (w.records t).stored)) (next ⟨w.db, svc.embed⟩)))
  | .read, .gathering asked known (.done allCandidates) =>
    let candidates := rerank svc.arith w.now allCandidates asked.body.topK svc.recencyHalfLifeDays
    let results := if candidates.isEmpty then [] else readResults svc t candidates w.db
    some (w.set t i (.filling asked (known.getD (w.records t).stored) results
      (candidates.map fun c => c.candidate.id)))
  | .setex, .filling asked known results candidateIds =>
    some ((w.setex t (cacheKey svc t asked.body) svc.queryCacheTtl results known).set t i
      (.answering asked none results candidateIds))
  | .respond, .answering asked hit results candidateIds =>
    some ((w.set t i (if candidateIds.isEmpty then .idle else .touching candidateIds)).record t
      { w.records t with answers := ⟨asked, hit, results⟩ :: (w.records t).answers })
  -- `_update_access_stats_bg`
  | .touch, .touching ids =>
    if w.lockFree t i (w.existingOf t ids) then
      some ((w.set t i (.touched (w.existingOf t ids) w.now)).lock t i (w.existingOf t ids))
    else none
  -- `compress_tenant`
  | .compress, .idle => some (w.set t i .compressing)
  | .pick, .compressing => some (w.set t i (.picked (selectForCompression svc t w.now w.db)))
  | .summarise id text, .picked (item :: items) =>
    match svc.embed text svc.defaultEmbeddingModel with
    | some vector =>
      if id ∈ w.drawn.map Prod.snd then none
      else some ((w.set t i
        (.summarised (newSummary svc t (item :: items) id text vector w.now))).draw t id)
    | none => none
  | .mark, .summarised summary =>
    if w.lockFree t i (w.existing summary.originalIds) then
      some ((w.set t i (.marked summary (w.existing summary.originalIds))).lock t i
        (w.existing summary.originalIds))
    else none
  -- the session's context
  | .commit, _ => w.commit t i
  | .abort, _ => some (w.close t i)
  | _, _ => none

def serve (w : Tenants V R) : Request → Option (Tenants V R)
  | .tick d => some (w.tick d)
  | .op t i o => w.perform svc t i o

/-- The service while the embedder answers so. -/
def MemoryService.answering (embed : String → String → Option V) : MemoryService V R :=
  { svc with embed }

/-- A request, with what the embedder answers to it. -/
def serveGiven (w : Tenants V R) (a : (String → String → Option V) × Request) :
    Option (Tenants V R) :=
  serve (svc.answering a.1) w a.2

/-- An action in one tenant's memory, with what the embedder answers to it. -/
def stepGiven (t : Uuid) (w : World V R) (a : (String → String → Option V) × Action) :
    Option (World V R) :=
  step (svc.answering a.1) t w a.2

end

/-- `get_memory_item`, `none` where it answers 404. -/
def getMemoryItem (db : MemoryDb V) (tenantId itemId : Uuid) : Option MemoryItemResponse :=
  (db.items.find? fun item => item.id = itemId && item.tenantId = tenantId).map
    MemoryItemORM.response

/-! ## One tenant's part -/

/-- The rows of a tenant. -/
def MemoryDb.of (db : MemoryDb V) (t : Uuid) : MemoryDb V where
  items := db.items.part fun item => item.tenantId = t
  summaries := db.summaries.part fun summary => summary.tenantId = t

/-- What the service is to one tenant. -/
def Tenants.of (w : Tenants V R) (t : Uuid) : World V R where
  now := w.now
  db := w.db.of t
  cache := w.cache.filter fun e => listed t e.key
  tokens := w.tokens t
  sessions := w.sessions t
  locks := w.locks.filterMap fun l => if l.2.1 = t then some (l.1, l.2.2) else none
  drawn := w.drawn.filterMap fun d => if d.1 = t then some d.2 else none
  stored := (w.records t).stored
  forgotten := (w.records t).forgotten
  answers := (w.records t).answers

/-- The operation, of a session of the tenant. -/
def Request.sent (t : Uuid) : Action → Request
  | .tick d => .tick d
  | .op i o => .op t i o

/-- The part a tenant has in a request. -/
def Request.of (t : Uuid) : Request → Option Action
  | .tick d => some (.tick d)
  | .op t' i o => if t' = t then some (.op i o) else none

def Request.givenOf (t : Uuid) (a : (String → String → Option V) × Request) :
    Option ((String → String → Option V) × Action) :=
  (Request.of t a.2).map fun b => (a.1, b)

end Sutram.Memory
