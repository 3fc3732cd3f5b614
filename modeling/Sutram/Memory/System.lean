/-
The memory of one tenant, with any number of requests and compression runs at once.

A session is a request or a `compress_tenant` run, with its own transaction.  It stands
between two operations: statements, calls to Redis, or the LLM call.  Its writes are
held by the session until its context commits, after the route body, and other sessions
read what is committed when their statement runs.  An UPDATE or a DELETE takes row
locks, and waits for those of others.  An exception, at any point, is a rollback.

The query cache is the part of Redis with the keys of the tenant.  SCAN returns all keys
that are there from its beginning to its end, and any others it likes.

The rows of other tenants, the publishing of events and the archive in S3 are left out.
-/
import Sutram.Library.Runs
import Sutram.Memory.SearchRoute

namespace Sutram.Memory

open Sutram.Core Runs

/-! ## Sessions -/

/-- What a store or a forget has written. -/
inductive Write (V : Type) where
  | stored (item : MemoryItemORM V)
  | forgotten (id : Uuid)

/-- A search request, with the stores and the forgets committed when it started. -/
structure Asked where
  body : MemorySearchRequest
  stored : List Uuid
  forgotten : List Uuid

/-- Where a session is.  `known` are the stores committed when the first statement of a
search ran. -/
inductive Work (V R : Type) where
  | idle
  /-- before the embedding, since a time -/
  | storing (body : MemoryItemCreate) (since : Nat)
  | forgetting (id : Uuid)
  | deleting (id : Uuid)
  /-- flushed -/
  | written (write : Write V)
  /-- in `_invalidate_query_cache`, with the entries there at the first SCAN -/
  | scanning (write : Write V) (present : List Nat)
  | invalidated (write : Write V)
  | searching (asked : Asked)
  | gathering (asked : Asked) (known : Option (List Uuid))
      (rest : Reading (Backends V) (List (CandidateRow R)))
  | filling (asked : Asked) (known : List Uuid) (results : List (MemorySearchResult R))
      (candidateIds : List Uuid)
  /-- `hit` is the `known` of the entry that answers -/
  | answering (asked : Asked) (hit : Option (List Uuid)) (results : List (MemorySearchResult R))
      (candidateIds : List Uuid)
  /-- the background task -/
  | touching (ids : List Uuid)
  | touched (ids : List Uuid) (accessedAt : Nat)
  | compressing
  | picked (items : List (MemoryItemORM V))
  | summarised (summary : MemorySummaryORM V)
  /-- after the UPDATE of the rows `ids` -/
  | marked (summary : MemorySummaryORM V) (ids : List Uuid)

/-- An entry of the query cache.  The token tells one presence of a key from another. -/
structure CacheEntry (R : Type) where
  key : String
  results : List (MemorySearchResult R)
  expiresAt : Nat
  token : Nat
  known : List Uuid

/-- A search that has been answered. -/
structure Answer (R : Type) where
  asked : Asked
  hit : Option (List Uuid)
  results : List (MemorySearchResult R)

/-- The committed database, Redis, the sessions and the row locks, with a record of the
ids drawn, of the stores and forgets committed and of the answers. -/
structure World (V R : Type) where
  now : Nat := 0
  db : MemoryDb V := {}
  cache : List (CacheEntry R) := []
  tokens : Nat := 0
  sessions : Nat → Work V R := fun _ => .idle
  locks : List (Uuid × Nat) := []
  drawn : List Uuid := []
  stored : List Uuid := []
  forgotten : List Uuid := []
  answers : List (Answer R) := []

variable {V R : Type}

namespace World

def initial : World V R := {}

def set (w : World V R) (i : Nat) (work : Work V R) : World V R :=
  { w with sessions := Function.update w.sessions i work }

/-- No other session holds the lock of one of the rows. -/
def lockFree (w : World V R) (i : Nat) (ids : List Uuid) : Bool :=
  w.locks.all fun l => l.2 = i || !ids.contains l.1

def lock (w : World V R) (i : Nat) (ids : List Uuid) : World V R :=
  { w with locks := ids.map (fun id => (id, i)) ++ w.locks }

/-- The session's transaction is over. -/
def close (w : World V R) (i : Nat) : World V R :=
  { w.set i .idle with locks := w.locks.filter fun l => l.2 ≠ i }

/-- The rows among these that are there. -/
def existing (w : World V R) (ids : List Uuid) : List Uuid :=
  ids.filter fun id => (w.db.items.find? fun item => item.id = id).isSome

/-- SETEX.  A key that is there stays there. -/
def setex (w : World V R) (key : String) (ttl : Nat) (results : List (MemorySearchResult R))
    (known : List Uuid) : World V R :=
  let token := match w.cache.find? fun e => e.key = key with
    | some e => e.token
    | none => w.tokens
  { w with
    cache := { key, results, expiresAt := w.now + ttl, token, known } ::
      w.cache.filter fun e => e.key ≠ key
    tokens := w.tokens + 1 }

/-- Time passes, and entries expire. -/
def tick (w : World V R) (d : Nat) : World V R :=
  { w with now := w.now + d, cache := w.cache.filter fun e => w.now + d < e.expiresAt }

end World

/-! ## Statements -/

/-- The row a store inserts. -/
def newItem (svc : MemoryService V R) (tenantId : Uuid) (body : MemoryItemCreate) (id : Uuid)
    (vector : V) (since now : Nat) : MemoryItemORM V where
  id := id
  tenantId := tenantId
  memoryType := body.memoryType
  content := body.content
  embedding := vector
  embeddingModel := svc.defaultEmbeddingModel
  extraMetadata := body.extraMetadata
  accessedAt := now
  retentionPolicy := body.retentionPolicy
  createdAt := since

/-- The items `compress_tenant` selects. -/
def selectForCompression (svc : MemoryService V R) (tenantId : Uuid) (now : Nat)
    (db : MemoryDb V) : List (MemoryItemORM V) :=
  ((db.items.select fun item =>
    item.tenantId = tenantId && item.compressed = false &&
      item.createdAt + svc.compressionThreshold < now &&
      item.retentionPolicy ≠ "forever").insertionSort
    fun a b => a.createdAt ≤ b.createdAt).take svc.compressionBatchSize

/-- The summary of the items. -/
def newSummary (svc : MemoryService V R) (tenantId : Uuid) (items : List (MemoryItemORM V))
    (id : Uuid) (text : String) (vector : V) (now : Nat) : MemorySummaryORM V where
  id := id
  tenantId := tenantId
  summary := text
  originalIds := items.map MemoryItemORM.id
  embedding := vector
  embeddingModel := svc.defaultEmbeddingModel
  createdAt := now

def MemoryDb.touch (db : MemoryDb V) (ids : List Uuid) (accessedAt : Nat) : MemoryDb V where
  items := db.items.update (fun item => ids.contains item.id)
    (fun item => { item with accessedAt := accessedAt, accessCount := item.accessCount + 1 })
    fun _ => rfl
  summaries := db.summaries

def MemoryDb.markCompressed (db : MemoryDb V) (ids : List Uuid) : MemoryDb V where
  items := db.items.update (fun item => ids.contains item.id)
    (fun item => { item with compressed := true }) fun _ => rfl
  summaries := db.summaries

/-! ## Steps -/

inductive Op where
  | store (body : MemoryItemCreate)
  | insert (id : Uuid)
  | forget (id : Uuid)
  | select
  | delete
  | startScan
  | scan (keys : List String)
  | endScan
  | search (body : MemorySearchRequest)
  | get
  | read
  | setex
  | respond
  | touch
  | compress
  | pick
  /-- the LLM answers with a text -/
  | summarise (id : Uuid) (text : String)
  | mark
  | commit
  | abort

inductive Action where
  | tick (d : Nat)
  | op (i : Nat) (o : Op)

section

variable (svc : MemoryService V R) (tenantId : Uuid)

/-- What a commit makes of the database and the records. -/
def commit (w : World V R) (i : Nat) : Option (World V R) :=
  match w.sessions i with
  | .invalidated (.stored item) =>
    (w.db.items.insert item).map fun items =>
      { w.close i with db := { w.db with items }, stored := item.id :: w.stored }
  | .invalidated (.forgotten id) =>
    some { w.close i with
      db := { w.db with items := w.db.items.delete id }
      forgotten := id :: w.forgotten }
  | .touched ids accessedAt => some { w.close i with db := w.db.touch ids accessedAt }
  | .picked [] => some (w.close i)
  | .marked summary ids =>
    (w.db.summaries.insert summary).map fun summaries =>
      { w.close i with db := { w.db.markCompressed ids with summaries } }
  | _ => none

/-- The next operation of a session. -/
def perform (w : World V R) (i : Nat) (o : Op) : Option (World V R) :=
  match o, w.sessions i with
  -- `store_memory`
  | .store body, .idle => some (w.set i (.storing body w.now))
  | .insert id, .storing body since =>
    match svc.embed body.content svc.defaultEmbeddingModel with
    | some vector =>
      if id ∈ w.drawn then none
      else some
        { w.set i (.written (.stored (newItem svc tenantId body id vector since w.now))) with
          drawn := id :: w.drawn }
    | none => none
  -- `forget_memory`
  | .forget id, .idle => some (w.set i (.forgetting id))
  | .select, .forgetting id =>
    match w.db.items.find? fun item => item.id = id && item.tenantId = tenantId with
    | some _ => some (w.set i (.deleting id))
    | none => none
  | .delete, .deleting id =>
    if w.lockFree i [id] then
      some ((w.set i (.written (.forgotten id))).lock i (w.existing [id]))
    else none
  -- `_invalidate_query_cache`
  | .startScan, .written write => some (w.set i (.scanning write (w.cache.map CacheEntry.token)))
  | .scan keys, .scanning write present =>
    some { w.set i (.scanning write present) with
      cache := w.cache.filter fun e => !keys.contains e.key }
  | .endScan, .scanning write present =>
    if w.cache.all fun e => !present.contains e.token then some (w.set i (.invalidated write))
    else none
  -- `search_memory`
  | .search body, .idle => some (w.set i (.searching ⟨body, w.stored, w.forgotten⟩))
  | .get, .searching asked =>
    match w.cache.find? fun e => e.key = cacheKey svc tenantId asked.body with
    | some e => some (w.set i (.answering asked (some e.known) e.results []))
    | none => some (w.set i (.gathering asked none
        (gatherLive svc asked.body.query tenantId (typeValues asked.body.memoryTypes))))
  | .read, .gathering asked known (.read next) =>
    some (w.set i (.gathering asked (some (known.getD w.stored)) (next ⟨w.db, svc.embed⟩)))
  | .read, .gathering asked known (.done allCandidates) =>
    let candidates := rerank svc.arith w.now allCandidates asked.body.topK svc.recencyHalfLifeDays
    let results := if candidates.isEmpty then [] else readResults svc tenantId candidates w.db
    some (w.set i (.filling asked (known.getD w.stored) results
      (candidates.map fun c => c.candidate.id)))
  | .setex, .filling asked known results candidateIds =>
    some ((w.setex (cacheKey svc tenantId asked.body) svc.queryCacheTtl results known).set i
      (.answering asked none results candidateIds))
  | .respond, .answering asked hit results candidateIds =>
    some { w.set i (if candidateIds.isEmpty then .idle else .touching candidateIds) with
      answers := ⟨asked, hit, results⟩ :: w.answers }
  -- `_update_access_stats_bg`
  | .touch, .touching ids =>
    if w.lockFree i (w.existing ids) then
      some ((w.set i (.touched (w.existing ids) w.now)).lock i (w.existing ids))
    else none
  -- `compress_tenant`
  | .compress, .idle => some (w.set i .compressing)
  | .pick, .compressing =>
    some (w.set i (.picked (selectForCompression svc tenantId w.now w.db)))
  | .summarise id text, .picked (item :: items) =>
    match svc.embed text svc.defaultEmbeddingModel with
    | some vector =>
      if id ∈ w.drawn then none
      else some { w.set i (.summarised
          (newSummary svc tenantId (item :: items) id text vector w.now)) with
        drawn := id :: w.drawn }
    | none => none
  | .mark, .summarised summary =>
    if w.lockFree i (w.existing summary.originalIds) then
      some ((w.set i (.marked summary (w.existing summary.originalIds))).lock i
        (w.existing summary.originalIds))
    else none
  -- the session's context
  | .commit, _ => commit w i
  | .abort, _ => some (w.close i)
  | _, _ => none

def step (w : World V R) : Action → Option (World V R)
  | .tick d => some (w.tick d)
  | .op i o => perform svc tenantId w i o

end

/-! ## Whole requests -/

/-- A store from its beginning to its commit. -/
def storeActions (i : Nat) (id : Uuid) (content : String) : List Action :=
  [.op i (.store { content, memoryType := .semantic }), .op i (.insert id), .op i .startScan,
    .op i .endScan, .op i .commit]

/-- A compression run with its result. -/
def compressActions (i : Nat) (id : Uuid) (text : String) : List Action :=
  [.op i .compress, .op i .pick, .op i (.summarise id text), .op i .mark, .op i .commit]

def forgetActions (i : Nat) (id : Uuid) : List Action :=
  [.op i (.forget id), .op i .select, .op i .delete, .op i .startScan, .op i .endScan,
    .op i .commit]

/-- Long enough for a compression. -/
def eightDays : Action := .tick (8 * 86400000000)

end Sutram.Memory
