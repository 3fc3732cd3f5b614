/-
The route that searches the memory of a tenant.

The route looks its answer up in the query cache, and on a miss searches, reads the
items of the candidates again by id, and fills the cache.  Publishing the event is left
out, and so is the update of the access statistics, which follows the response.
-/
import Mathlib.Data.List.Dedup
import Mathlib.Data.String.Basic
import Sutram.Memory.Searcher

namespace Sutram.Memory

open Sutram.Core

variable {V R : Type}

/-! ## Query cache -/

/-- What GET finds under each key. -/
def QueryCache (R : Type) : Type := String → Option (List (MemorySearchResult R))

/-- SETEX. -/
def QueryCache.setex (cache : QueryCache R) (key : String)
    (results : List (MemorySearchResult R)) : QueryCache R :=
  fun k => if k = key then some results else cache k

/-- `type_strs` -/
def typeStrs (memoryTypes : Option (List MemoryType)) : List String :=
  match memoryTypes with
  | none | some [] => ["all"]
  | some types => (types.map MemoryType.value).insertionSort (· ≤ ·)

/-- `_raw` -/
def rawKey (body : MemorySearchRequest) : String :=
  body.query ++ "|" ++ ",".intercalate (typeStrs body.memoryTypes)

def cacheKey (svc : MemoryService V R) (tenantId : Uuid) (body : MemorySearchRequest) : String :=
  "memory:query:" ++ tenantId.str ++ ":" ++ svc.sha256 (rawKey body)

/-! ## Results -/

/-- `[t.value for t in body.memory_types] if body.memory_types else None` -/
def typeValues (memoryTypes : Option (List MemoryType)) : Option (List String) :=
  match memoryTypes with
  | none | some [] => none
  | some types => some (types.map MemoryType.value)

/-- The candidates of a request. -/
def findCandidates (svc : MemoryService V R) (now : Nat) (tenantId : Uuid)
    (body : MemorySearchRequest) : Reading (MemoryDb V) (List (ScoredCandidate R)) :=
  search svc now body.query tenantId body.topK (typeValues body.memoryTypes)

/-- `SELECT ... FROM memory_items WHERE id IN candidate_ids` -/
def selectRows (svc : MemoryService V R) (tenantId : Uuid) (candidateIds : List Uuid)
    (db : MemoryDb V) : List (MemoryItemORM V) :=
  db.items.select fun item =>
    candidateIds.contains item.id && svc.security.sees (some tenantId) item.tenantId

def MemorySearchResult.ofRow (ar : Arith R) (c : ScoredCandidate R) (row : MemoryItemORM V) :
    MemorySearchResult R where
  item := row.response
  score := ar.round4 c.score
  similarity := c.candidate.similarity

/-- The results for the candidates whose rows are there, in the order of the candidates. -/
def resultsOf (svc : MemoryService V R) (rows : List (MemoryItemORM V))
    (candidates : List (ScoredCandidate R)) : List (MemorySearchResult R) :=
  candidates.filterMap fun c =>
    (rows.find? fun row => row.id = c.candidate.id).map (.ofRow svc.arith c)

/-- The second half of the route: the rows of the candidates are read again. -/
def readResults (svc : MemoryService V R) (tenantId : Uuid)
    (candidates : List (ScoredCandidate R)) (db : MemoryDb V) : List (MemorySearchResult R) :=
  resultsOf svc (selectRows svc tenantId (candidates.map fun c => c.candidate.id) db) candidates

/-- The uncached path. -/
def uncached (svc : MemoryService V R) (now : Nat) (tenantId : Uuid)
    (body : MemorySearchRequest) : Reading (MemoryDb V) (List (MemorySearchResult R)) := do
  let candidates ← findCandidates svc now tenantId body
  if candidates.isEmpty then return []
  else .get (readResults svc tenantId candidates)

/-! ## The route -/

/-- A search while nothing else happens; `none` is an exception. -/
def searchMemory (svc : MemoryService V R) (now : Nat) (tenantId : Uuid)
    (body : MemorySearchRequest) (db : MemoryDb V) (cache : QueryCache R) :
    Option (MemorySearchResponse R × QueryCache R) :=
  match cache (cacheKey svc tenantId body) with
  | some cached => some (⟨cached, true⟩, cache)
  | none => do
    let results ← (uncached svc now tenantId body).run db
    return (⟨results, false⟩, cache.setex (cacheKey svc tenantId body) results)

/-! ## The candidates of a request, ranked -/

/-- Every embedding model of the tenant's rows can embed the query. -/
def Embeds (svc : MemoryService V R) (query : String) (tenantId : Uuid) (db : MemoryDb V) : Prop :=
  ∀ model ∈ itemModels svc tenantId db ++ summaryModels svc tenantId db,
    (svc.embed query model).isSome

/-- All candidates of a request. -/
def gathered (svc : MemoryService V R) (tenantId : Uuid) (body : MemorySearchRequest)
    (db : MemoryDb V) : List (CandidateRow R) :=
  ((gather svc body.query tenantId (typeValues body.memoryTypes)).run db).getD []

/-- All candidates of a request, ranked. -/
def ranked (svc : MemoryService V R) (now : Nat) (tenantId : Uuid) (body : MemorySearchRequest)
    (db : MemoryDb V) : List (ScoredCandidate R) :=
  ranking svc.arith now svc.recencyHalfLifeDays (gathered svc tenantId body db)

/-- The item with the id of a candidate. -/
def itemOf (svc : MemoryService V R) (tenantId : Uuid) (db : MemoryDb V) (c : ScoredCandidate R) :
    Option (MemoryItemORM V) :=
  db.items.find? fun item =>
    item.id = c.candidate.id && svc.security.sees (some tenantId) item.tenantId

section

variable {svc : MemoryService V R} {now : Nat} {tenantId : Uuid} {body : MemorySearchRequest}
  {db : MemoryDb V}

theorem isSome_gather (query : String) (types : Option (List String)) :
    ((gather svc query tenantId types).run db).isSome ↔ Embeds svc query tenantId db := by
  have hpass (models : List String) (f : String → V → MemoryDb V → List (CandidateRow R)) :
      ((Reading.collect (fun model => do
          let qvec ← .ofOption (svc.embed query model)
          .get (f model qvec)) models).run db).isSome ↔
        ∀ model ∈ models, (svc.embed query model).isSome := by
    rw [Reading.isSome_run_collect]
    refine forall₂_congr fun model _ => ?_
    cases svc.embed query model <;> simp
  have hitems := hpass (itemModels svc tenantId db) (itemCandidates svc tenantId (typeFilter types))
  have hsummaries := hpass (summaryModels svc tenantId db) (summaryCandidates svc tenantId)
  rw [Embeds, List.forall_mem_append, ← hitems, ← hsummaries, gather]
  simp only [Reading.run_bind, Reading.run_get, Reading.run_pure, Option.bind_some]
  cases Reading.run db (Reading.collect _ (itemModels svc tenantId db)) with
  | none => simp
  | some items =>
    cases Reading.run db (Reading.collect _ (summaryModels svc tenantId db)) <;> simp

theorem run_gather (h : Embeds svc body.query tenantId db) :
    (gather svc body.query tenantId (typeValues body.memoryTypes)).run db =
      some (gathered svc tenantId body db) := by
  obtain ⟨cs, hcs⟩ := Option.isSome_iff_exists.mp ((isSome_gather _ _).mpr h)
  rw [gathered, hcs]
  rfl

theorem sliceTo_nil {α : Type} (k : Int) : sliceTo ([] : List α) k = [] := by
  cases k <;> exact List.take_nil

/-- A search cuts the ranking of all candidates. -/
theorem run_search {query : String} {topK : Int} {types : Option (List String)} :
    (search svc now query tenantId topK types).run db =
      ((gather svc query tenantId types).run db).map fun cs =>
        sliceTo (ranking svc.arith now svc.recencyHalfLifeDays cs) topK := by
  rw [search, Reading.run_bind]
  cases (gather svc query tenantId types).run db with
  | none => rfl
  | some cs =>
    cases cs with
    | nil => exact congrArg some (sliceTo_nil _).symm
    | cons c cs => rfl

theorem run_findCandidates (h : Embeds svc body.query tenantId db) :
    (findCandidates svc now tenantId body).run db =
      some (sliceTo (ranked svc now tenantId body db) body.topK) := by
  rw [findCandidates, run_search, run_gather h, Option.map_some, ranked]

/-- Reading the rows of the candidates again finds the item of each. -/
theorem readResults_eq (candidates : List (ScoredCandidate R)) :
    readResults svc tenantId candidates db =
      candidates.filterMap fun c => (itemOf svc tenantId db c).map (.ofRow svc.arith c) := by
  refine List.filterMap_congr fun c hc => ?_
  congr 1
  rw [itemOf, selectRows, Table.select, Table.find?, List.find?_filter]
  congr 1
  funext item
  by_cases hid : item.id = c.candidate.id
  · have hmem : (candidates.map fun c => c.candidate.id).contains c.candidate.id = true :=
      List.contains_iff_mem.mpr (List.mem_map_of_mem hc)
    simp only [hid, hmem, Bool.true_and, decide_true, and_true, Bool.decide_eq_true]
  · simp [hid]

/-- What a search returns when the query can be embedded. -/
theorem run_uncached (h : Embeds svc body.query tenantId db) :
    (uncached svc now tenantId body).run db =
      some ((sliceTo (ranked svc now tenantId body db) body.topK).filterMap fun c =>
        (itemOf svc tenantId db c).map (.ofRow svc.arith c)) := by
  rw [uncached, Reading.run_bind, run_findCandidates h, Option.bind_some]
  cases hcut : sliceTo (ranked svc now tenantId body db) body.topK with
  | nil => rfl
  | cons c cs =>
    rw [← hcut, ← readResults_eq]
    simp [hcut]

/-- Otherwise it raises. -/
theorem run_uncached_eq_none (h : ¬ Embeds svc body.query tenantId db) :
    (uncached svc now tenantId body).run db = none := by
  have hgather := mt (isSome_gather body.query (typeValues body.memoryTypes)).mp h
  rw [Option.not_isSome_iff_eq_none] at hgather
  rw [uncached, findCandidates, search, Reading.run_bind, Reading.run_bind, hgather]
  rfl

end

/-! ## A service to run

Texts are their own embeddings, at distance zero or one, and the logarithm and the
exponential are right at one and at zero. -/

def rationalArith : Arith Rat where
  lit x := x
  add x y := x + y
  sub x y := x - y
  mul x y := x * y
  div x y := x / y
  neg x := -x
  exp x := 1 + x
  log x := x - 1
  lt x y := x < y
  round4 x := (x * 10000 + 1 / 2).floor / 10000

def sampleService : MemoryService String Rat where
  arith := rationalArith
  embed text model := if model = "small" then some text else none
  distance a b := if a = b then 0 else 1
  distinct models := models.dedup
  mem_distinct _ _ := List.mem_dedup
  nodup_distinct _ := List.nodup_dedup _
  sha256 text := text
  security := .bypassed
  defaultEmbeddingModel := "small"
  annCandidateLimit := 50
  recencyHalfLifeDays := 30
  queryCacheTtl := 300000000
  compressionThreshold := 7 * 86400000000
  compressionBatchSize := 100

def sampleTenant : Uuid := .nil

def sampleItem (digit : Fin 16) (content : String) : MemoryItemORM String where
  id := .repdigit digit
  tenantId := sampleTenant
  memoryType := .semantic
  content := content
  embedding := content
  embeddingModel := "small"
  accessedAt := 0
  createdAt := 0

end Sutram.Memory
