/-
The tables and the schemas of the memory service.

Times are microseconds.  `R` is the type of the floats that distances and scores are,
with the operations the service uses, and `V` that of the embedding vectors.  The
`updated_at` column, which nothing here reads, is left out.
-/
import Sutram.Core.Json
import Sutram.Core.Models
import Sutram.Core.RowSecurity
import Sutram.Library.Table

namespace Sutram.Memory

open Sutram.Core

/-! ## Rows -/

/-- `memory_type` is TEXT with a check that it is one of the three. -/
structure MemoryItemORM (V : Type) where
  id : Uuid
  tenantId : Uuid
  memoryType : MemoryType
  content : String
  embedding : V
  embeddingModel : String
  extraMetadata : List (String × Json) := []
  accessedAt : Nat
  accessCount : Nat := 0
  retentionPolicy : String := "90d"
  compressed : Bool := false
  createdAt : Nat
deriving DecidableEq

structure MemorySummaryORM (V : Type) where
  id : Uuid
  tenantId : Uuid
  summary : String
  originalIds : List Uuid := []
  embedding : V
  embeddingModel : String
  createdAt : Nat
deriving DecidableEq

structure MemoryDb (V : Type) where
  items : Table fun item : MemoryItemORM V => item.id := .empty
  summaries : Table fun summary : MemorySummaryORM V => summary.id := .empty

/-! ## What the service is built on -/

/-- The floating-point operations of the reranker and of pgvector. -/
structure Arith (R : Type) where
  lit : Rat → R
  add : R → R → R
  sub : R → R → R
  mul : R → R → R
  div : R → R → R
  neg : R → R
  exp : R → R
  log : R → R
  lt : R → R → Bool
  /-- `round(x, 4)` -/
  round4 : R → R

/-- The settings of the service, and the code it calls. -/
structure MemoryService (V R : Type) where
  arith : Arith R
  /-- what `Embedder.embed(text, model)` answers, `none` where it raises; with its cache it is
  in Memory/SharedEmbedder -/
  embed : String → String → Option V
  /-- the operator `<=>` of pgvector -/
  distance : V → V → R
  /-- SELECT DISTINCT, which promises no order -/
  distinct : List String → List String
  mem_distinct : ∀ model models, model ∈ distinct models ↔ model ∈ models
  nodup_distinct : ∀ models, (distinct models).Nodup
  /-- `hashlib.sha256(text.encode()).hexdigest()` -/
  sha256 : String → String
  security : RowSecurity
  defaultEmbeddingModel : String
  annCandidateLimit : Nat
  recencyHalfLifeDays : R
  queryCacheTtl : Nat
  compressionThreshold : Nat
  compressionBatchSize : Nat

/-! ## Schemas -/

structure MemoryItemCreate where
  content : String
  memoryType : MemoryType
  extraMetadata : List (String × Json) := []
  retentionPolicy : String := "90d"

structure MemoryItemResponse where
  id : Uuid
  tenantId : Uuid
  memoryType : String
  content : String
  embeddingModel : String
  extraMetadata : List (String × Json)
  createdAt : Nat
  accessedAt : Nat
  accessCount : Nat
  retentionPolicy : String
  compressed : Bool
deriving DecidableEq

/-- `MemoryItemResponse.model_validate(orm_row)` -/
def MemoryItemORM.response {V : Type} (row : MemoryItemORM V) : MemoryItemResponse where
  id := row.id
  tenantId := row.tenantId
  memoryType := row.memoryType.value
  content := row.content
  embeddingModel := row.embeddingModel
  extraMetadata := row.extraMetadata
  createdAt := row.createdAt
  accessedAt := row.accessedAt
  accessCount := row.accessCount
  retentionPolicy := row.retentionPolicy
  compressed := row.compressed

structure MemorySearchRequest where
  query : String
  topK : Int := 5
  memoryTypes : Option (List MemoryType) := none

structure MemorySearchResult (R : Type) where
  item : MemoryItemResponse
  score : R
  similarity : R
deriving DecidableEq

/-- `latency_ms` is left out. -/
structure MemorySearchResponse (R : Type) where
  results : List (MemorySearchResult R)
  cacheHit : Bool
deriving DecidableEq

end Sutram.Memory
