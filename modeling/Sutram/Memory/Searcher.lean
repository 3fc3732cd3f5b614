/-
The searcher and its reranker.

Candidates are read from `memory_items` and `memory_summaries` with one statement for
each embedding model, scored, sorted and cut.  Every statement reads the database anew.
All of them name the tenant, so that row-level security hides nothing from them.
-/
import Mathlib.Data.List.Sort
import Sutram.Library.Reading
import Sutram.Memory.Models

namespace Sutram.Memory

open Sutram.Core

variable {V R : Type}

/-! ## Reranker -/

structure CandidateRow (R : Type) where
  id : Uuid
  content : String
  metadata : List (String × Json)
  embeddingModel : String
  accessedAt : Nat
  accessCount : Nat
  similarity : R
  memoryType : String := "episodic"

structure ScoredCandidate (R : Type) where
  score : R
  candidate : CandidateRow R

/-- A half-life of `none` is infinite.  A quotient by infinity is zero. -/
def recencyScore (ar : Arith R) (now accessedAt : Nat) (halfLifeDays : Option R) : R :=
  let totalSeconds : Rat := ((now : Int) - (accessedAt : Int) : Int) / 1000000
  let ageDays := ar.div (ar.lit totalSeconds) (ar.lit 86400)
  match halfLifeDays with
  | some days => ar.exp (ar.div (ar.mul (ar.neg ageDays) (ar.log (ar.lit 2))) days)
  | none => ar.exp (ar.lit 0)

/-- `_TYPE_HALF_LIFE.get(memory_type, half_life_days)` -/
def typeHalfLife (ar : Arith R) (memoryType : String) (halfLifeDays : R) : Option R :=
  match memoryType with
  | "episodic" => some (ar.lit 30)
  | "semantic" => none
  | "procedural" => none
  | _ => some halfLifeDays

/-- `min(math.log(access_count + 1), _FREQ_CAP)` -/
def frequency (ar : Arith R) (accessCount : Nat) : R :=
  let freq := ar.log (ar.lit (accessCount + 1 : Nat))
  if ar.lt (ar.lit 2) freq then ar.lit 2 else freq

def score (ar : Arith R) (now : Nat) (halfLifeDays : R) (c : CandidateRow R) : R :=
  let rec_ := recencyScore ar now c.accessedAt (typeHalfLife ar c.memoryType halfLifeDays)
  let freq := frequency ar c.accessCount
  ar.add (ar.add (ar.mul c.similarity (ar.lit (6 / 10))) (ar.mul rec_ (ar.lit (3 / 10))))
    (ar.mul freq (ar.lit (1 / 10)))

/-- The candidates with their scores, best first.  The sort is stable. -/
def ranking (ar : Arith R) (now : Nat) (halfLifeDays : R) (candidates : List (CandidateRow R)) :
    List (ScoredCandidate R) :=
  (candidates.map fun c => ⟨score ar now halfLifeDays c, c⟩).insertionSort
    fun a b => ar.lt a.score b.score = false

/-- `xs[:k]`: a negative `k` counts from the end. -/
def sliceTo {α : Type} (xs : List α) : Int → List α
  | .ofNat k => xs.take k
  | .negSucc k => xs.take (xs.length - (k + 1))

def rerank (ar : Arith R) (now : Nat) (candidates : List (CandidateRow R)) (topK : Int)
    (halfLifeDays : R) : List (ScoredCandidate R) :=
  sliceTo (ranking ar now halfLifeDays candidates) topK

/-! ## Statements -/

/-- `ORDER BY embedding <=> q.qvec LIMIT :lim` -/
def nearest {ρ : Type} (svc : MemoryService V R) (embedding : ρ → V) (qvec : V) (lim : Nat)
    (rows : List ρ) : List ρ :=
  (rows.insertionSort fun a b =>
    svc.arith.lt (svc.distance (embedding b) qvec) (svc.distance (embedding a) qvec) = false).take
    lim

/-- `1 - (embedding <=> q.qvec)` -/
def similarity (svc : MemoryService V R) (embedding qvec : V) : R :=
  svc.arith.sub (svc.arith.lit 1) (svc.distance embedding qvec)

def MemoryItemORM.candidate (svc : MemoryService V R) (qvec : V) (item : MemoryItemORM V) :
    CandidateRow R where
  id := item.id
  content := item.content
  metadata := item.extraMetadata
  embeddingModel := item.embeddingModel
  accessedAt := item.accessedAt
  accessCount := item.accessCount
  similarity := similarity svc item.embedding qvec
  memoryType := item.memoryType.value

def MemorySummaryORM.candidate (svc : MemoryService V R) (qvec : V)
    (summary : MemorySummaryORM V) : CandidateRow R where
  id := summary.id
  content := summary.summary
  metadata := []
  embeddingModel := summary.embeddingModel
  accessedAt := summary.createdAt
  accessCount := 0
  similarity := similarity svc summary.embedding qvec

def itemModels (svc : MemoryService V R) (tenantId : Uuid) (db : MemoryDb V) : List String :=
  svc.distinct
    ((db.items.select fun item => item.tenantId = tenantId && item.compressed = false).map
      MemoryItemORM.embeddingModel)

def itemCandidates (svc : MemoryService V R) (tenantId : Uuid) (types : List String)
    (model : String) (qvec : V) (db : MemoryDb V) : List (CandidateRow R) :=
  (nearest svc MemoryItemORM.embedding qvec svc.annCandidateLimit
    (db.items.select fun item =>
      item.tenantId = tenantId && item.compressed = false &&
        types.contains item.memoryType.value && item.embeddingModel = model)).map
    (MemoryItemORM.candidate svc qvec)

def summaryModels (svc : MemoryService V R) (tenantId : Uuid) (db : MemoryDb V) : List String :=
  svc.distinct
    ((db.summaries.select fun summary => summary.tenantId = tenantId).map
      MemorySummaryORM.embeddingModel)

def summaryCandidates (svc : MemoryService V R) (tenantId : Uuid) (model : String) (qvec : V)
    (db : MemoryDb V) : List (CandidateRow R) :=
  (nearest svc MemorySummaryORM.embedding qvec (svc.annCandidateLimit / 2)
    (db.summaries.select fun summary =>
      summary.tenantId = tenantId && summary.embeddingModel = model)).map
    (MemorySummaryORM.candidate svc qvec)

/-! ## Search -/

/-- `memory_types or ["episodic", "semantic", "procedural"]` -/
def typeFilter : Option (List String) → List String
  | none | some [] => ["episodic", "semantic", "procedural"]
  | some types => types

/-- The candidates of all models: items first, then summaries. -/
def gather (svc : MemoryService V R) (query : String) (tenantId : Uuid)
    (memoryTypes : Option (List String)) : Reading (MemoryDb V) (List (CandidateRow R)) := do
  let models ← .get (itemModels svc tenantId)
  let items ← .collect (fun model => do
    let qvec ← .ofOption (svc.embed query model)
    .get (itemCandidates svc tenantId (typeFilter memoryTypes) model qvec)) models
  let models ← .get (summaryModels svc tenantId)
  let summaries ← .collect (fun model => do
    let qvec ← .ofOption (svc.embed query model)
    .get (summaryCandidates svc tenantId model qvec)) models
  return items ++ summaries

/-- What a search finds at one of its statements, among other requests: the rows that are
committed by then, and the answers of the embedder. -/
structure Backends (V : Type) where
  db : MemoryDb V
  embed : String → String → Option V

/-- The candidates of one model.  The embedder is called before the statement. -/
def candidatesOf (query model : String)
    (statement : String → V → MemoryDb V → List (CandidateRow R)) :
    Reading (Backends V) (List (CandidateRow R)) :=
  .read fun b =>
    match b.embed query model with
    | some qvec => .done (statement model qvec b.db)
    | none => .failed

/-- The same candidates, among other requests. -/
def gatherLive (svc : MemoryService V R) (query : String) (tenantId : Uuid)
    (memoryTypes : Option (List String)) : Reading (Backends V) (List (CandidateRow R)) := do
  let models ← .get fun b => itemModels svc tenantId b.db
  let items ← .collect (fun model => candidatesOf query model
    (itemCandidates svc tenantId (typeFilter memoryTypes))) models
  let models ← .get fun b => summaryModels svc tenantId b.db
  let summaries ← .collect (fun model => candidatesOf query model
    (summaryCandidates svc tenantId)) models
  return items ++ summaries

/-- While nothing else happens it is the same. -/
theorem run_gatherLive (svc : MemoryService V R) (query : String) (tenantId : Uuid)
    (memoryTypes : Option (List String)) (db : MemoryDb V) :
    (gatherLive svc query tenantId memoryTypes).run ⟨db, svc.embed⟩ =
      (gather svc query tenantId memoryTypes).run db := by
  have hpass (f : String → V → MemoryDb V → List (CandidateRow R)) (models : List String) :
      (Reading.collect (fun model => candidatesOf query model f) models).run ⟨db, svc.embed⟩ =
        (Reading.collect (fun model => do
          let qvec ← .ofOption (svc.embed query model)
          .get (f model qvec)) models).run db := by
    induction models with
    | nil => rfl
    | cons model models ih =>
      simp only [Reading.collect, Reading.run_bind, ih]
      congr 1
      simp only [candidatesOf, Reading.run]
      cases svc.embed query model <;> rfl
  simp only [gatherLive, gather, Reading.run_bind, Reading.run_get, Option.bind_some, hpass]
  rfl

/-- `Searcher.search` -/
def search (svc : MemoryService V R) (now : Nat) (query : String) (tenantId : Uuid) (topK : Int)
    (memoryTypes : Option (List String)) : Reading (MemoryDb V) (List (ScoredCandidate R)) := do
  let allCandidates ← gather svc query tenantId memoryTypes
  if allCandidates.isEmpty then return []
  else return rerank svc.arith now allCandidates topK svc.recencyHalfLifeDays

end Sutram.Memory
