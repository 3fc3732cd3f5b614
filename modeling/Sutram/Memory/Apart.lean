/-
No session reaches the rows, the keys or the locks of another tenant.

The conditions of most statements name the tenant.  The others, the DELETE of a forget,
the UPDATE of a compression run and the SELECT that reads the rows of the candidates
again, name ids alone; and an id that a session of a tenant knows was drawn by a session
of that tenant, so that the row is the tenant's own.  The keys of the query cache begin
with the tenant.

So what the service is to one tenant is the memory of one tenant: an operation of a
session of the tenant does to its part what it does to a memory of its own, and an
operation of any other session leaves its part as it was.
-/
import Mathlib.Data.Bool.AllAny
import Mathlib.Data.Set.Lattice
import Mathlib.Order.CompletePartialOrder
import Sutram.Memory.Tenants

namespace Sutram.Memory

open Sutram.Core Runs

variable {V R : Type} {svc : MemoryService V R} {t t' : Uuid}

/-! ## Keys -/

theorem isLiteral_of_mem_str {u : Uuid} {c : Char} (h : c ∈ u.str.toList) : Glob.IsLiteral c := by
  have hdigit : ∀ d, Glob.IsLiteral (Hex.digit d) := by decide
  rcases Uuid.mem_str h with rfl | ⟨d, rfl⟩
  · decide
  · exact hdigit d

/-- What the keys of a tenant begin with. -/
def keyPrefix (tenantId : Uuid) : String := "memory:query:" ++ tenantId.str ++ ":"

/-- MATCH lists the keys that begin with the tenant. -/
theorem listed_iff {key : String} : listed t key ↔ (keyPrefix t).toList <+: key.toList := by
  have hpattern : (queryPattern t).toList = (keyPrefix t).toList ++ ['*'] := by
    simp [queryPattern, keyPrefix]
  rw [listed, hpattern, Glob.accepts_prefix]
  intro c hc
  have hfixed : ∀ c ∈ "memory:query:".toList ++ ":".toList, Glob.IsLiteral c :=
    List.all_iff_forall_prop.mp (by decide)
  simp only [keyPrefix, String.toList_append, List.mem_append] at hc
  rcases hc with (hc | hc) | hc
  · exact hfixed c (List.mem_append_left _ hc)
  · exact isLiteral_of_mem_str hc
  · exact hfixed c (List.mem_append_right _ hc)

/-- No key is listed for two tenants. -/
theorem listed_both {key : String} (h : listed t key) (h' : listed t' key) : t = t' :=
  (Uuid.begins_iff (listed_iff.mp h')).mp (listed_iff.mp h)

theorem listed_cacheKey {body : MemorySearchRequest} :
    listed t (cacheKey svc t' body) ↔ t = t' := by
  rw [listed_iff]
  refine Uuid.begins_iff ⟨(svc.sha256 (rawKey body)).toList, ?_⟩
  simp [cacheKey]

/-! ## Statements that name the tenant -/

section Statements

variable (svc) (t) (db : MemoryDb V)

theorem find?_of (p : MemoryItemORM V → Bool) :
    ((db.of t).items.find? fun item => p item && item.tenantId = t) =
      db.items.find? fun item => p item && item.tenantId = t :=
  Table.find?_part fun item _ h => by simp_all

theorem selectForCompression_of (now : Nat) :
    selectForCompression svc t now (db.of t) = selectForCompression svc t now db := by
  rw [selectForCompression, selectForCompression, MemoryDb.of, Table.select_part]
  intro item _ h
  simp_all

theorem itemModels_of : itemModels svc t (db.of t) = itemModels svc t db := by
  rw [itemModels, itemModels, MemoryDb.of, Table.select_part]
  intro item _ h
  simp_all

theorem itemCandidates_of (types : List String) (model : String) (qvec : V) :
    itemCandidates svc t types model qvec (db.of t) = itemCandidates svc t types model qvec db := by
  rw [itemCandidates, itemCandidates, MemoryDb.of, Table.select_part]
  intro item _ h
  simp_all

theorem summaryModels_of : summaryModels svc t (db.of t) = summaryModels svc t db := by
  rw [summaryModels, summaryModels, MemoryDb.of, Table.select_part]
  exact fun _ _ h => h

theorem summaryCandidates_of (model : String) (qvec : V) :
    summaryCandidates svc t model qvec (db.of t) = summaryCandidates svc t model qvec db := by
  rw [summaryCandidates, summaryCandidates, MemoryDb.of, Table.select_part]
  intro summary _ h
  simp_all

end Statements

/-- What is left of a search's surroundings without the rows of other tenants. -/
def Backends.of (b : Backends V) (t : Uuid) : Backends V := { b with db := b.db.of t }

theorem factors_candidatesOf {query model : String}
    {f : String → V → MemoryDb V → List (CandidateRow R)}
    (hf : ∀ qvec db, f model qvec (db.of t) = f model qvec db) :
    (candidatesOf query model f).Factors fun b => b.of t := by
  intro b
  have hof : (b.of t).embed query model = b.embed query model := rfl
  dsimp only
  rw [hof]
  cases b.embed query model with
  | some qvec => exact ⟨congrArg Reading.done (hf qvec b.db), trivial⟩
  | none => exact ⟨rfl, trivial⟩

/-- The searcher reads the rows of the tenant. -/
theorem factors_gatherLive (query : String) (types : Option (List String)) :
    (gatherLive svc query t types).Factors fun b => b.of t := by
  refine (Reading.factors_get fun b => itemModels_of svc t b.db).bind fun models => ?_
  refine (Reading.factors_collect (fun model => ?_) models).bind fun items => ?_
  · exact factors_candidatesOf fun qvec db => itemCandidates_of svc t db _ model qvec
  refine (Reading.factors_get fun b => summaryModels_of svc t b.db).bind fun models => ?_
  refine (Reading.factors_collect (fun model => ?_) models).bind fun summaries => trivial
  exact factors_candidatesOf fun qvec db => summaryCandidates_of svc t db model qvec

/-! ## Whose ids they are -/

/-- Every row has an id that its tenant has drawn. -/
structure Owned (drawn : Set (Uuid × Uuid)) (db : MemoryDb V) : Prop where
  items : ∀ item ∈ db.items.rows, (item.tenantId, item.id) ∈ drawn
  summaries : ∀ summary ∈ db.summaries.rows, (summary.tenantId, summary.id) ∈ drawn

/-- The tenant has drawn the ids of the candidates. -/
def CandidatesOwned (t : Uuid) (drawn : Set (Uuid × Uuid)) (candidates : List (CandidateRow R)) :
    Prop :=
  ∀ c ∈ candidates, (t, c.id) ∈ drawn

/-- The candidates of one statement for each model. -/
theorem holds_pass {f : String → V → MemoryDb V → List (CandidateRow R)}
    (hf : ∀ drawn db, Owned drawn db → ∀ model qvec, CandidatesOwned t drawn (f model qvec db))
    (query : String) (drawn : Set (Uuid × Uuid)) (models : List String) :
    (Reading.collect (fun model => candidatesOf query model f) models).Holds
      (fun drawn b => Owned drawn b.db) (CandidatesOwned t) drawn := by
  refine Reading.holds_collect (q := fun drawn (c : CandidateRow R) => (t, c.id) ∈ drawn)
    (fun hle hc => Set.mem_of_mem_of_subset hc hle) (fun _ _ model => ?_) models
  intro later _ b hb
  dsimp only
  cases b.embed query model with
  | none => trivial
  | some qvec => exact hf later b.db hb model qvec

theorem candidatesOwned_items (drawn : Set (Uuid × Uuid)) (db : MemoryDb V) (h : Owned drawn db)
    (types : List String) (model : String) (qvec : V) :
    CandidatesOwned t drawn (itemCandidates svc t types model qvec db) := by
  intro c hc
  obtain ⟨item, hitem, rfl⟩ := List.mem_map.mp hc
  have hselected := (List.mem_insertionSort _).mp (List.mem_of_mem_take hitem)
  obtain ⟨hrow, hcond⟩ := List.mem_filter.mp hselected
  obtain rfl : item.tenantId = t := by simp_all
  exact h.items item hrow

theorem candidatesOwned_summaries (drawn : Set (Uuid × Uuid)) (db : MemoryDb V)
    (h : Owned drawn db) (model : String) (qvec : V) :
    CandidatesOwned t drawn (summaryCandidates svc t model qvec db) := by
  intro c hc
  obtain ⟨summary, hsummary, rfl⟩ := List.mem_map.mp hc
  have hselected := (List.mem_insertionSort _).mp (List.mem_of_mem_take hsummary)
  obtain ⟨hrow, hcond⟩ := List.mem_filter.mp hselected
  obtain rfl : summary.tenantId = t := by simp_all
  exact h.summaries summary hrow

/-- The candidates are rows of the tenant. -/
theorem holds_gatherLive (drawn : Set (Uuid × Uuid)) (query : String)
    (types : Option (List String)) :
    (gatherLive svc query t types).Holds (fun drawn b => Owned drawn b.db)
      (CandidatesOwned t) drawn := by
  have hmodels {f : Backends V → List String} {now : Set (Uuid × Uuid)} :
      (Reading.get f).Holds (fun drawn b => Owned drawn b.db) (fun _ _ => True) now :=
    Reading.holds_get fun _ _ _ _ => trivial
  refine hmodels.bind fun later _ models _ => ?_
  refine (holds_pass (fun _ db hdb => candidatesOwned_items _ db hdb _) query later models).bind
    fun later _ items hitems => ?_
  refine hmodels.bind fun later hle models _ => ?_
  refine (holds_pass (fun _ db hdb => candidatesOwned_summaries _ db hdb) query later models).bind
    fun later hle' summaries hsummaries => ?_
  exact List.forall_mem_append.mpr ⟨fun c hc => hle' (hle (hitems c hc)), hsummaries⟩

/-- The results show items whose stores the tenant has committed. -/
def ResultsOwned (t : Uuid) (stored : Set (Uuid × Uuid)) (results : List (MemorySearchResult R)) :
    Prop :=
  ∀ r ∈ results, r.item.tenantId = t ∧ (t, r.item.id) ∈ stored

theorem ResultsOwned.mono {stored later : Set (Uuid × Uuid)} {results : List (MemorySearchResult R)}
    (h : ResultsOwned t stored results) (hle : stored ⊆ later) : ResultsOwned t later results :=
  fun r hr => ⟨(h r hr).1, hle (h r hr).2⟩

theorem resultsOwned_nil (stored : Set (Uuid × Uuid)) :
    ResultsOwned t stored ([] : List (MemorySearchResult R)) := fun _ h => by cases h

/-- What a session knows is its tenant's. -/
def WorkOwned (t : Uuid) (drawn stored : Set (Uuid × Uuid)) : Work V R → Prop
  | .written (.stored item) | .scanning (.stored item) _ | .invalidated (.stored item) =>
    item.tenantId = t ∧ (t, item.id) ∈ drawn
  | .written (.forgotten id) | .scanning (.forgotten id) _ | .invalidated (.forgotten id)
  | .deleting id => (t, id) ∈ drawn
  | .gathering _ _ rest =>
    (rest.Factors fun b => b.of t) ∧
      rest.Holds (fun drawn b => Owned drawn b.db) (CandidatesOwned t) drawn
  | .filling _ _ results _ | .answering _ _ results _ => ResultsOwned t stored results
  | .picked items => ∀ item ∈ items, (t, item.id) ∈ drawn
  | .summarised summary =>
    (summary.tenantId = t ∧ (t, summary.id) ∈ drawn) ∧
      ∀ id ∈ summary.originalIds, (t, id) ∈ drawn
  | .marked summary ids =>
    (summary.tenantId = t ∧ (t, summary.id) ∈ drawn) ∧ ∀ id ∈ ids, (t, id) ∈ drawn
  | .touched ids _ => ∀ id ∈ ids, (t, id) ∈ drawn
  | _ => True

theorem WorkOwned.mono {drawn stored drawn' stored' : Set (Uuid × Uuid)} {work : Work V R}
    (h : WorkOwned t drawn stored work) (hdrawn : drawn ⊆ drawn') (hstored : stored ⊆ stored') :
    WorkOwned t drawn' stored' work := by
  cases work with
  | written write | scanning write _ | invalidated write =>
    cases write with
    | stored item => exact ⟨h.1, hdrawn h.2⟩
    | forgotten id => exact hdrawn h
  | deleting id => exact hdrawn h
  | gathering asked known rest =>
    exact ⟨h.1, h.2.mono (fun hle hc c hmem => Set.mem_of_mem_of_subset (hc c hmem) hle) hdrawn⟩
  | filling _ _ results _ | answering _ _ results _ => exact ResultsOwned.mono h hstored
  | picked items => exact fun item hitem => hdrawn (h item hitem)
  | summarised summary => exact ⟨⟨h.1.1, hdrawn h.1.2⟩, fun id hid => hdrawn (h.2 id hid)⟩
  | marked summary ids => exact ⟨⟨h.1.1, hdrawn h.1.2⟩, fun id hid => hdrawn (h.2 id hid)⟩
  | touched ids accessedAt => exact fun id hid => hdrawn (h id hid)
  | _ => trivial

namespace Tenants

/-- The ids drawn, with the tenants that drew them. -/
def owners (w : Tenants V R) : Set (Uuid × Uuid) := {d | d ∈ w.drawn}

/-- The ids of the stores committed, with the tenants that stored. -/
def committed (w : Tenants V R) : Set (Uuid × Uuid) := {d | d.2 ∈ (w.records d.1).stored}

/-- Rows, sessions, the cache and the answers know ids of their own tenant, and an id has
one tenant. -/
structure Apart (w : Tenants V R) : Prop where
  rows : Owned w.owners w.db
  stored : ∀ item ∈ w.db.items.rows, (item.tenantId, item.id) ∈ w.committed
  unique : ∀ {t t' id : Uuid}, (t, id) ∈ w.drawn → (t', id) ∈ w.drawn → t = t'
  works : ∀ t i, WorkOwned t w.owners w.committed (w.sessions t i)
  cache : ∀ e ∈ w.cache, ∀ t, listed t e.key → ResultsOwned t w.committed e.results
  answers : ∀ t, ∀ a ∈ (w.records t).answers, ResultsOwned t w.committed a.results

theorem apart_initial : (initial : Tenants V R).Apart where
  rows := {
    items := fun _ h => by cases h
    summaries := fun _ h => by cases h }
  stored _ h := by cases h
  unique h := by cases h
  works _ _ := trivial
  cache _ h := by cases h
  answers _ _ h := by cases h

end Tenants

end Sutram.Memory
