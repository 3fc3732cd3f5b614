/-
What a search restricted to memory types may return.

Every statement of the searcher names the tenant and one embedding model, and the
statement on the items names the types too.  The one on the summaries does not: a summary
is taken for an episodic memory whatever the caller asks for.
-/
import Sutram.Memory.TopResults

namespace Sutram.Memory

open Sutram.Core

variable {V R : Type} {svc : MemoryService V R} {now : Nat} {query : String} {tenantId : Uuid}
  {types : List String} {model : String} {qvec : V} {db : MemoryDb V} {c : CandidateRow R}

/-! ## Candidates -/

/-- An uncompressed item of the tenant, compared with the query under its own model. -/
def OfItem (svc : MemoryService V R) (query : String) (tenantId : Uuid) (db : MemoryDb V)
    (c : CandidateRow R) : Prop :=
  ∃ item ∈ db.items.rows, ∃ qvec, item.tenantId = tenantId ∧ item.compressed = false ∧
    svc.embed query item.embeddingModel = some qvec ∧ c = item.candidate svc qvec

/-- A summary of the tenant, compared with the query under its own model. -/
def OfSummary (svc : MemoryService V R) (query : String) (tenantId : Uuid) (db : MemoryDb V)
    (c : CandidateRow R) : Prop :=
  ∃ summary ∈ db.summaries.rows, ∃ qvec, summary.tenantId = tenantId ∧
    svc.embed query summary.embeddingModel = some qvec ∧ c = summary.candidate svc qvec

/-- Every search for the types returns candidates of the types only, each of them an
uncompressed item or a summary. -/
def ReturnsTyped (svc : MemoryService V R) (now : Nat) (query : String) (tenantId : Uuid)
    (types : List String) (db : MemoryDb V) : Prop :=
  ∀ topK found, (search svc now query tenantId topK (some types)).run db = some found →
    ∀ sc ∈ found, (OfItem svc query tenantId db sc.candidate ∨
      OfSummary svc query tenantId db sc.candidate) ∧ sc.candidate.memoryType ∈ types

theorem mem_of_nearest {ρ : Type} {embedding : ρ → V} {lim : Nat} {rows : List ρ} {r : ρ}
    (h : r ∈ nearest svc embedding qvec lim rows) : r ∈ rows :=
  (List.mem_insertionSort _).mp (List.mem_of_mem_take h)

theorem exists_mem_nearest {ρ : Type} {embedding : ρ → V} {lim : Nat} {rows : List ρ}
    (hlim : lim ≠ 0) (h : rows ≠ []) : ∃ r, r ∈ nearest svc embedding qvec lim rows := by
  refine List.exists_mem_of_ne_nil _ fun hnil => ?_
  rcases List.take_eq_nil_iff.mp hnil with hzero | hsorted
  · exact hlim hzero
  · have hlength := congrArg List.length hsorted
    rw [List.length_insertionSort] at hlength
    exact h (List.length_eq_zero_iff.mp hlength)

theorem ofItem_of_mem (hembed : svc.embed query model = some qvec)
    (h : c ∈ itemCandidates svc tenantId types model qvec db) :
    OfItem svc query tenantId db c ∧ c.memoryType ∈ types := by
  obtain ⟨item, hitem, rfl⟩ := List.mem_map.mp h
  obtain ⟨hrow, hwhere⟩ := List.mem_filter.mp (mem_of_nearest hitem)
  simp only [Bool.and_eq_true, decide_eq_true_eq, List.contains_iff_mem] at hwhere
  obtain ⟨⟨⟨htenant, hactive⟩, htype⟩, rfl⟩ := hwhere
  exact ⟨⟨item, hrow, qvec, htenant, hactive, hembed, rfl⟩, htype⟩

theorem ofSummary_of_mem (hembed : svc.embed query model = some qvec)
    (h : c ∈ summaryCandidates svc tenantId model qvec db) :
    OfSummary svc query tenantId db c := by
  obtain ⟨summary, hsummary, rfl⟩ := List.mem_map.mp h
  obtain ⟨hrow, hwhere⟩ := List.mem_filter.mp (mem_of_nearest hsummary)
  simp only [Bool.and_eq_true, decide_eq_true_eq] at hwhere
  obtain ⟨htenant, rfl⟩ := hwhere
  exact ⟨summary, hrow, qvec, htenant, hembed, rfl⟩

theorem OfSummary.memoryType (h : OfSummary svc query tenantId db c) :
    c.memoryType = "episodic" := by
  obtain ⟨summary, -, qvec, -, -, rfl⟩ := h
  rfl

/-! ## The two passes -/

/-- The candidates of one pass are those of its models. -/
theorem mem_run_pass {models : List String} {f : String → V → MemoryDb V → List (CandidateRow R)}
    {cs : List (CandidateRow R)}
    (h : (Reading.collect (fun model => do
        let qvec ← .ofOption (svc.embed query model)
        .get (f model qvec)) models).run db = some cs) :
    c ∈ cs ↔ ∃ model ∈ models, ∃ qvec, svc.embed query model = some qvec ∧ c ∈ f model qvec db := by
  rw [Reading.mem_run_collect h]
  refine exists_congr fun model => and_congr_right fun _ => ?_
  cases svc.embed query model <;> simp

theorem mem_gather {memoryTypes : Option (List String)} {cs : List (CandidateRow R)}
    (h : (gather svc query tenantId memoryTypes).run db = some cs) :
    c ∈ cs ↔
      (∃ model ∈ itemModels svc tenantId db, ∃ qvec, svc.embed query model = some qvec ∧
          c ∈ itemCandidates svc tenantId (typeFilter memoryTypes) model qvec db) ∨
        ∃ model ∈ summaryModels svc tenantId db, ∃ qvec, svc.embed query model = some qvec ∧
          c ∈ summaryCandidates svc tenantId model qvec db := by
  simp only [gather, Reading.run_bind, Reading.run_get, Option.bind_some,
    Option.bind_eq_some_iff, Reading.run_pure, Option.some.injEq] at h
  obtain ⟨items, hitems, summaries, hsummaries, rfl⟩ := h
  rw [List.mem_append, mem_run_pass hitems, mem_run_pass hsummaries]

theorem typeFilter_of_ne_nil (h : types ≠ []) : typeFilter (some types) = types := by
  cases types with
  | nil => exact absurd rfl h
  | cons type types => rfl

/-- Every candidate is an item of the types or a summary. -/
theorem typed_of_mem_gather (htypes : types ≠ []) {cs : List (CandidateRow R)}
    (h : (gather svc query tenantId (some types)).run db = some cs) (hc : c ∈ cs) :
    (OfItem svc query tenantId db c ∧ c.memoryType ∈ types) ∨
      OfSummary svc query tenantId db c ∧ svc.annCandidateLimit / 2 ≠ 0 := by
  rcases (mem_gather h).mp hc with ⟨model, -, qvec, hqvec, hmem⟩ | ⟨model, -, qvec, hqvec, hmem⟩
  · rw [typeFilter_of_ne_nil htypes] at hmem
    exact .inl (ofItem_of_mem hqvec hmem)
  · refine .inr ⟨ofSummary_of_mem hqvec hmem, fun hlim => ?_⟩
    rw [summaryCandidates, hlim] at hmem
    cases hmem

/-- A tenant that has summaries has one among the candidates. -/
theorem exists_ofSummary {memoryTypes : Option (List String)} {cs : List (CandidateRow R)}
    (h : (gather svc query tenantId memoryTypes).run db = some cs)
    (hlim : svc.annCandidateLimit / 2 ≠ 0) {summary : MemorySummaryORM V}
    (hsummary : summary ∈ db.summaries.rows) (htenant : summary.tenantId = tenantId) :
    ∃ c ∈ cs, OfSummary svc query tenantId db c := by
  have hmodel : summary.embeddingModel ∈ summaryModels svc tenantId db := by
    refine (svc.mem_distinct _ _).mpr (List.mem_map_of_mem (List.mem_filter.mpr ?_))
    exact ⟨hsummary, decide_eq_true htenant⟩
  have hembeds : Embeds svc query tenantId db :=
    (isSome_gather query memoryTypes).mp (by rw [h]; rfl)
  obtain ⟨qvec, hqvec⟩ :=
    Option.isSome_iff_exists.mp (hembeds _ (List.mem_append_right _ hmodel))
  obtain ⟨row, hrow⟩ : ∃ row, row ∈ nearest svc MemorySummaryORM.embedding qvec
      (svc.annCandidateLimit / 2) (db.summaries.select fun s => s.tenantId = tenantId &&
        s.embeddingModel = summary.embeddingModel) := by
    refine exists_mem_nearest hlim (List.ne_nil_of_mem (List.mem_filter.mpr ⟨hsummary, ?_⟩))
    simp [htenant]
  have hmem : row.candidate svc qvec ∈ summaryCandidates svc tenantId summary.embeddingModel qvec
      db := List.mem_map_of_mem hrow
  exact ⟨_, (mem_gather h).mpr (.inr ⟨_, hmodel, qvec, hqvec, hmem⟩), ofSummary_of_mem hqvec hmem⟩

/-! ## What is returned -/

theorem mem_of_sliceTo {α : Type} {xs : List α} {k : Int} {x : α} (h : x ∈ sliceTo xs k) :
    x ∈ xs := by
  cases k with
  | ofNat k => exact List.mem_of_mem_take h
  | negSucc k => exact List.mem_of_mem_take h

theorem mem_ranking {ar : Arith R} {halfLifeDays : R} {cs : List (CandidateRow R)}
    {sc : ScoredCandidate R} (h : sc ∈ ranking ar now halfLifeDays cs) : sc.candidate ∈ cs := by
  obtain ⟨c, hc, rfl⟩ := List.mem_map.mp ((List.mem_insertionSort _).mp h)
  exact hc

/-- A search that asks for enough returns every candidate. -/
theorem exists_search (now : Nat) {memoryTypes : Option (List String)} {cs : List (CandidateRow R)}
    (h : (gather svc query tenantId memoryTypes).run db = some cs) :
    ∃ topK found, (search svc now query tenantId topK memoryTypes).run db = some found ∧
      ∀ c ∈ cs, ∃ sc ∈ found, sc.candidate = c := by
  have hrank : (ranking svc.arith now svc.recencyHalfLifeDays cs).length = cs.length := by
    rw [ranking, List.length_insertionSort, List.length_map]
  refine ⟨cs.length, ranking svc.arith now svc.recencyHalfLifeDays cs, ?_, fun c hc => ?_⟩
  · rw [run_search, h, Option.map_some]
    exact congrArg some (List.take_of_length_le hrank.le)
  · refine ⟨⟨score svc.arith now svc.recencyHalfLifeDays c, c⟩, ?_, rfl⟩
    exact (List.mem_insertionSort _).mpr (List.mem_map_of_mem hc)

/-- The candidates that a search returns are of the types it is asked for when episodic
memories are, or when the tenant has no summaries to return. -/
theorem search_returns_types_iff (svc : MemoryService V R) (now : Nat) (query : String)
    (tenantId : Uuid) {types : List String} (db : MemoryDb V) (htypes : types ≠ []) :
    ReturnsTyped svc now query tenantId types db ↔
      "episodic" ∈ types ∨ (∀ summary ∈ db.summaries.rows, summary.tenantId ≠ tenantId) ∨
        svc.annCandidateLimit / 2 = 0 ∨ ¬ Embeds svc query tenantId db := by
  constructor
  · intro htyped
    by_contra hnot
    push Not at hnot
    obtain ⟨htype, ⟨summary, hsummary, htenant⟩, hlim, hembeds⟩ := hnot
    obtain ⟨cs, hcs⟩ := Option.isSome_iff_exists.mp
      ((isSome_gather query (some types)).mpr hembeds)
    obtain ⟨c, hc, hfrom⟩ := exists_ofSummary hcs hlim hsummary htenant
    obtain ⟨topK, returned, hreturned, hall⟩ := exists_search now hcs
    obtain ⟨sc, hsc, rfl⟩ := hall c hc
    have hreturned := (htyped topK returned hreturned sc hsc).2
    rw [hfrom.memoryType] at hreturned
    exact htype hreturned
  · intro hcondition topK found hfound sc hsc
    rw [run_search, Option.map_eq_some_iff] at hfound
    obtain ⟨cs, hcs, rfl⟩ := hfound
    have hembeds := (isSome_gather query (some types)).mp (by rw [hcs]; rfl)
    rcases typed_of_mem_gather htypes hcs (mem_ranking (mem_of_sliceTo hsc)) with
      ⟨hitem, htype⟩ | ⟨hsummary, hlim⟩
    · exact ⟨.inl hitem, htype⟩
    · refine ⟨.inr hsummary, ?_⟩
      rw [hsummary.memoryType]
      rcases hcondition with htype | hnone | hzero | hnot
      · exact htype
      · obtain ⟨summary, hrow, -, htenant, -⟩ := hsummary
        exact absurd htenant (hnone summary hrow)
      · exact absurd hzero hlim
      · exact absurd hembeds hnot

/-! ## A search for semantic memories -/

/-- The summary comes first, and it is the one candidate returned. -/
theorem episodic_returned_for_semantic :
    ((search sampleService 0 "coffee" sampleTenant 1 (some ["semantic"])).run mixedDb).map
        (fun found => found.map fun sc => (sc.candidate.content, sc.candidate.memoryType)) =
        some [("coffee", "episodic")] ∧
      ¬ ReturnsTyped sampleService 0 "coffee" sampleTenant ["semantic"] mixedDb := by
  have hrun : ((search sampleService 0 "coffee" sampleTenant 1 (some ["semantic"])).run
      mixedDb).map (fun found => found.map fun sc =>
        (sc.candidate.content, sc.candidate.memoryType)) = some [("coffee", "episodic")] := by
    decide +kernel
  refine ⟨hrun, fun htyped => ?_⟩
  obtain ⟨found, hfound, hcandidates⟩ := Option.map_eq_some_iff.mp hrun
  obtain ⟨sc, rest, rfl, hsc, -⟩ := List.map_eq_cons_iff.mp hcandidates
  have htype := (htyped 1 _ hfound sc List.mem_cons_self).2
  have hepisodic : sc.candidate.memoryType = "episodic" := congrArg Prod.snd hsc
  rw [hepisodic] at htype
  exact absurd htype (by decide)

/-- Of an item and a summary, with episodic memories asked for. -/
theorem types_returned_with_episodic :
    ReturnsTyped sampleService 0 "coffee" sampleTenant ["semantic", "episodic"] mixedDb :=
  (search_returns_types_iff sampleService 0 "coffee" sampleTenant mixedDb (by decide)).mpr
    (.inl (by decide))

end Sutram.Memory
