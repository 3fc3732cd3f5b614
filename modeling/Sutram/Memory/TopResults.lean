/-
What a search on a cold cache returns of the ranked candidates.

The route reads the rows of the first `top_k` candidates from `memory_items` alone, so
that a summary takes a place and is then dropped, and it slices with the `top_k` it was
given, so that a negative one cuts candidates off the end.
-/
import Sutram.Memory.SearchRoute

namespace Sutram.Memory

open Sutram.Core

variable {V R : Type} {svc : MemoryService V R} {now : Nat} {tenantId : Uuid}
  {body : MemorySearchRequest} {db : MemoryDb V}

/-- The result shows the candidate. -/
structure Presents (ar : Arith R) (r : MemorySearchResult R) (c : ScoredCandidate R) : Prop where
  id : r.item.id = c.candidate.id
  content : r.item.content = c.candidate.content
  score : r.score = ar.round4 c.score
  similarity : r.similarity = c.candidate.similarity

/-- The search returns the first `max(top_k, 0)` candidates, in order. -/
def ReturnsTop (svc : MemoryService V R) (now : Nat) (tenantId : Uuid) (body : MemorySearchRequest)
    (db : MemoryDb V) : Prop :=
  ∃ response cache, searchMemory svc now tenantId body db (fun _ => none) = some (response, cache) ∧
    List.Forall₂ (Presents svc.arith) response.results
      ((ranked svc now tenantId body db).take (max body.topK 0).toNat)

/-- The candidate is an item, with this id and content. -/
def IsItem (svc : MemoryService V R) (tenantId : Uuid) (db : MemoryDb V) (c : ScoredCandidate R) :
    Prop :=
  ∃ item, itemOf svc tenantId db c = some item ∧ item.content = c.candidate.content

/-- As many results as there are candidates to return. -/
theorem ReturnsTop.length (h : ReturnsTop svc now tenantId body db) :
    (searchMemory svc now tenantId body db fun _ => none).map (fun r => r.1.results.length) =
      some (min (max body.topK 0).toNat (ranked svc now tenantId body db).length) := by
  obtain ⟨response, cache, hrun, htop⟩ := h
  rw [hrun, Option.map_some, htop.length_eq, List.length_take]

/-! ## Dropped candidates -/

theorem forall₂_filterMap_iff {α β : Type} {P : β → α → Prop} {f : α → Option β} {l : List α} :
    List.Forall₂ P (l.filterMap f) l ↔ ∀ a ∈ l, ∃ b, f a = some b ∧ P b a := by
  constructor
  · intro h
    have hlength := h.length_eq
    rw [List.filterMap_length_eq_length] at hlength
    induction l with
    | nil => simp
    | cons a l ih =>
      obtain ⟨b, hb⟩ := Option.isSome_iff_exists.mp (hlength a List.mem_cons_self)
      rw [List.filterMap_cons, hb, List.forall₂_cons] at h
      rw [List.forall_mem_cons]
      exact ⟨⟨b, hb, h.1⟩, ih h.2 fun c hc => hlength c (List.mem_cons_of_mem _ hc)⟩
  · intro h
    induction l with
    | nil => exact .nil
    | cons a l ih =>
      obtain ⟨⟨b, hb, hP⟩, hl⟩ := List.forall_mem_cons.mp h
      rw [List.filterMap_cons, hb]
      exact .cons hP (ih hl)

theorem itemOf_id {c : ScoredCandidate R} {item : MemoryItemORM V}
    (h : itemOf svc tenantId db c = some item) : item.id = c.candidate.id := by
  have hfound := Table.of_find? h
  simp only [Bool.and_eq_true, decide_eq_true_eq] at hfound
  exact hfound.1

/-- A row read again shows its candidate when the candidate is an item. -/
theorem presents_iff {c : ScoredCandidate R} :
    (∃ r, (itemOf svc tenantId db c).map (.ofRow svc.arith c) = some r ∧
        Presents svc.arith r c) ↔ IsItem svc tenantId db c := by
  constructor
  · rintro ⟨r, hr, hpresents⟩
    obtain ⟨item, hitem, rfl⟩ := Option.map_eq_some_iff.mp hr
    exact ⟨item, hitem, hpresents.content⟩
  · rintro ⟨item, hitem, hcontent⟩
    refine ⟨.ofRow svc.arith c item, by rw [hitem]; rfl, ?_⟩
    exact { id := itemOf_id hitem, content := hcontent, score := rfl, similarity := rfl }

/-! ## When the results are the first of the ranking -/

/-- The results are the first `max(top_k, 0)` of the ranked candidates exactly when the
query can be embedded and, for `top_k` from zero on, every one of these candidates is an
item, for a negative `top_k`, none of those left by the slice is. -/
theorem search_returns_top_iff (svc : MemoryService V R) (now : Nat) (tenantId : Uuid)
    (body : MemorySearchRequest) (db : MemoryDb V) :
    ReturnsTop svc now tenantId body db ↔
      Embeds svc body.query tenantId db ∧
        if 0 ≤ body.topK then
          ∀ c ∈ (ranked svc now tenantId body db).take body.topK.toNat, IsItem svc tenantId db c
        else
          ∀ c ∈ sliceTo (ranked svc now tenantId body db) body.topK,
            itemOf svc tenantId db c = none := by
  by_cases hembeds : Embeds svc body.query tenantId db
  · have hroute : ReturnsTop svc now tenantId body db ↔
        List.Forall₂ (Presents svc.arith)
          ((sliceTo (ranked svc now tenantId body db) body.topK).filterMap fun c =>
            (itemOf svc tenantId db c).map (.ofRow svc.arith c))
          ((ranked svc now tenantId body db).take (max body.topK 0).toNat) := by
      simp only [ReturnsTop, searchMemory, run_uncached hembeds]
      simp
    rw [hroute, and_iff_right hembeds]
    cases htop : body.topK with
    | ofNat k =>
      have h0 : (0 : Int) ≤ Int.ofNat k := Int.natCast_nonneg k
      have hcut : (max (Int.ofNat k) 0).toNat = k := by
        rw [max_eq_left h0]
        rfl
      rw [if_pos h0, hcut]
      show List.Forall₂ _ (((ranked svc now tenantId body db).take k).filterMap _) _ ↔
        ∀ c ∈ (ranked svc now tenantId body db).take k, _
      rw [forall₂_filterMap_iff]
      exact forall₂_congr fun c _ => presents_iff
    | negSucc k =>
      have hcut : (max (Int.negSucc k) 0).toNat = 0 := by
        rw [max_eq_right (Int.negSucc_lt_zero k).le]
        rfl
      rw [if_neg (by simp), hcut, List.take_zero, List.forall₂_nil_right_iff,
        List.filterMap_eq_nil_iff]
      exact forall₂_congr fun c _ => Option.map_eq_none_iff
  · refine iff_of_false ?_ fun h => hembeds h.1
    rintro ⟨response, cache, hrun, -⟩
    simp [searchMemory, run_uncached_eq_none hembeds] at hrun

/-! ## A summary in first place -/

/-- A summary for "coffee". -/
def coffeeSummary : MemorySummaryORM String where
  id := .repdigit 2
  tenantId := sampleTenant
  summary := "coffee"
  originalIds := [.repdigit 3]
  embedding := "coffee"
  embeddingModel := "small"
  createdAt := 0

def mixedDb : MemoryDb String where
  items := ⟨[sampleItem 1 "tea"], by decide⟩
  summaries := ⟨[coffeeSummary], by decide⟩

/-- One result is asked for, the better of two candidates is the summary, and nothing is
returned.  With `top_k` set to -1 a result is returned. -/
theorem summary_takes_place_of_item :
    (ranked sampleService 0 sampleTenant ⟨"coffee", 1, none⟩ mixedDb).map
        (fun c => c.candidate.content) = ["coffee", "tea"] ∧
      (searchMemory sampleService 0 sampleTenant ⟨"coffee", 1, none⟩ mixedDb fun _ => none).map
        (fun r => r.1.results) = some [] ∧
      ¬ ReturnsTop sampleService 0 sampleTenant ⟨"coffee", 1, none⟩ mixedDb ∧
      (searchMemory sampleService 0 sampleTenant ⟨"tea", -1, none⟩ mixedDb fun _ => none).map
        (fun r => r.1.results.map fun result => result.item.content) = some ["tea"] ∧
      ¬ ReturnsTop sampleService 0 sampleTenant ⟨"tea", -1, none⟩ mixedDb := by
  refine ⟨by decide +kernel, by decide +kernel, ?_, by decide +kernel, ?_⟩
  · intro h
    exact absurd h.length (by decide +kernel)
  · intro h
    exact absurd h.length (by decide +kernel)

end Sutram.Memory
