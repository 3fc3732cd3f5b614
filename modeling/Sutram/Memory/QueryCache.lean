/-
When the query cache answers a request with another request's results.

The key is made of the tenant, the query and the types, and not of `top_k`.  Two
requests with one key have one ranking, and the cached results are those of the
request that wrote them: cut where that request cut.
-/
import Sutram.Memory.SearchRoute

namespace Sutram.Memory

open Sutram.Core

variable {V R : Type} {svc : MemoryService V R} {now : Nat} {tenantId : Uuid}
  {r₁ r₂ : MemorySearchRequest} {db : MemoryDb V}

/-! ## Keys -/

/-- Separators do not occur in the type strings. -/
theorem separators_notMem {memoryTypes : Option (List MemoryType)} {s : String}
    (h : s ∈ typeStrs memoryTypes) : ',' ∉ s.toList ∧ '|' ∉ s.toList := by
  have hvalue (t : MemoryType) : ',' ∉ t.value.toList ∧ '|' ∉ t.value.toList := by
    cases t <;> decide
  have hall : s = "all" ∨ ∃ t : MemoryType, t.value = s := by
    cases memoryTypes with
    | none => exact .inl (List.mem_singleton.mp h)
    | some types =>
      cases types with
      | nil => exact .inl (List.mem_singleton.mp h)
      | cons t ts =>
        obtain ⟨u, -, hu⟩ := List.mem_map.mp ((List.mem_insertionSort _).mp h)
        exact .inr ⟨u, hu⟩
  rcases hall with rfl | ⟨t, rfl⟩
  · decide
  · exact hvalue t

theorem typeStrs_ne_nil (memoryTypes : Option (List MemoryType)) : typeStrs memoryTypes ≠ [] := by
  cases memoryTypes with
  | none => simp [typeStrs]
  | some types =>
    cases types with
    | nil => simp [typeStrs]
    | cons t ts =>
      have hmem : t.value ∈ typeStrs (some (t :: ts)) :=
        (List.mem_insertionSort _).mpr List.mem_cons_self
      exact List.ne_nil_of_mem hmem

/-- Joining type strings loses nothing. -/
theorem intercalate_typeStrs {m₁ m₂ : Option (List MemoryType)}
    (h : ",".intercalate (typeStrs m₁) = ",".intercalate (typeStrs m₂)) :
    typeStrs m₁ = typeStrs m₂ := by
  have hsplit (m : Option (List MemoryType)) :
      (",".intercalate (typeStrs m)).toList.splitOn ',' = (typeStrs m).map String.toList := by
    rw [String.toList_intercalate]
    refine List.splitOn_intercalate ',' ?_ (by simpa using typeStrs_ne_nil m)
    intro l hl
    obtain ⟨s, hs, rfl⟩ := List.mem_map.mp hl
    exact (separators_notMem hs).1
  have hlists : (typeStrs m₁).map String.toList = (typeStrs m₂).map String.toList := by
    rw [← hsplit, ← hsplit, h]
  exact List.map_injective_iff.mpr (fun _ _ => String.toList_inj.mp) hlists

/-- Joining words does not bring in other characters than the separator. -/
theorem notMem_intercalate {c sep : Char} (hsep : c ≠ sep) :
    ∀ {words : List (List Char)}, (∀ w ∈ words, c ∉ w) → c ∉ [sep].intercalate words
  | [], _ => by simp [List.intercalate]
  | [w], h => by simpa [List.intercalate] using h
  | w :: v :: words, h => by
    obtain ⟨hw, hwords⟩ := List.forall_mem_cons.mp h
    have ih := notMem_intercalate hsep hwords
    simp only [List.intercalate, List.intersperse_cons_cons, List.flatten_cons, List.mem_append,
      List.mem_singleton, not_or] at ih ⊢
    exact ⟨hw, hsep, ih⟩

theorem bar_notMem (m : Option (List MemoryType)) :
    '|' ∉ (",".intercalate (typeStrs m)).toList := by
  rw [String.toList_intercalate]
  refine notMem_intercalate (show '|' ≠ ',' by decide) fun w hw => ?_
  obtain ⟨s, hs, rfl⟩ := List.mem_map.mp hw
  exact (separators_notMem hs).2

/-- What follows the last `a` is known, and so is what stands before it. -/
theorem append_cons_inj_of_last {α : Type} {a : α} {x₁ x₂ z₁ z₂ : List α} (h₁ : a ∉ z₁)
    (h₂ : a ∉ z₂) (h : x₁ ++ a :: z₁ = x₂ ++ a :: z₂) : x₁ = x₂ ∧ z₁ = z₂ := by
  rcases List.append_eq_append_iff.mp h with ⟨c, rfl, hc⟩ | ⟨c, rfl, hc⟩
  · cases c with
    | nil =>
      cases hc
      exact ⟨(List.append_nil _).symm, rfl⟩
    | cons b c =>
      cases hc
      exact absurd (List.mem_append_right c List.mem_cons_self) h₁
  · cases c with
    | nil =>
      cases hc
      exact ⟨List.append_nil _, rfl⟩
    | cons b c =>
      cases hc
      exact absurd (List.mem_append_right c List.mem_cons_self) h₂

/-- No type string holds a bar, so that the last bar ends the query. -/
theorem rawKey_eq_iff :
    rawKey r₁ = rawKey r₂ ↔
      r₁.query = r₂.query ∧ typeStrs r₁.memoryTypes = typeStrs r₂.memoryTypes := by
  constructor
  · intro h
    have hlists := congrArg String.toList h
    simp only [rawKey, String.toList_append, List.append_assoc] at hlists
    obtain ⟨hquery, htypes⟩ := append_cons_inj_of_last (bar_notMem _) (bar_notMem _) hlists
    exact ⟨String.toList_inj.mp hquery, intercalate_typeStrs (String.toList_inj.mp htypes)⟩
  · rintro ⟨hquery, htypes⟩
    rw [rawKey, rawKey, hquery, htypes]

theorem cacheKey_eq_iff (hsha : Function.Injective svc.sha256) :
    cacheKey svc tenantId r₁ = cacheKey svc tenantId r₂ ↔
      r₁.query = r₂.query ∧ typeStrs r₁.memoryTypes = typeStrs r₂.memoryTypes := by
  rw [cacheKey, cacheKey, String.append_right_inj, hsha.eq_iff, rawKey_eq_iff]

/-! ## Rankings -/

/-- The types a request searches can be read off its key. -/
theorem mem_typeFilter {memoryTypes : Option (List MemoryType)} {s : String} :
    s ∈ typeFilter (typeValues memoryTypes) ↔
      if typeStrs memoryTypes = ["all"] then s ∈ typeFilter none
      else s ∈ typeStrs memoryTypes := by
  have hall (t : MemoryType) : t.value ≠ "all" := by cases t <;> decide
  cases memoryTypes with
  | none => simp [typeStrs, typeValues]
  | some types =>
    cases types with
    | nil => simp [typeStrs, typeValues]
    | cons t ts =>
      have hmem : t.value ∈ typeStrs (some (t :: ts)) :=
        (List.mem_insertionSort _).mpr List.mem_cons_self
      have hne : typeStrs (some (t :: ts)) ≠ ["all"] := fun h =>
        hall t (List.mem_singleton.mp (h ▸ hmem))
      rw [if_neg hne]
      exact (List.mem_insertionSort _).symm

theorem itemCandidates_congr {types types' : List String} (h : ∀ s, s ∈ types ↔ s ∈ types') :
    itemCandidates svc tenantId types = itemCandidates svc tenantId types' := by
  have hcontains (s : String) : types.contains s = types'.contains s := by
    rw [Bool.eq_iff_iff, List.contains_iff_mem, List.contains_iff_mem, h]
  funext model qvec db
  simp only [itemCandidates, hcontains]

/-- Requests with one key have one ranking. -/
theorem ranked_congr (hquery : r₁.query = r₂.query)
    (htypes : typeStrs r₁.memoryTypes = typeStrs r₂.memoryTypes) :
    ranked svc now tenantId r₁ db = ranked svc now tenantId r₂ db := by
  have hfilter : ∀ s, s ∈ typeFilter (typeValues r₁.memoryTypes) ↔
      s ∈ typeFilter (typeValues r₂.memoryTypes) := fun s => by
    rw [mem_typeFilter, mem_typeFilter, htypes]
  rw [ranked, ranked, gathered, gathered, gather, gather, hquery, itemCandidates_congr hfilter]

/-! ## Cuts -/

/-- How many of `n` entries `xs[:k]` leaves. -/
def cut (n : Nat) : Int → Nat
  | .ofNat k => min k n
  | .negSucc k => n - (k + 1)

theorem sliceTo_eq_take {α : Type} (xs : List α) (k : Int) :
    sliceTo xs k = xs.take (cut xs.length k) := by
  cases k with
  | ofNat k => rw [sliceTo, cut, ← List.take_take, List.take_length]
  | negSucc k => rfl

/-- The entries that `xs[:k]` leaves for one of the `k` only. -/
def between {α : Type} (xs : List α) (k₁ k₂ : Int) : List α :=
  (xs.take (max (cut xs.length k₁) (cut xs.length k₂))).drop
    (min (cut xs.length k₁) (cut xs.length k₂))

theorem filterMap_take_eq_iff_of_le {α β : Type} {f : α → Option β} {xs : List α} {m n : Nat}
    (h : m ≤ n) :
    (xs.take m).filterMap f = (xs.take n).filterMap f ↔
      ∀ x ∈ (xs.take n).drop m, f x = none := by
  have hcut : xs.take n = xs.take m ++ (xs.take n).drop m := by
    conv_lhs => rw [← List.take_append_drop m (xs.take n), List.take_take, min_eq_left h]
  conv_lhs => rw [hcut, List.filterMap_append, List.self_eq_append_right]
  exact List.filterMap_eq_nil_iff

/-- Two cuts leave the same after a filter that drops all between them, and only then. -/
theorem filterMap_sliceTo_eq_iff {α β : Type} {f : α → Option β} {xs : List α} {k₁ k₂ : Int} :
    (sliceTo xs k₁).filterMap f = (sliceTo xs k₂).filterMap f ↔
      ∀ x ∈ between xs k₁ k₂, f x = none := by
  rw [sliceTo_eq_take, sliceTo_eq_take, between]
  rcases Nat.le_total (cut xs.length k₁) (cut xs.length k₂) with h | h
  · rw [max_eq_right h, min_eq_left h]
    exact filterMap_take_eq_iff_of_le h
  · rw [max_eq_left h, min_eq_right h, eq_comm]
    exact filterMap_take_eq_iff_of_le h

/-! ## When the cached results are right -/

/-- A request that finds the entry of another gets its own results exactly when no item
stands between the places where the two cut the ranking. -/
theorem cached_results_iff (svc : MemoryService V R) (hsha : Function.Injective svc.sha256)
    (now : Nat) (tenantId : Uuid) (r₁ r₂ : MemorySearchRequest) (db : MemoryDb V)
    (cache cache₁ cache₂ : QueryCache R) (entry : List (MemorySearchResult R))
    (hwrite : searchMemory svc now tenantId r₁ db cache = some (⟨entry, false⟩, cache₁))
    (hkept : cache₂ (cacheKey svc tenantId r₁) = cache₁ (cacheKey svc tenantId r₁))
    (hkey : cacheKey svc tenantId r₂ = cacheKey svc tenantId r₁) :
    (searchMemory svc now tenantId r₂ db cache₂).map (fun r => r.1.results) =
        (uncached svc now tenantId r₂).run db ↔
      ∀ c ∈ between (ranked svc now tenantId r₂ db) r₁.topK r₂.topK,
        itemOf svc tenantId db c = none := by
  obtain ⟨hquery, htypes⟩ := (cacheKey_eq_iff hsha).mp hkey
  -- what the first request wrote is what it computed
  have hentry : (uncached svc now tenantId r₁).run db = some entry ∧
      cache₁ (cacheKey svc tenantId r₁) = some entry := by
    unfold searchMemory at hwrite
    split at hwrite
    · simp at hwrite
    · cases hrun : (uncached svc now tenantId r₁).run db with
      | none => simp [hrun] at hwrite
      | some results =>
        simp only [hrun, Option.bind_eq_bind, Option.bind_some, Option.pure_def, Option.some.injEq,
          Prod.mk.injEq, MemorySearchResponse.mk.injEq, and_true] at hwrite
        obtain ⟨rfl, rfl⟩ := hwrite
        exact ⟨rfl, if_pos rfl⟩
  have hembeds : Embeds svc r₁.query tenantId db := by
    by_contra hembeds
    have hrun : (uncached svc now tenantId r₁).run db = none := run_uncached_eq_none hembeds
    rw [hrun] at hentry
    cases hentry.1
  have hresults := Option.some.inj (hentry.1.symm.trans (run_uncached hembeds))
  have hhit : (searchMemory svc now tenantId r₂ db cache₂).map (fun r => r.1.results) =
      some entry := by
    simp [searchMemory, hkey, hkept, hentry.2]
  rw [hhit, run_uncached (hquery ▸ hembeds), hresults, ranked_congr hquery.symm htypes.symm,
    Option.some.injEq, filterMap_sliceTo_eq_iff]
  exact forall₂_congr fun c _ => Option.map_eq_none_iff

def twoItemsDb : MemoryDb String where
  items := ⟨[sampleItem 1 "tea", sampleItem 2 "coffee"], by decide⟩

/-- The request for two results gets the one result of the request before it. -/
theorem cached_for_smaller_top_k :
    ((searchMemory sampleService 0 sampleTenant ⟨"tea", 1, none⟩ twoItemsDb fun _ => none).bind
      fun r => (searchMemory sampleService 0 sampleTenant ⟨"tea", 2, none⟩ twoItemsDb r.2).map
        fun r => (r.1.results.length, r.1.cacheHit)) = some (1, true) ∧
      ((uncached sampleService 0 sampleTenant ⟨"tea", 2, none⟩).run twoItemsDb).map List.length =
        some 2 := by
  constructor <;> decide +kernel

/-- The order of the types makes no difference, nor does a larger `top_k` where no more
candidates are. -/
theorem cached_results_iff_reordered :
    ∃ entry cache, (searchMemory sampleService 0 sampleTenant
        ⟨"tea", 2, some [.semantic, .episodic]⟩ twoItemsDb fun _ => none) =
        some (⟨entry, false⟩, cache) ∧
      (searchMemory sampleService 0 sampleTenant ⟨"tea", 5, some [.episodic, .semantic]⟩
          twoItemsDb cache).map (fun r => r.1.results) =
        (uncached sampleService 0 sampleTenant ⟨"tea", 5, some [.episodic, .semantic]⟩).run
          twoItemsDb := by
  have hend : (searchMemory sampleService 0 sampleTenant ⟨"tea", 2, some [.semantic, .episodic]⟩
      twoItemsDb fun _ => none).any fun r => r.1.cacheHit = false := by decide +kernel
  obtain ⟨⟨⟨entry, hit⟩, cache⟩, hrun, hhit⟩ := (Option.any_eq_true _ _).mp hend
  obtain rfl : hit = false := of_decide_eq_true hhit
  refine ⟨entry, cache, hrun, ?_⟩
  apply (cached_results_iff sampleService (fun _ _ h => h) 0 sampleTenant _ _ twoItemsDb
    (fun _ => none) _ _ _ hrun rfl (by decide +kernel)).mpr
  decide +kernel

end Sutram.Memory
