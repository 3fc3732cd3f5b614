/-
What a step of the service is to each tenant.

The step of a tenant's session is a step of the tenant's own memory, and nothing to any
other tenant.
-/
import Sutram.Memory.Apart
import Sutram.Memory.TypedSearch

namespace Sutram.Memory

open Sutram.Core Runs

variable {V R : Type} {svc : MemoryService V R} {w w' : Tenants V R} {t t' : Uuid} {i : Nat}

/-- The entries of a tenant among some of the cache. -/
theorem filter_listed (t : Uuid) (p : CacheEntry R → Bool) (cache : List (CacheEntry R)) :
    (cache.filter p).filter (fun e => listed t e.key) =
      (cache.filter fun e => listed t e.key).filter p := by
  rw [List.filter_filter, List.filter_filter]
  exact List.filter_congr fun e _ => Bool.and_comm _ _

namespace Tenants

/-! ## The parts of a state -/

section Parts

variable (w t i)

@[simp] theorem of_set (work : Work V R) : (w.set t i work).of t = (w.of t).set i work := by
  simp [of, set, World.set]

@[simp] theorem of_draw (id : Uuid) :
    (w.draw t id).of t = { w.of t with drawn := id :: (w.of t).drawn } := by
  simp [of, draw]

@[simp] theorem of_lock (ids : List Uuid) : (w.lock t i ids).of t = (w.of t).lock i ids := by
  simp [of, lock, World.lock, List.filterMap_map]

@[simp] theorem of_record (records : Records R) :
    (w.record t records).of t = { w.of t with
      stored := records.stored, forgotten := records.forgotten, answers := records.answers } := by
  simp [of, record]

@[simp] theorem of_close : (w.close t i).of t = (w.of t).close i := by
  have hlocks : ((w.locks.filter fun l => l.2 ≠ (t, i)).filterMap fun l =>
        if l.2.1 = t then some (l.1, l.2.2) else none) =
      (w.of t).locks.filter fun l => l.2 ≠ i := by
    rw [of, List.filter_filterMap, List.filterMap_filter]
    refine List.filterMap_congr fun ⟨id, owner, j⟩ _ => ?_
    by_cases howner : owner = t <;> by_cases hj : j = i <;>
      simp [howner, hj, Option.filter_some]
  rw [of, World.close, ← hlocks, ← of_set]
  rfl

theorem of_tick (d : Nat) : (w.tick d).of t = (w.of t).tick d := by
  simp only [of, tick, World.tick, filter_listed t fun e : CacheEntry R => w.now + d < e.expiresAt]
  rfl

variable {w t i} (h : t' ≠ t)
include h

@[simp] theorem of_set_other (work : Work V R) : (w.set t i work).of t' = w.of t' := by
  simp [of, set, h]

@[simp] theorem of_draw_other (id : Uuid) : (w.draw t id).of t' = w.of t' := by
  simp [of, draw, h.symm]

@[simp] theorem of_lock_other (ids : List Uuid) : (w.lock t i ids).of t' = w.of t' := by
  simp [of, lock, List.filterMap_map, h.symm]

@[simp] theorem of_record_other (records : Records R) : (w.record t records).of t' = w.of t' := by
  simp [of, record, h]

@[simp] theorem of_close_other : (w.close t i).of t' = w.of t' := by
  have hlocks : ((w.locks.filter fun l => l.2 ≠ (t, i)).filterMap fun l =>
      if l.2.1 = t' then some (l.1, l.2.2) else none) = (w.of t').locks := by
    rw [of, List.filterMap_filter]
    refine List.filterMap_congr fun ⟨id, owner, j⟩ _ => ?_
    by_cases howner : owner = t' <;> simp [howner, h]
  rw [of, close, hlocks, ← of_set_other h .idle]
  rfl

end Parts

theorem find?_cache {key : String} (hkey : listed t key) :
    (w.of t).cache.find? (fun e => e.key = key) = w.cache.find? fun e => e.key = key := by
  rw [of, List.find?_filter]
  refine List.find?_congr fun e _ => ?_
  by_cases he : e.key = key <;> simp [he, hkey]

/-- SETEX of a key of the tenant. -/
theorem of_setex {key : String} (hkey : listed t key) (ttl : Nat)
    (results : List (MemorySearchResult R)) (known : List Uuid) :
    (w.setex t key ttl results known).of t = (w.of t).setex key ttl results known := by
  have hfind : (w.cache.filter fun e => listed t e.key).find? (fun e => e.key = key) =
      w.cache.find? fun e => e.key = key := find?_cache hkey
  cases hfound : w.cache.find? (fun e => e.key = key) with
  | none | some e =>
    simp only [of, setex, World.setex, hfind, hfound, Function.update_self, List.filter_cons, hkey,
      if_true, filter_listed t fun e : CacheEntry R => decide (e.key ≠ key)]

theorem of_setex_other {key : String} (h : t' ≠ t) (hkey : listed t' key = false) (ttl : Nat)
    (results : List (MemorySearchResult R)) (known : List Uuid) :
    (w.setex t key ttl results known).of t' = w.of t' := by
  have hcache : ((w.cache.filter fun e => e.key ≠ key).filter fun e => listed t' e.key) =
      (w.of t').cache := by
    rw [of, List.filter_filter]
    refine List.filter_congr fun e _ => ?_
    by_cases he : e.key = key <;> simp [he, hkey]
  simp only [of, setex, Function.update_of_ne h, List.filter_cons, hkey, Bool.false_eq_true,
    if_false, hcache]

/-- A DEL of keys that SCAN listed. -/
theorem of_scan (keys : List String) (work : Work V R) :
    ({ w.set t i work with
      cache := w.cache.filter fun e => !keys.contains e.key } : Tenants V R).of t =
      { (w.of t).set i work with
        cache := (w.of t).cache.filter fun e => !keys.contains e.key } := by
  rw [← of_set]
  simp only [of, set, filter_listed t fun e : CacheEntry R => !keys.contains e.key]

theorem of_scan_other (h : t' ≠ t) {keys : List String} (hkeys : keys.all (listed t))
    (work : Work V R) :
    ({ w.set t i work with
      cache := w.cache.filter fun e => !keys.contains e.key } : Tenants V R).of t' = w.of t' := by
  have hcache : ((w.cache.filter fun e => !keys.contains e.key).filter fun e => listed t' e.key) =
      (w.of t').cache := by
    rw [of, List.filter_filter]
    refine List.filter_congr fun e _ => ?_
    cases hkey : listed t' e.key with
    | false => rfl
    | true =>
      have hkept : e.key ∉ keys := fun hmem =>
        h (listed_both hkey (List.all_eq_true.mp hkeys _ hmem))
      simp [hkept]
  simp only [of, set, Function.update_of_ne h, hcache]

theorem snd_of_drawn {id : Uuid} (h : id ∈ (w.of t).drawn) : id ∈ w.drawn.map Prod.snd := by
  obtain ⟨d, hd, heq⟩ := List.mem_filterMap.mp h
  split at heq
  · cases heq
    exact List.mem_map_of_mem hd
  · cases heq

/-! ## Rows -/

/-- A row of another tenant has another id. -/
theorem Apart.foreign (h : w.Apart) {id : Uuid} {item : MemoryItemORM V}
    (hitem : item ∈ w.db.items.rows) (hid : (t, id) ∈ w.owners) (hother : item.tenantId ≠ t) :
    item.id ≠ id := by
  rintro rfl
  exact hother (h.unique (h.rows.items item hitem) hid)

theorem existingOf_eq (ids : List Uuid) : (w.of t).existing ids = w.existingOf t ids := by
  refine List.filter_congr fun id _ => ?_
  rw [of, MemoryDb.of, Table.find?, Table.part, List.find?_filter, Table.find?]
  congr 2
  funext item
  simp [and_comm]

theorem Apart.existing_eq (h : w.Apart) {ids : List Uuid} (hids : ∀ id ∈ ids, (t, id) ∈ w.owners) :
    (w.of t).existing ids = w.existing ids := by
  refine List.filter_congr fun id hid => ?_
  rw [of, MemoryDb.of, Table.find?_part]
  intro item hitem hitemId
  by_contra hother
  exact h.foreign hitem (hids id hid) (by simpa using hother) (by simpa using hitemId)

theorem lockFree_of {ids : List Uuid} (h : w.lockFree t i ids) : (w.of t).lockFree i ids := by
  rw [lockFree, List.all_eq_true] at h
  rw [World.lockFree, List.all_eq_true]
  intro l hl
  obtain ⟨⟨id, owner, j⟩, hmem, hl⟩ := List.mem_filterMap.mp hl
  split at hl
  · cases hl
    have := h _ hmem
    simp_all
  · cases hl

theorem mem_existing {ids : List Uuid} {id : Uuid} (h : id ∈ w.existing ids) : id ∈ ids :=
  List.mem_of_mem_filter h

/-- The row of an id the tenant names is the tenant's own. -/
theorem Apart.owned_existingOf (h : w.Apart) {ids : List Uuid} :
    ∀ id ∈ w.existingOf t ids, (t, id) ∈ w.owners := by
  intro id hid
  obtain ⟨item, hitem⟩ := Option.isSome_iff_exists.mp (List.mem_filter.mp hid).2
  have hcond := Table.of_find? hitem
  simp only [Bool.and_eq_true, decide_eq_true_eq] at hcond
  obtain ⟨rfl, rfl⟩ := hcond
  exact h.rows.items item (Table.mem_of_find? hitem)

/-- The rows read for candidates of the tenant. -/
theorem Apart.resultsOwned_readResults (h : w.Apart) {candidates : List (ScoredCandidate R)}
    (hown : ∀ c ∈ candidates, (t, c.candidate.id) ∈ w.owners) :
    ResultsOwned t w.committed (readResults svc t candidates w.db) := by
  intro r hr
  rw [readResults_eq, List.mem_filterMap] at hr
  obtain ⟨c, hc, hr⟩ := hr
  obtain ⟨item, hitem, rfl⟩ := Option.map_eq_some_iff.mp hr
  have hcond := Table.of_find? hitem
  simp only [Bool.and_eq_true, decide_eq_true_eq] at hcond
  have hrow := h.rows.items item (Table.mem_of_find? hitem)
  have htenant : item.tenantId = t := h.unique hrow (hcond.1 ▸ hown c hc)
  exact ⟨htenant, htenant ▸ h.stored item (Table.mem_of_find? hitem)⟩

/-- The rows of the candidates, read again by their ids alone. -/
theorem Apart.readResults_of (h : w.Apart) {candidates : List (ScoredCandidate R)}
    (hown : ∀ c ∈ candidates, (t, c.candidate.id) ∈ w.owners) :
    readResults svc t candidates (w.db.of t) = readResults svc t candidates w.db := by
  rw [readResults, readResults, selectRows, selectRows, MemoryDb.of, Table.select_part]
  intro item hitem hcond
  simp only [Bool.and_eq_true, List.contains_iff_mem] at hcond
  obtain ⟨c, hc, hid⟩ := List.mem_map.mp hcond.1
  by_contra hother
  exact h.foreign hitem (hown c hc) (by simpa using hother) hid.symm

theorem of_touch (db : MemoryDb V) (ids : List Uuid) (accessedAt : Nat) :
    (db.touch ids accessedAt).of t = (db.of t).touch ids accessedAt := by
  simp only [MemoryDb.of, MemoryDb.touch]
  congr 1
  exact Table.part_update _ fun _ => rfl

/-- An UPDATE by ids of one tenant. -/
theorem Apart.part_update_other (h : w.Apart) (hne : t' ≠ t) {ids : List Uuid}
    (hids : ∀ id ∈ ids, (t, id) ∈ w.owners) {f : MemoryItemORM V → MemoryItemORM V}
    (hf : ∀ item, (f item).id = item.id) (htenant : ∀ item, (f item).tenantId = item.tenantId) :
    (w.db.items.update (fun item => ids.contains item.id) f hf).part
        (fun item => item.tenantId = t') = w.db.items.part fun item => item.tenantId = t' := by
  refine Table.part_update_other hf (fun item => by rw [htenant]) fun item hitem howner => ?_
  rw [Bool.eq_false_iff]
  intro hmem
  have hother : item.tenantId ≠ t := by
    have : item.tenantId = t' := by simpa using howner
    exact this ▸ hne
  exact h.foreign hitem (hids item.id (List.contains_iff_mem.mp hmem)) hother rfl

/-! ## Commits -/

theorem of_db (db : MemoryDb V) :
    ({ w with db } : Tenants V R).of t = { w.of t with db := db.of t } := rfl

/-- A commit ends a transaction in the tenant's own memory. -/
theorem Apart.commit_of (h : w.Apart) (hstep : w.commit t i = some w') :
    Memory.commit (w.of t) i = some (w'.of t) := by
  have hi := h.works t i
  unfold commit at hstep
  split at hstep
  · -- a store
    rename_i item hwork
    rw [hwork] at hi
    obtain ⟨items, hinsert, rfl⟩ := Option.map_eq_some_iff.mp hstep
    have hpart : (w.of t).db.items.insert item = some (items.part fun item => item.tenantId = t) :=
      Table.part_insert hinsert (by simpa using hi.1)
    have hwork' : (w.of t).sessions i = .invalidated (.stored item) := hwork
    rw [Memory.commit, hwork']
    simp only [hpart, Option.map_some, of_db, of_record, of_close]
    rfl
  · -- a forget
    rename_i id hwork
    cases hstep
    have hwork' : (w.of t).sessions i = .invalidated (.forgotten id) := hwork
    rw [Memory.commit, hwork']
    simp only [of_db, of_record, of_close, MemoryDb.of, Table.part_delete]
    rfl
  · -- the access statistics
    rename_i ids accessedAt hwork
    cases hstep
    have hwork' : (w.of t).sessions i = .touched ids accessedAt := hwork
    rw [Memory.commit, hwork']
    simp only [of_db, of_close, of_touch]
    rfl
  · rename_i hwork
    cases hstep
    have hwork' : (w.of t).sessions i = .picked [] := hwork
    rw [Memory.commit, hwork', of_close]
  · -- a compression run
    rename_i summary ids hwork
    rw [hwork] at hi
    obtain ⟨summaries, hinsert, rfl⟩ := Option.map_eq_some_iff.mp hstep
    have hpart : (w.of t).db.summaries.insert summary =
        some (summaries.part fun summary => summary.tenantId = t) :=
      Table.part_insert hinsert (by simpa using hi.1.1)
    have hwork' : (w.of t).sessions i = .marked summary ids := hwork
    rw [Memory.commit, hwork']
    have hmark : ((w.db.markCompressed ids).items.part fun item => decide (item.tenantId = t)) =
        ((w.of t).db.markCompressed ids).items :=
      Table.part_update (by exact fun _ => rfl) fun _ => rfl
    simp only [hpart, Option.map_some, of_db, of_close, MemoryDb.of, hmark]
  · cases hstep

/-- A commit does nothing to the rows of another tenant. -/
theorem Apart.commit_other (h : w.Apart) (hne : t' ≠ t) (hstep : w.commit t i = some w') :
    w'.of t' = w.of t' := by
  have hi := h.works t i
  unfold commit at hstep
  split at hstep
  · -- a store
    rename_i item hwork
    rw [hwork] at hi
    obtain ⟨items, hinsert, rfl⟩ := Option.map_eq_some_iff.mp hstep
    have hpart : items.part (fun item => decide (item.tenantId = t')) =
        w.db.items.part fun item => item.tenantId = t' :=
      Table.part_insert_other hinsert (by simpa [hi.1] using hne.symm)
    simp only [of_db, of_record_other hne, of_close_other hne, MemoryDb.of, hpart]
    rfl
  · -- a forget
    rename_i id hwork
    rw [hwork] at hi
    cases hstep
    have hpart : (w.db.items.delete id).part (fun item => decide (item.tenantId = t')) =
        w.db.items.part fun item => item.tenantId = t' := by
      refine Table.part_delete_other fun item hitem howner => h.foreign hitem hi ?_
      have : item.tenantId = t' := by simpa using howner
      exact this ▸ hne
    simp only [of_db, of_record_other hne, of_close_other hne, MemoryDb.of, hpart]
    rfl
  · -- the access statistics
    rename_i ids accessedAt hwork
    rw [hwork] at hi
    cases hstep
    have hpart := h.part_update_other hne hi (f := fun item =>
      { item with accessedAt := accessedAt, accessCount := item.accessCount + 1 })
      (fun _ => rfl) fun _ => rfl
    simp only [of_db, of_close_other hne, MemoryDb.of, MemoryDb.touch, hpart]
    rfl
  · cases hstep
    exact of_close_other hne
  · -- a compression run
    rename_i summary ids hwork
    rw [hwork] at hi
    obtain ⟨summaries, hinsert, rfl⟩ := Option.map_eq_some_iff.mp hstep
    have hpart := h.part_update_other hne hi.2 (f := fun item => { item with compressed := true })
      (fun _ => rfl) fun _ => rfl
    have hsummaries : summaries.part (fun summary => decide (summary.tenantId = t')) =
        w.db.summaries.part fun summary => summary.tenantId = t' :=
      Table.part_insert_other hinsert (by simpa [hi.1.1] using hne.symm)
    simp only [of_db, of_close_other hne, MemoryDb.of, MemoryDb.markCompressed, hpart, hsummaries]
    rfl
  · cases hstep

/-! ## What a session does -/

theorem owned_update {T : Table fun item : MemoryItemORM V => item.id} {p : MemoryItemORM V → Bool}
    {f : MemoryItemORM V → MemoryItemORM V} {drawn : Set (Uuid × Uuid)}
    (h : ∀ item ∈ T.rows, (item.tenantId, item.id) ∈ drawn) (hf : ∀ item, (f item).id = item.id)
    (htenant : ∀ item, (f item).tenantId = item.tenantId) :
    ∀ item ∈ (T.update p f hf).rows, (item.tenantId, item.id) ∈ drawn := by
  intro item hitem
  obtain ⟨old, hold, rfl⟩ := List.mem_map.mp hitem
  split
  · rw [hf, htenant]
    exact h old hold
  · exact h old hold

/-- What an operation of a session changes. -/
inductive Moved (svc : MemoryService V R) (w : Tenants V R) (t : Uuid) (i : Nat) :
    Tenants V R → Prop
  | next {work : Work V R} (hwork : WorkOwned t w.owners w.committed work) :
    Moved svc w t i (w.set t i work)
  | draw {work : Work V R} {id : Uuid} (hnew : id ∉ w.drawn.map Prod.snd)
      (hwork : WorkOwned t ((w.set t i work).draw t id).owners w.committed work) :
    Moved svc w t i ((w.set t i work).draw t id)
  | lock {work : Work V R} {ids : List Uuid} (hwork : WorkOwned t w.owners w.committed work) :
    Moved svc w t i ((w.set t i work).lock t i ids)
  | scan {keys : List String} {work : Work V R} (hkeys : keys.all (listed t))
      (hwork : WorkOwned t w.owners w.committed work) :
    Moved svc w t i { w.set t i work with
      cache := w.cache.filter fun e => !keys.contains e.key }
  | setex {body : MemorySearchRequest} {work : Work V R} {known : List Uuid}
      {results : List (MemorySearchResult R)} (hwork : WorkOwned t w.owners w.committed work)
      (hresults : ResultsOwned t w.committed results) :
    Moved svc w t i ((w.setex t (cacheKey svc t body) svc.queryCacheTtl results known).set t i work)
  | respond {a : Answer R} {work : Work V R} (hwork : WorkOwned t w.owners w.committed work)
      (ha : ResultsOwned t w.committed a.results) :
    Moved svc w t i ((w.set t i work).record t
      { w.records t with answers := a :: (w.records t).answers })
  | commit {w' : Tenants V R} (h : w.commit t i = some w') : Moved svc w t i w'
  | abort : Moved svc w t i (w.close t i)

variable {o : Op}

/-- Sessions draw and find ids of their own tenants. -/
theorem Apart.moved (h : w.Apart) (hstep : w.perform svc t i o = some w') :
    Moved svc w t i w' := by
  have hi := h.works t i
  unfold perform at hstep
  split at hstep
  · -- store
    cases hstep
    exact .next trivial
  · -- insert
    split at hstep
    · split at hstep
      · cases hstep
      · rename_i hnew
        cases hstep
        exact .draw hnew ⟨rfl, List.mem_cons_self⟩
    · cases hstep
  · -- forget
    cases hstep
    exact .next trivial
  · -- select
    split at hstep
    · rename_i item hitem
      cases hstep
      have hcond := Table.of_find? hitem
      simp only [Bool.and_eq_true, decide_eq_true_eq] at hcond
      obtain ⟨rfl, rfl⟩ := hcond
      exact .next (h.rows.items item (Table.mem_of_find? hitem))
    · cases hstep
  · -- delete
    rename_i hwork
    rw [hwork] at hi
    split at hstep
    · cases hstep
      exact .lock hi
    · cases hstep
  · -- startScan
    rename_i write hwork
    rw [hwork] at hi
    cases hstep
    exact .next (by cases write <;> exact hi)
  · -- scan
    rename_i hwork
    rw [hwork] at hi
    split at hstep
    · rename_i hkeys
      cases hstep
      exact .scan hkeys hi
    · cases hstep
  · -- endScan
    rename_i write present hwork
    rw [hwork] at hi
    split at hstep
    · cases hstep
      exact .next (by cases write <;> exact hi)
    · cases hstep
  · -- search
    cases hstep
    exact .next trivial
  · -- get
    rename_i asked hwork
    split at hstep
    · -- the entry has a key of the tenant
      rename_i e he
      cases hstep
      have hkey : e.key = cacheKey svc t asked.body := by simpa using List.find?_some he
      exact .next (h.cache e (List.mem_of_find?_eq_some he) t (hkey ▸ listed_cacheKey.mpr rfl))
    · cases hstep
      exact .next ⟨factors_gatherLive _ _, holds_gatherLive _ _ _⟩
  · -- read, with more to read
    rename_i asked known next hwork
    rw [hwork] at hi
    cases hstep
    exact .next ⟨(hi.1 ⟨w.db, svc.embed⟩).2, hi.2 _ le_rfl ⟨w.db, svc.embed⟩ h.rows⟩
  · -- read, of the rows of the candidates
    rename_i asked known all hwork
    rw [hwork] at hi
    cases hstep
    refine .next ?_
    show ResultsOwned t w.committed (if _ then _ else _)
    split
    · exact resultsOwned_nil _
    · exact h.resultsOwned_readResults fun c hc => hi.2 _ (mem_ranking (mem_of_sliceTo hc))
  · -- setex
    rename_i hwork
    rw [hwork] at hi
    cases hstep
    exact .setex hi hi
  · -- respond
    rename_i hwork
    rw [hwork] at hi
    cases hstep
    exact .respond (by split <;> trivial) hi
  · -- touch
    split at hstep
    · cases hstep
      exact .lock h.owned_existingOf
    · cases hstep
  · -- compress
    cases hstep
    exact .next trivial
  · -- pick
    cases hstep
    refine .next fun item hitem => ?_
    have hselected := (List.mem_insertionSort _).mp (List.mem_of_mem_take hitem)
    obtain ⟨hrow, hcond⟩ := List.mem_filter.mp hselected
    obtain rfl : item.tenantId = t := by simp_all
    exact h.rows.items item hrow
  · -- summarise
    rename_i id text item items hwork
    rw [hwork] at hi
    split at hstep
    · split at hstep
      · cases hstep
      · rename_i hnew
        cases hstep
        refine .draw hnew ⟨⟨rfl, List.mem_cons_self⟩, fun x hx => ?_⟩
        obtain ⟨old, hold, rfl⟩ := List.mem_map.mp hx
        exact List.mem_cons_of_mem _ (hi old hold)
    · cases hstep
  · -- mark
    rename_i summary hwork
    rw [hwork] at hi
    split at hstep
    · cases hstep
      exact .lock ⟨hi.1, fun x hx => hi.2 x (mem_existing hx)⟩
    · cases hstep
  · -- commit
    exact .commit hstep
  · -- abort
    cases hstep
    exact .abort
  · cases hstep

/-- An operation of a session of another tenant. -/
theorem Apart.perform_other (h : w.Apart) (hne : t' ≠ t)
    (hstep : w.perform svc t i o = some w') : w'.of t' = w.of t' := by
  cases h.moved hstep with
  | next => exact of_set_other hne _
  | draw => rw [of_draw_other hne, of_set_other hne]
  | lock => rw [of_lock_other hne, of_set_other hne]
  | scan hkeys => exact of_scan_other hne hkeys _
  | setex =>
    rw [of_set_other hne, of_setex_other hne]
    rw [Bool.eq_false_iff, ne_eq, listed_cacheKey]
    exact hne
  | respond => rw [of_record_other hne, of_set_other hne]
  | commit hcommit => exact h.commit_other hne hcommit
  | abort => exact of_close_other hne

/-! ## What a session leaves -/

/-- Sessions go on with ids of their tenants. -/
theorem Apart.keep (h : w.Apart) {work : Work V R}
    (hsessions : w'.sessions =
      Function.update w.sessions t (Function.update (w.sessions t) i work))
    (hdrawn : w.owners ⊆ w'.owners) (hcommitted : w.committed ⊆ w'.committed)
    (hrows : Owned w'.owners w'.db)
    (hstored : ∀ item ∈ w'.db.items.rows, (item.tenantId, item.id) ∈ w'.committed)
    (hunique : ∀ {t t' id : Uuid}, (t, id) ∈ w'.drawn → (t', id) ∈ w'.drawn → t = t')
    (hwork : WorkOwned t w'.owners w'.committed work)
    (hcache : ∀ e ∈ w'.cache, e ∈ w.cache ∨
      ∀ u, listed u e.key → ResultsOwned u w'.committed e.results)
    (hanswers : ∀ u, ∀ a ∈ (w'.records u).answers, a ∈ (w.records u).answers ∨
      ResultsOwned u w'.committed a.results) : w'.Apart where
  rows := hrows
  stored := hstored
  unique := hunique
  works u j := by
    rw [hsessions]
    by_cases hu : u = t
    · subst hu
      rw [Function.update_self]
      by_cases hj : j = i
      · rwa [hj, Function.update_self]
      · rw [Function.update_of_ne hj]
        exact (h.works u j).mono hdrawn hcommitted
    · rw [Function.update_of_ne hu]
      exact (h.works u j).mono hdrawn hcommitted
  cache e he u hkey := by
    rcases hcache e he with hold | hnew
    · exact (h.cache e hold u hkey).mono hcommitted
    · exact hnew u hkey
  answers u a ha := by
    rcases hanswers u a ha with hold | hnew
    · exact (h.answers u a hold).mono hcommitted
    · exact hnew

/-- A step that draws no ids, commits nothing, and takes no more than entries out of the
cache. -/
theorem Apart.quiet (h : w.Apart) {work : Work V R}
    (hsessions : w'.sessions =
      Function.update w.sessions t (Function.update (w.sessions t) i work))
    (hdrawn : w'.drawn = w.drawn) (hdb : w'.db = w.db)
    (hwork : WorkOwned t w.owners w.committed work) (hcache : ∀ e ∈ w'.cache, e ∈ w.cache)
    (hrecords : w'.records = w.records) : w'.Apart := by
  have howners : w'.owners = w.owners := by rw [owners, owners, hdrawn]
  have hcommitted : w'.committed = w.committed := by rw [committed, committed, hrecords]
  refine h.keep hsessions (by rw [howners]) (by rw [hcommitted]) ?_ ?_
    (by rw [hdrawn]; exact h.unique) (by rwa [howners, hcommitted])
    (fun e he => .inl (hcache e he)) fun u a ha => .inl (by rwa [hrecords] at ha)
  · rw [howners, hdb]
    exact h.rows
  · rw [hcommitted, hdb]
    exact h.stored

/-- A step that draws an id that nobody has drawn. -/
theorem Apart.draw (h : w.Apart) {work : Work V R} {id : Uuid} (hnew : id ∉ w.drawn.map Prod.snd)
    (hwork : WorkOwned t ((w.set t i work).draw t id).owners w.committed work) :
    ((w.set t i work).draw t id).Apart := by
  have hmono : w.owners ⊆ ((w.set t i work).draw t id).owners :=
    fun _ hd => List.mem_cons_of_mem _ hd
  have hnone {u : Uuid} : (u, id) ∉ w.drawn := fun hu => hnew (List.mem_map_of_mem hu)
  refine h.keep rfl hmono subset_rfl ?_ h.stored ?_ hwork (fun _ he => .inl he)
    fun _ _ ha => .inl ha
  · exact ⟨fun item hitem => hmono (h.rows.items item hitem),
      fun summary hsummary => hmono (h.rows.summaries summary hsummary)⟩
  · intro u v x hu hv
    rcases List.mem_cons.mp hu with heq | hu <;> rcases List.mem_cons.mp hv with heq' | hv
    · rw [(Prod.mk.inj heq).1, (Prod.mk.inj heq').1]
    · exact absurd ((Prod.mk.inj heq).2 ▸ hv) hnone
    · exact absurd ((Prod.mk.inj heq').2 ▸ hu) hnone
    · exact h.unique hu hv

/-- The records of a commit have the answers that were there. -/
theorem answers_record {records : Records R} (h : records.answers = (w.records t).answers)
    (u : Uuid) : ((w.record t records).records u).answers = (w.records u).answers := by
  by_cases hu : u = t
  · subst hu
    simpa [record] using h
  · simp [record, hu]

/-- Stores that are committed remain so. -/
theorem committed_record {records : Records R} (h : (w.records t).stored ⊆ records.stored) :
    w.committed ⊆ (w.record t records).committed := by
  rintro ⟨u, id⟩ hid
  by_cases hu : u = t
  · subst hu
    simpa [committed, record] using h hid
  · simpa [committed, record, hu] using hid

theorem Apart.items (h : w.Apart) :
    ∀ item ∈ w.db.items.rows, (item.tenantId, item.id) ∈ w.owners ∩ w.committed :=
  fun item hitem => ⟨h.rows.items item hitem, h.stored item hitem⟩

theorem Apart.commit (h : w.Apart) (hstep : w.commit t i = some w') : w'.Apart := by
  have hi := h.works t i
  have closed {v : Tenants V R}
      (hitems : ∀ item ∈ v.db.items.rows, (item.tenantId, item.id) ∈ w.owners ∩ v.committed)
      (hsummaries : ∀ summary ∈ v.db.summaries.rows, (summary.tenantId, summary.id) ∈ w.owners)
      (hsessions : v.sessions =
        Function.update w.sessions t (Function.update (w.sessions t) i .idle))
      (hdrawn : v.drawn = w.drawn) (hcommitted : w.committed ⊆ v.committed)
      (hcache : v.cache = w.cache)
      (hanswers : ∀ u, (v.records u).answers = (w.records u).answers) : v.Apart := by
    have howners : v.owners = w.owners := by rw [owners, owners, hdrawn]
    refine h.keep hsessions (by rw [howners]) hcommitted ?_
      (fun item hitem => (hitems item hitem).2)
      (by rw [hdrawn]; exact h.unique) trivial (fun e he => .inl (hcache ▸ he))
      fun u a ha => .inl (hanswers u ▸ ha)
    rw [howners]
    exact ⟨fun item hitem => (hitems item hitem).1, hsummaries⟩
  unfold Tenants.commit at hstep
  split at hstep
  · -- a store
    rename_i item hwork
    rw [hwork] at hi
    obtain ⟨items, hinsert, rfl⟩ := Option.map_eq_some_iff.mp hstep
    have hgrow : w.committed ⊆ (w.record t
        { w.records t with stored := item.id :: (w.records t).stored }).committed :=
      committed_record (List.subset_cons_self _ _)
    refine closed (fun row hrow => ?_) h.rows.summaries rfl rfl hgrow rfl (answers_record rfl)
    rcases (Table.mem_of_insert hinsert).mp hrow with hrow | rfl
    · exact ⟨h.rows.items row hrow, hgrow (h.stored row hrow)⟩
    · refine ⟨hi.1 ▸ hi.2, ?_⟩
      simp [committed, record, hi.1]
  · -- a forget
    rename_i id hwork
    cases hstep
    have hgrow : w.committed ⊆ (w.record t
        { w.records t with forgotten := id :: (w.records t).forgotten }).committed :=
      committed_record (List.Subset.refl _)
    exact closed (fun row hrow => ⟨h.rows.items row (Table.mem_delete.mp hrow).1,
      hgrow (h.stored row (Table.mem_delete.mp hrow).1)⟩) h.rows.summaries rfl rfl hgrow rfl
      (answers_record rfl)
  · -- the access statistics
    cases hstep
    exact closed (owned_update h.items (by exact fun _ => rfl) (by exact fun _ => rfl))
      h.rows.summaries rfl rfl subset_rfl rfl fun _ => rfl
  · cases hstep
    exact closed h.items h.rows.summaries rfl rfl subset_rfl rfl fun _ => rfl
  · -- a compression run
    rename_i summary ids hwork
    rw [hwork] at hi
    obtain ⟨summaries, hinsert, rfl⟩ := Option.map_eq_some_iff.mp hstep
    refine closed (owned_update h.items (by exact fun _ => rfl) (by exact fun _ => rfl))
      (fun row hrow => ?_) rfl rfl subset_rfl rfl fun _ => rfl
    rcases (Table.mem_of_insert hinsert).mp hrow with hrow | rfl
    · exact h.rows.summaries row hrow
    · exact hi.1.1 ▸ hi.1.2
  · cases hstep

theorem Apart.perform (h : w.Apart) (hstep : w.perform svc t i o = some w') : w'.Apart := by
  cases h.moved hstep with
  | next hwork => exact h.quiet rfl rfl rfl hwork (fun _ => id) rfl
  | draw hnew hwork => exact h.draw hnew hwork
  | lock hwork => exact h.quiet rfl rfl rfl hwork (fun _ => id) rfl
  | scan hkeys hwork => exact h.quiet rfl rfl rfl hwork (fun _ => List.mem_of_mem_filter) rfl
  | setex hwork hresults =>
    refine h.keep rfl subset_rfl subset_rfl h.rows h.stored h.unique hwork (fun e he => ?_)
      fun _ _ ha => .inl ha
    rcases List.mem_cons.mp he with rfl | he
    · refine .inr fun u hkey => ?_
      rw [listed_cacheKey.mp hkey]
      exact hresults
    · exact .inl (List.mem_of_mem_filter he)
  | @respond a work hwork ha =>
    have hgrow : w.committed ⊆ ((w.set t i work).record t
        { w.records t with answers := a :: (w.records t).answers }).committed :=
      committed_record (w := w.set t i work) (List.Subset.refl _)
    refine h.keep rfl subset_rfl hgrow h.rows (fun item hitem => hgrow (h.stored item hitem))
      h.unique (hwork.mono subset_rfl hgrow) (fun _ he => .inl he) fun u b hmem => ?_
    by_cases hu : u = t
    · subst hu
      simp only [record, set, Function.update_self, List.mem_cons] at hmem
      rcases hmem with rfl | hmem
      · exact .inr (ha.mono hgrow)
      · exact .inl hmem
    · simp only [record, set, Function.update_of_ne hu] at hmem
      exact .inl hmem
  | commit hcommit => exact h.commit hcommit
  | abort =>
    have hwork : WorkOwned t w.owners w.committed (.idle : Work V R) := trivial
    exact h.quiet rfl rfl rfl hwork (fun _ => id) rfl

/-! ## What the tenant's memory does -/

/-- An operation of a session of the tenant. -/
theorem Apart.perform_of (h : w.Apart) (hstep : w.perform svc t i o = some w') :
    Memory.perform svc t (w.of t) i o = some (w'.of t) := by
  have hi := h.works t i
  unfold Tenants.perform at hstep
  split at hstep
  · -- store
    rename_i body hwork
    cases hstep
    have hwork' : (w.of t).sessions i = .idle := hwork
    simp only [Memory.perform, hwork', of_set]
    rfl
  · -- insert
    rename_i id body since hwork
    split at hstep
    · rename_i vector hvector
      split at hstep
      · cases hstep
      · rename_i hnew
        cases hstep
        have hwork' : (w.of t).sessions i = .storing body since := hwork
        have hnew' : id ∉ (w.of t).drawn := mt snd_of_drawn hnew
        simp only [Memory.perform, hwork', hvector, if_neg hnew', of_draw, of_set]
        rfl
    · cases hstep
  · -- forget
    rename_i id hwork
    cases hstep
    have hwork' : (w.of t).sessions i = .idle := hwork
    simp only [Memory.perform, hwork', of_set]
  · -- select
    rename_i id hwork
    split at hstep
    · rename_i item hitem
      cases hstep
      have hwork' : (w.of t).sessions i = .forgetting id := hwork
      have hitem' : ((w.of t).db.items.find? fun item => item.id = id && item.tenantId = t) =
          some item := by rw [← hitem]; exact find?_of t w.db _
      simp only [Memory.perform, hwork', hitem', of_set]
    · cases hstep
  · -- delete
    rename_i id hwork
    rw [hwork] at hi
    split at hstep
    · rename_i hfree
      cases hstep
      have hwork' : (w.of t).sessions i = .deleting id := hwork
      have hids : ∀ x ∈ [id], (t, x) ∈ w.owners := fun x hx => List.mem_singleton.mp hx ▸ hi
      simp only [Memory.perform, hwork', lockFree_of hfree, if_true, of_lock, of_set,
        h.existing_eq hids]
    · cases hstep
  · -- startScan
    rename_i write hwork
    cases hstep
    have hwork' : (w.of t).sessions i = .written write := hwork
    simp only [Memory.perform, hwork', of_set]
    rfl
  · -- scan
    rename_i keys write present hwork
    split at hstep
    · rename_i hkeys
      cases hstep
      have hwork' : (w.of t).sessions i = .scanning write present := hwork
      simp only [Memory.perform, hwork']
      exact congrArg some (of_scan keys _).symm
    · cases hstep
  · -- endScan
    rename_i write present hwork
    split at hstep
    · rename_i hgone
      cases hstep
      have hwork' : (w.of t).sessions i = .scanning write present := hwork
      have hgone' : ((w.of t).cache.all fun e => !present.contains e.token) = true := by
        rw [of, List.all_filter]
        exact hgone
      simp only [Memory.perform, hwork', hgone', if_true, of_set]
    · cases hstep
  · -- search
    rename_i body hwork
    cases hstep
    have hwork' : (w.of t).sessions i = .idle := hwork
    simp only [Memory.perform, hwork', of_set]
    rfl
  · -- get
    rename_i asked hwork
    have hwork' : (w.of t).sessions i = .searching asked := hwork
    have hfind : ((w.of t).cache.find? fun e => e.key = cacheKey svc t asked.body) =
        w.cache.find? fun e => e.key = cacheKey svc t asked.body :=
      find?_cache (listed_cacheKey.mpr rfl)
    split at hstep
    · rename_i e he
      cases hstep
      simp only [Memory.perform, hwork', hfind, he, of_set]
    · rename_i he
      cases hstep
      simp only [Memory.perform, hwork', hfind, he, of_set]
  · -- read, with more to read
    rename_i asked known next hwork
    rw [hwork] at hi
    cases hstep
    have hwork' : (w.of t).sessions i = .gathering asked known (.read next) := hwork
    have hnext : next ⟨(w.of t).db, svc.embed⟩ = next ⟨w.db, svc.embed⟩ :=
      (hi.1 ⟨w.db, svc.embed⟩).1
    simp only [Memory.perform, hwork', of_set, hnext]
    rfl
  · -- read, of the rows of the candidates
    rename_i asked known all hwork
    rw [hwork] at hi
    cases hstep
    have hwork' : (w.of t).sessions i = .gathering asked known (.done all) := hwork
    have hread : readResults svc t
          (rerank svc.arith w.now all asked.body.topK svc.recencyHalfLifeDays) (w.of t).db =
        readResults svc t
          (rerank svc.arith w.now all asked.body.topK svc.recencyHalfLifeDays) w.db :=
      h.readResults_of fun c hc => hi.2 _ (mem_ranking (mem_of_sliceTo hc))
    simp only [Memory.perform, hwork', of_set]
    rw [show (w.of t).now = w.now from rfl, hread]
    rfl
  · -- setex
    rename_i asked known results ids hwork
    cases hstep
    have hwork' : (w.of t).sessions i = .filling asked known results ids := hwork
    simp only [Memory.perform, hwork', of_set, of_setex (listed_cacheKey.mpr rfl)]
  · -- respond
    rename_i asked hit results ids hwork
    cases hstep
    have hwork' : (w.of t).sessions i = .answering asked hit results ids := hwork
    simp only [Memory.perform, hwork', of_record, of_set]
    rfl
  · -- touch
    rename_i ids hwork
    split at hstep
    · rename_i hfree
      cases hstep
      have hwork' : (w.of t).sessions i = .touching ids := hwork
      simp only [Memory.perform, hwork', existingOf_eq, lockFree_of hfree, if_true, of_lock, of_set]
      rfl
    · cases hstep
  · -- compress
    rename_i hwork
    cases hstep
    have hwork' : (w.of t).sessions i = .idle := hwork
    simp only [Memory.perform, hwork', of_set]
  · -- pick
    rename_i hwork
    cases hstep
    have hwork' : (w.of t).sessions i = .compressing := hwork
    have hpick : selectForCompression svc t w.now (w.of t).db =
        selectForCompression svc t w.now w.db := selectForCompression_of svc t w.db w.now
    simp only [Memory.perform, hwork', of_set]
    rw [show (w.of t).now = w.now from rfl, hpick]
  · -- summarise
    rename_i id text item items hwork
    split at hstep
    · rename_i vector hvector
      split at hstep
      · cases hstep
      · rename_i hnew
        cases hstep
        have hwork' : (w.of t).sessions i = .picked (item :: items) := hwork
        have hnew' : id ∉ (w.of t).drawn := mt snd_of_drawn hnew
        simp only [Memory.perform, hwork', hvector, if_neg hnew', of_draw, of_set]
        rfl
    · cases hstep
  · -- mark
    rename_i summary hwork
    rw [hwork] at hi
    split at hstep
    · rename_i hfree
      cases hstep
      have hwork' : (w.of t).sessions i = .summarised summary := hwork
      have hexisting := h.existing_eq hi.2
      simp only [Memory.perform, hwork', hexisting, lockFree_of hfree, if_true, of_lock, of_set]
    · cases hstep
  · -- commit
    rw [Memory.perform]
    exact h.commit_of hstep
  · -- abort
    cases hstep
    rw [of_close, Memory.perform]
  · cases hstep

end Tenants

/-! ## Whole runs -/

/-- The service is, to each tenant, that tenant's memory. -/
theorem projects_of (svc : MemoryService V R) (t : Uuid) :
    Projects (serve svc) (step svc t) (fun w => w.of t) (Request.of t) Tenants.Apart where
  keep := by
    intro w w' a h hstep
    cases a with
    | tick d =>
      cases hstep
      exact ⟨h.rows, h.stored, h.unique, h.works,
        fun e he => h.cache e (List.mem_of_mem_filter he), h.answers⟩
    | op u i o => exact h.perform hstep
  seen := by
    intro w w' a b h hstep hact
    cases a with
    | tick d =>
      cases hstep
      cases hact
      exact congrArg some (w.of_tick t d).symm
    | op u i o =>
      rw [Request.of] at hact
      split at hact
      · rename_i hu
        subst hu
        cases hact
        exact h.perform_of hstep
      · cases hact
  unseen := by
    intro w w' a h hstep hact
    cases a with
    | tick d => cases hact
    | op u i o =>
      rw [Request.of] at hact
      split at hact
      · cases hact
      · rename_i hu
        exact h.perform_other (Ne.symm hu) hstep

/-- The same, whatever the embedder answers from one request to the next. -/
theorem projects_given (svc : MemoryService V R) (t : Uuid) :
    Projects (serveGiven svc) (stepGiven svc t) (fun w => w.of t) (Request.givenOf t)
      Tenants.Apart where
  keep h hstep := (projects_of _ t).keep h hstep
  seen h hstep hact := by
    obtain ⟨b, hb, rfl⟩ := Option.map_eq_some_iff.mp hact
    exact (projects_of _ t).seen h hstep hb
  unseen h hstep hact := (projects_of _ t).unseen h hstep (Option.map_eq_none_iff.mp hact)

/-! ## Two tenants -/

def otherTenant : Uuid := .repdigit 15

/-- A search, with the four statements it runs where one model is in use. -/
def searchActions (i : Nat) (query : String) : List Action :=
  [.op i (.search { query }), .op i .get, .op i .read, .op i .read, .op i .read, .op i .read,
    .op i .setex, .op i .respond, .op i .touch, .op i .commit]

/-- Both store an item and ask for tea; the other tenant forgets its item in between. -/
def twoTenants : List Request :=
  [.op sampleTenant 0 (.store { content := "tea", memoryType := .semantic }),
    .op otherTenant 0 (.store { content := "tea", memoryType := .semantic }),
    .op otherTenant 0 (.insert (.repdigit 2)), .op sampleTenant 0 (.insert (.repdigit 1)),
    .op otherTenant 0 .startScan, .op sampleTenant 0 .startScan, .op sampleTenant 0 .endScan,
    .op otherTenant 0 .endScan, .op sampleTenant 0 .commit, .op otherTenant 0 .commit] ++
  (searchActions 1 "tea").map (.sent otherTenant) ++
  (searchActions 1 "tea").map (.sent sampleTenant) ++
  [.op otherTenant 2 (.forget (.repdigit 2)), .op otherTenant 2 .select, .op otherTenant 2 .delete,
    .op otherTenant 2 .startScan,
    .op otherTenant 2 (.scan [cacheKey sampleService otherTenant { query := "tea" }]),
    .op otherTenant 2 .endScan, .op otherTenant 2 .commit] ++
  [.op sampleTenant 3 (.search { query := "tea" }), .op sampleTenant 3 .get,
    .op sampleTenant 3 .respond]

end Sutram.Memory
