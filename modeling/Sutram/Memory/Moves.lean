/-
What a session can do in one operation.

Most operations change only where the session is; `Next` says what is known of the
place it comes to.  The others change the cache, the answers or the committed database.
-/
import Sutram.Memory.System

namespace Sutram.Memory

open Sutram.Core

variable {V R : Type}

/-- The write of a session that has flushed one and not committed it. -/
def Work.write : Work V R → Option (Write V)
  | .written write | .scanning write _ | .invalidated write => some write
  | _ => none

/-- The request of a search that has missed the cache, before it has results. -/
def Work.asked : Work V R → Option Asked
  | .searching asked | .gathering asked _ _ => some asked
  | _ => none

/-- A place of which nothing needs to be known. -/
def Work.isPlain : Work V R → Bool
  | .idle | .storing _ _ | .forgetting _ | .touching _ | .touched _ _ | .compressing => true
  | _ => false

section

variable (w : World V R) (i : Nat)

/-- The place a session comes to when it changes nothing else, with the ids drawn by
then. -/
inductive Next : Work V R → List Uuid → Prop
  | plain {work : Work V R} (hplain : work.isPlain) : Next work w.drawn
  | insert {item : MemoryItemORM V} (hnew : item.id ∉ w.drawn) (hactive : item.compressed = false) :
    Next (.written (.stored item)) (item.id :: w.drawn)
  | select {item : MemoryItemORM V} (hitem : item ∈ w.db.items.rows) :
    Next (.deleting item.id) w.drawn
  | delete {id : Uuid} (h : w.sessions i = .deleting id) :
    Next (.written (.forgotten id)) w.drawn
  | write {write : Write V} {work : Work V R} (h : (w.sessions i).write = some write)
      (hwork : work.write = some write) : Next work w.drawn
  | search (body : MemorySearchRequest) : Next (.searching ⟨body, w.stored, w.forgotten⟩) w.drawn
  | hit {asked : Asked} {e : CacheEntry R} (h : (w.sessions i).asked = some asked)
      (he : e ∈ w.cache) : Next (.answering asked (some e.known) e.results []) w.drawn
  | gather {asked : Asked} {known : Option (List Uuid)}
      {rest : Reading (Backends V) (List (CandidateRow R))}
      (h : (w.sessions i).asked = some asked) : Next (.gathering asked known rest) w.drawn
  | fill {asked : Asked} {known : List Uuid} {results : List (MemorySearchResult R)}
      {candidateIds : List Uuid} (h : (w.sessions i).asked = some asked)
      (hresults : ∀ r ∈ results, ∃ item ∈ w.db.items.rows, item.id = r.item.id) :
    Next (.filling asked known results candidateIds) w.drawn
  | pick {items : List (MemoryItemORM V)} (hitems : ∀ item ∈ items, item ∈ w.db.items.rows) :
    Next (.picked items) w.drawn
  | summarise {items : List (MemoryItemORM V)} {summary : MemorySummaryORM V}
      (h : w.sessions i = .picked items)
      (hids : summary.originalIds = items.map MemoryItemORM.id) :
    Next (.summarised summary) (summary.id :: w.drawn)
  | mark {summary : MemorySummaryORM V} (h : w.sessions i = .summarised summary) :
    Next (.marked summary (w.existing summary.originalIds)) w.drawn

/-- The operations of a session, with what they change. -/
inductive Moved (svc : MemoryService V R) (tenantId : Uuid) : Op → World V R → Prop
  | next {o : Op} {work : Work V R} {drawn : List Uuid} {locks : List (Uuid × Nat)}
      (hnext : Next w i work drawn) :
    Moved svc tenantId o { w.set i work with drawn, locks }
  | scan {keys : List String} {write : Write V} {present : List Nat}
      (h : w.sessions i = .scanning write present) :
    Moved svc tenantId (.scan keys)
      { w.set i (.scanning write present) with
        cache := w.cache.filter fun e => !keys.contains e.key }
  | setex {asked : Asked} {known : List Uuid} {results : List (MemorySearchResult R)}
      {candidateIds : List Uuid} (h : w.sessions i = .filling asked known results candidateIds) :
    Moved svc tenantId .setex
      ((w.setex (cacheKey svc tenantId asked.body) svc.queryCacheTtl results known).set i
        (.answering asked none results candidateIds))
  | respond {asked : Asked} {hit : Option (List Uuid)} {results : List (MemorySearchResult R)}
      {candidateIds : List Uuid} {work : Work V R}
      (h : w.sessions i = .answering asked hit results candidateIds) (hplain : work.isPlain) :
    Moved svc tenantId .respond
      { w.set i work with answers := ⟨asked, hit, results⟩ :: w.answers }
  | stored {item : MemoryItemORM V} {items : Table fun item : MemoryItemORM V => item.id}
      (h : w.sessions i = .invalidated (.stored item))
      (hinsert : w.db.items.insert item = some items) :
    Moved svc tenantId .commit
      { w.close i with db := { w.db with items }, stored := item.id :: w.stored }
  | forgotten {id : Uuid} (h : w.sessions i = .invalidated (.forgotten id)) :
    Moved svc tenantId .commit
      { w.close i with
        db := { w.db with items := w.db.items.delete id }
        forgotten := id :: w.forgotten }
  | touched {ids : List Uuid} {accessedAt : Nat} (h : w.sessions i = .touched ids accessedAt) :
    Moved svc tenantId .commit { w.close i with db := w.db.touch ids accessedAt }
  | compressed {summary : MemorySummaryORM V} {ids : List Uuid}
      {summaries : Table fun summary : MemorySummaryORM V => summary.id}
      (h : w.sessions i = .marked summary ids)
      (hinsert : w.db.summaries.insert summary = some summaries) :
    Moved svc tenantId .commit
      { w.close i with db := { w.db.markCompressed ids with summaries } }

end

variable {svc : MemoryService V R} {tenantId : Uuid} {w w' : World V R} {i : Nat} {o : Op}

/-- A result shows a row. -/
theorem row_of_mem_readResults {candidates : List (ScoredCandidate R)} {db : MemoryDb V}
    {r : MemorySearchResult R} (h : r ∈ readResults svc tenantId candidates db) :
    ∃ item ∈ db.items.rows, item.id = r.item.id := by
  rw [readResults_eq, List.mem_filterMap] at h
  obtain ⟨c, -, hc⟩ := h
  obtain ⟨item, hitem, rfl⟩ := Option.map_eq_some_iff.mp hc
  exact ⟨item, Table.mem_of_find? hitem, rfl⟩

theorem commit_moved (h : commit w i = some w') : Moved w i svc tenantId .commit w' := by
  unfold commit at h
  split at h
  · rename_i item hwork
    obtain ⟨items, hinsert, rfl⟩ := Option.map_eq_some_iff.mp h
    exact .stored hwork hinsert
  · rename_i id hwork
    cases h
    exact .forgotten hwork
  · rename_i ids accessedAt hwork
    cases h
    exact .touched hwork
  · cases h
    exact .next (.plain rfl)
  · rename_i summary ids hwork
    obtain ⟨summaries, hinsert, rfl⟩ := Option.map_eq_some_iff.mp h
    exact .compressed hwork hinsert
  · cases h

theorem perform_moved (h : perform svc tenantId w i o = some w') : Moved w i svc tenantId o w' := by
  unfold perform at h
  split at h
  · -- store
    cases h
    exact .next (.plain rfl)
  · -- insert
    split at h
    · split at h
      · cases h
      · rename_i hnew
        cases h
        exact .next (.insert hnew rfl)
    · cases h
  · -- forget
    cases h
    exact .next (.plain rfl)
  · -- select
    split at h
    · rename_i item hitem
      cases h
      have hid := Table.of_find? hitem
      simp only [Bool.and_eq_true, decide_eq_true_eq] at hid
      obtain ⟨rfl, -⟩ := hid
      exact .next (.select (Table.mem_of_find? hitem))
    · cases h
  · -- delete
    rename_i hwork
    split at h
    · cases h
      exact .next (.delete hwork)
    · cases h
  · -- startScan
    rename_i write hwork
    cases h
    exact .next (.write (by rw [hwork]; rfl) rfl)
  · -- scan
    rename_i hwork
    cases h
    exact .scan hwork
  · -- endScan
    rename_i write present hwork
    split at h
    · cases h
      exact .next (.write (by rw [hwork]; rfl) rfl)
    · cases h
  · -- search
    cases h
    exact .next (.search _)
  · -- get
    rename_i asked hwork
    have hasked : (w.sessions i).asked = some asked := by rw [hwork]; rfl
    split at h
    · rename_i e he
      cases h
      exact .next (.hit hasked (List.mem_of_find?_eq_some he))
    · cases h
      exact .next (.gather hasked)
  · -- read, with more to read
    rename_i asked known rest hwork
    cases h
    exact .next (.gather (by rw [hwork]; rfl))
  · -- read, of the rows of the candidates
    rename_i asked known all hwork
    cases h
    refine .next (.fill (by rw [hwork]; rfl) fun r hr => ?_)
    split at hr
    · cases hr
    · exact row_of_mem_readResults hr
  · -- setex
    rename_i hwork
    cases h
    exact .setex hwork
  · -- respond
    rename_i hwork
    cases h
    refine .respond hwork ?_
    split <;> rfl
  · -- touch
    split at h
    · cases h
      exact .next (.plain rfl)
    · cases h
  · -- compress
    cases h
    exact .next (.plain rfl)
  · -- pick
    cases h
    refine .next (.pick fun item hitem => ?_)
    exact List.mem_of_mem_filter ((List.mem_insertionSort _).mp (List.mem_of_mem_take hitem))
  · -- summarise
    rename_i hwork
    split at h
    · split at h
      · cases h
      · cases h
        exact .next (.summarise hwork rfl)
    · cases h
  · -- mark
    rename_i hwork
    split at h
    · cases h
      exact .next (.mark hwork)
    · cases h
  · -- commit
    exact commit_moved h
  · -- abort
    cases h
    exact .next (.plain rfl)
  · cases h

end Sutram.Memory
