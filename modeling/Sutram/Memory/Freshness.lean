/-
Whether the query cache answers with what the tenant has committed.

A store and a forget invalidate the cache before they commit, and a search fills it
after it has read the database.  So an entry made from reads before a commit can be
there after it: filled between the invalidation and the commit, or filled later.
-/
import Sutram.Memory.Sound

namespace Sutram.Memory

open Sutram.Core Runs

variable {V R : Type} {w w' : World V R} {svc : MemoryService V R} {tenantId : Uuid} {i : Nat}

/-- No result had been forgotten when the search started, and a cached answer was
computed after the commit of every store that was committed then. -/
structure Answer.Fresh (a : Answer R) : Prop where
  forgotten : a.asked.Keeps a.results
  stored : ∀ known, a.hit = some known → ∀ id ∈ a.asked.stored, id ∈ known

def AnswersFresh (w : World V R) : Prop := ∀ a ∈ w.answers, a.Fresh

/-- The cache is filled only when no store has committed since the search first read the
database, and no result has been forgotten.  A store commits only while the cache is
empty, and a forget only while no entry lists its item. -/
def keepsCacheFresh (w : World V R) : Action → Bool
  | .op i .setex =>
    match w.sessions i with
    | .filling _ known results _ =>
      w.stored.all (fun id => known.contains id) &&
        results.all fun r => !w.forgotten.contains r.item.id
    | _ => true
  | .op i .commit =>
    match w.sessions i with
    | .invalidated (.stored _) => w.cache.isEmpty
    | .invalidated (.forgotten id) => w.cache.all fun e => e.results.all fun r => r.item.id ≠ id
    | _ => true
  | _ => true

/-! ## Entries -/

/-- The entry was computed after every store, and lists nothing forgotten. -/
structure EntryFresh (w : World V R) (e : CacheEntry R) : Prop where
  stored : ∀ id ∈ w.stored, id ∈ e.known
  forgotten : ∀ r ∈ e.results, r.item.id ∉ w.forgotten

structure CacheFresh (w : World V R) : Prop extends Sound w where
  entries : ∀ e ∈ w.cache, EntryFresh w e
  /-- a search that has been answered by the cache -/
  hits : ∀ i asked known results ids, w.sessions i = .answering asked (some known) results ids →
    Answer.Fresh ⟨asked, some known, results⟩
  answers : AnswersFresh w

/-- An entry answers every search of which the records are sound. -/
theorem EntryFresh.answer {e : CacheEntry R} {asked : Asked} (h : EntryFresh w e)
    (hasked : AskedSound w asked) : Answer.Fresh ⟨asked, some e.known, e.results⟩ where
  forgotten r hr hid := h.forgotten r hr (hasked.forgotten _ hid)
  stored known hknown id hid := by
    cases hknown
    exact h.stored id (hasked.stored id hid)

/-- The session that moves has not just been answered by the cache. -/
theorem hits_set {work : Work V R} (h : CacheFresh w)
    (hsessions : w'.sessions = Function.update w.sessions i work)
    (hwork : ∀ asked known results ids, work = .answering asked (some known) results ids →
      Answer.Fresh ⟨asked, some known, results⟩) :
    ∀ j asked known results ids, w'.sessions j = .answering asked (some known) results ids →
      Answer.Fresh ⟨asked, some known, results⟩ := by
  intro j asked known results ids hj
  by_cases hji : j = i
  · rw [hji, hsessions, Function.update_self] at hj
    exact hwork asked known results ids hj
  · rw [hsessions, Function.update_of_ne hji] at hj
    exact h.hits j asked known results ids hj

theorem Next.hit_fresh {work : Work V R} {drawn : List Uuid} (h : CacheFresh w)
    (hnext : Next w i work drawn) (asked : Asked) (known : List Uuid)
    (results : List (MemorySearchResult R)) (ids : List Uuid)
    (hwork : work = .answering asked (some known) results ids) :
    Answer.Fresh ⟨asked, some known, results⟩ := by
  cases hnext with
  | hit hasked he =>
    cases hwork
    exact (h.entries _ he).answer (asked_sound (h.works i) hasked)
  | plain hplain =>
    subst hwork
    cases hplain
  | write hold hwrite =>
    subst hwork
    cases hwrite
  | _ => cases hwork

theorem mem_setex {e : CacheEntry R} {key : String} {ttl : Nat}
    {results : List (MemorySearchResult R)} {known : List Uuid}
    (h : e ∈ (w.setex key ttl results known).cache) :
    e ∈ w.cache ∨ e.results = results ∧ e.known = known := by
  rcases List.mem_cons.mp h with rfl | hold
  · exact .inr ⟨rfl, rfl⟩
  · exact .inl (List.mem_of_mem_filter hold)

/-! ## Runs -/

/-- A step that adds no entry and no answer, and records no commit. -/
theorem CacheFresh.quiet {work : Work V R} (h : CacheFresh w) (hsound : Sound w')
    (hsessions : w'.sessions = Function.update w.sessions i work)
    (hstored : w'.stored = w.stored) (hforgotten : w'.forgotten = w.forgotten)
    (hcache : ∀ e ∈ w'.cache, e ∈ w.cache) (hanswers : w'.answers = w.answers)
    (hwork : ∀ asked known results ids, work = .answering asked (some known) results ids →
      Answer.Fresh ⟨asked, some known, results⟩) : CacheFresh w' where
  toSound := hsound
  entries e he := by
    have hold := h.entries e (hcache e he)
    exact ⟨by rw [hstored]; exact hold.stored, by rw [hforgotten]; exact hold.forgotten⟩
  hits := hits_set h hsessions hwork
  answers := by
    rw [AnswersFresh, hanswers]
    exact h.answers

theorem cacheFresh_step {a : Action} (h : CacheFresh w) (hguard : keepsCacheFresh w a = true)
    (hstep : step svc tenantId w a = some w') : CacheFresh w' := by
  have hsound := sound_step h.toSound hstep
  cases a with
  | tick d =>
    cases hstep
    exact h.quiet hsound (Function.update_eq_self 0 w.sessions).symm rfl rfl
      (fun e he => List.mem_of_mem_filter he) rfl (h.hits 0)
  | op i o =>
    have hi := h.works i
    cases perform_moved hstep with
    | next hnext =>
      exact h.quiet hsound rfl rfl rfl (fun _ he => he) rfl (hnext.hit_fresh h)
    | scan hold =>
      exact h.quiet hsound rfl rfl rfl (fun e he => List.mem_of_mem_filter he) rfl
        fun _ _ _ _ hwork => by cases hwork
    | setex hold =>
      simp only [keepsCacheFresh, hold, Bool.and_eq_true, List.all_eq_true, Bool.not_eq_true',
        List.contains_iff_mem] at hguard
      obtain ⟨hknown, hresults⟩ := hguard
      refine ⟨hsound, ?_, hits_set h rfl ?_, h.answers⟩
      · intro e he
        rcases mem_setex he with he | ⟨hentryResults, hentryKnown⟩
        · exact ⟨(h.entries e he).stored, (h.entries e he).forgotten⟩
        · refine ⟨fun id hid => ?_, fun r hr hid => ?_⟩
          · rw [hentryKnown]
            exact hknown id hid
          · rw [hentryResults] at hr
            have hkept := hresults r hr
            have hgone : w.forgotten.contains r.item.id = true := List.contains_iff_mem.mpr hid
            rw [hgone] at hkept
            cases hkept
      · intro _ _ _ _ hwork
        cases hwork
    | @respond asked hit results ids work hold hplain =>
      rw [hold] at hi
      refine ⟨hsound, fun e he => ⟨(h.entries e he).stored, (h.entries e he).forgotten⟩,
        hits_set h rfl ?_, ?_⟩
      · intro _ _ _ _ hwork
        subst hwork
        cases hplain
      · intro answer hanswer
        rcases List.mem_cons.mp hanswer with rfl | hanswer
        · cases hit with
          | none => exact ⟨hi.2 rfl, fun known hknown => by cases hknown⟩
          | some known => exact h.hits i asked known results ids hold
        · exact h.answers answer hanswer
    | stored hold hinsert =>
      have hempty : w.cache = [] := by
        simpa [keepsCacheFresh, hold] using hguard
      refine ⟨hsound, fun e he => ?_, hits_set h rfl ?_, h.answers⟩
      · have he : e ∈ w.cache := he
        rw [hempty] at he
        cases he
      · intro _ _ _ _ hwork
        cases hwork
    | @forgotten id hold =>
      have hunlisted : ∀ e ∈ w.cache, ∀ r ∈ e.results, r.item.id ≠ id := by
        simpa [keepsCacheFresh, hold] using hguard
      refine ⟨hsound, fun e he => ⟨(h.entries e he).stored, fun r hr hid => ?_⟩,
        hits_set h rfl ?_, h.answers⟩
      · rcases List.mem_cons.mp hid with heq | hid
        · exact hunlisted e he r hr heq
        · exact (h.entries e he).forgotten r hr hid
      · intro _ _ _ _ hwork
        cases hwork
    | touched | compressed =>
      exact h.quiet hsound rfl rfl rfl (fun _ he => he) rfl fun _ _ _ _ hwork => by cases hwork

theorem cacheFresh_initial : CacheFresh (World.initial : World V R) where
  toSound := sound_initial
  entries _ h := by cases h
  hits _ _ _ _ _ h := by cases h
  answers _ h := by cases h

/-- In a run that keeps the cache fresh, every answer is fresh. -/
theorem answers_fresh (svc : MemoryService V R) (tenantId : Uuid) (w : World V R)
    (as : List Action)
    (hguard : Along (step svc tenantId) (fun w a _ => keepsCacheFresh w a) .initial as)
    (hrun : run (step svc tenantId) .initial as = some w) : AnswersFresh w :=
  (invariant_run (fun _ _ _ h hguard hstep => cacheFresh_step h hguard hstep) cacheFresh_initial
    hguard hrun).answers

/-! ## Stale entries -/

def teaSearch : MemorySearchRequest := { query := "tea" }

/-- A search that misses the cache, up to its results. -/
def missActions (i reads : Nat) : List Action :=
  [.op i (.search teaSearch), .op i .get] ++ List.replicate reads (.op i .read)

/-- A search that the cache answers. -/
def hitActions (i : Nat) : List Action :=
  [.op i (.search teaSearch), .op i .get, .op i .respond]

/-- The cache is filled between the invalidation of a forget and its commit. -/
def fillBeforeCommit : List Action :=
  storeActions 0 (.repdigit 1) "tea" ++
    [.op 1 (.forget (.repdigit 1)), .op 1 .select, .op 1 .delete, .op 1 .startScan,
      .op 1 .endScan] ++
    missActions 2 4 ++ [.op 2 .setex, .op 2 .respond, .op 1 .commit] ++ hitActions 3

/-- The cache is filled after a store has committed, from what was read before. -/
def fillAfterCommit : List Action :=
  missActions 0 3 ++ storeActions 1 (.repdigit 1) "tea" ++ [.op 0 .setex] ++ hitActions 2

/-- The last search of the first run returns the forgotten item, and that of the second
is answered from an entry that was computed before the store. -/
theorem cache_answers_stale :
    (∃ w, run (step sampleService sampleTenant) .initial fillBeforeCommit = some w ∧
      (∃ a ∈ w.answers, ∃ r ∈ a.results, r.item.id ∈ a.asked.forgotten) ∧ ¬ AnswersFresh w) ∧
    ∃ w, run (step sampleService sampleTenant) .initial fillAfterCommit = some w ∧
      (∃ a ∈ w.answers, a.hit = some [] ∧ a.asked.stored = [.repdigit 1] ∧ a.results = []) ∧
      ¬ AnswersFresh w := by
  constructor
  · have hend : (run (step sampleService sampleTenant) .initial fillBeforeCommit).any fun w =>
        ∃ a ∈ w.answers, ∃ r ∈ a.results, r.item.id ∈ a.asked.forgotten := by decide +kernel
    obtain ⟨w, hrun, a, ha, r, hr, hgone⟩ := exists_of_any hend
    exact ⟨w, hrun, ⟨a, ha, r, hr, hgone⟩, fun hfresh => (hfresh a ha).forgotten r hr hgone⟩
  · have hend : (run (step sampleService sampleTenant) .initial fillAfterCommit).any fun w =>
        ∃ a ∈ w.answers, a.hit = some [] ∧ a.asked.stored = [.repdigit 1] ∧ a.results = [] := by
      decide +kernel
    obtain ⟨w, hrun, a, ha, hhit, hstored, hresults⟩ := exists_of_any hend
    refine ⟨w, hrun, ⟨a, ha, hhit, hstored, hresults⟩, fun hfresh => ?_⟩
    have hmem := (hfresh a ha).stored [] hhit (.repdigit 1) (by rw [hstored]; exact .head _)
    cases hmem

/-- The forget finds the entry with its SCAN, and the search after it reads the database. -/
theorem answers_fresh_invalidated :
    ∃ w, run (step sampleService sampleTenant) .initial
        (storeActions 0 (.repdigit 1) "tea" ++ missActions 1 4 ++ [.op 1 .setex, .op 1 .respond] ++
          hitActions 2 ++
          [.op 3 (.forget (.repdigit 1)), .op 3 .select, .op 3 .delete, .op 3 .startScan,
            .op 3 (.scan [cacheKey sampleService sampleTenant teaSearch]), .op 3 .endScan,
            .op 3 .commit] ++
          missActions 4 3 ++ [.op 4 .setex, .op 4 .respond]) = some w ∧
      w.answers.map (fun a => a.results.length) = [0, 1, 1] ∧ AnswersFresh w := by
  have hend : (run (step sampleService sampleTenant) .initial
      (storeActions 0 (.repdigit 1) "tea" ++ missActions 1 4 ++ [.op 1 .setex, .op 1 .respond] ++
        hitActions 2 ++
        [.op 3 (.forget (.repdigit 1)), .op 3 .select, .op 3 .delete, .op 3 .startScan,
          .op 3 (.scan [cacheKey sampleService sampleTenant teaSearch]), .op 3 .endScan,
          .op 3 .commit] ++
        missActions 4 3 ++ [.op 4 .setex, .op 4 .respond])).any
      fun w => w.answers.map (fun a => a.results.length) = [0, 1, 1] := by decide +kernel
  obtain ⟨w, hrun, hw⟩ := exists_of_any hend
  exact ⟨w, hrun, hw, answers_fresh sampleService sampleTenant w _ (by decide +kernel) hrun⟩

end Sutram.Memory
