/-
Summaries and the items they stand for.

`forget_memory` deletes the item alone, and `compress_tenant` neither locks the items it
selects nor looks at them again after the LLM call.  So a forgotten item stays listed by
a summary made before, or made meanwhile, and two overlapping runs list an item twice.
The two sections say what is needed of every commit to rule this out.
-/
import Sutram.Memory.Sound

namespace Sutram.Memory

open Sutram.Core Runs

variable {V R : Type} {w w' : World V R} {svc : MemoryService V R} {tenantId : Uuid}

theorem mem_markCompressed {db : MemoryDb V} {ids : List Uuid} {item : MemoryItemORM V}
    (h : item ∈ (db.markCompressed ids).items.rows) :
    ∃ old ∈ db.items.rows, old.id = item.id ∧
      item.compressed = (old.compressed || ids.contains old.id) := by
  obtain ⟨old, hold, rfl⟩ := List.mem_map.mp h
  refine ⟨old, hold, ?_⟩
  split
  · rename_i hid
    have hid : ids.contains old.id = true := hid
    exact ⟨rfl, by rw [hid, Bool.or_true]⟩
  · rename_i hid
    have hid : ids.contains old.id = false := Bool.eq_false_iff.mpr hid
    exact ⟨rfl, by rw [hid, Bool.or_false]⟩

theorem mem_touch {db : MemoryDb V} {ids : List Uuid} {accessedAt : Nat} {item : MemoryItemORM V}
    (h : item ∈ (db.touch ids accessedAt).items.rows) :
    ∃ old ∈ db.items.rows, old.id = item.id ∧ item.compressed = old.compressed := by
  obtain ⟨old, hold, rfl⟩ := List.mem_map.mp h
  refine ⟨old, hold, ?_⟩
  split <;> exact ⟨rfl, rfl⟩

/-! ## Forgotten items -/

/-- No summary lists a forgotten item. -/
def ForgottenUnlisted (w : World V R) : Prop :=
  ∀ id ∈ w.forgotten, ∀ summary ∈ w.db.summaries.rows, id ∉ summary.originalIds

/-- A forget commits only while its item is not compressed, and a compression run only
while none of its items is forgotten. -/
def forgetsUncompressed (w : World V R) : Action → Bool
  | .op i .commit =>
    match w.sessions i with
    | .invalidated (.forgotten id) =>
      w.db.items.rows.all fun item => item.id ≠ id || !item.compressed
    | .marked summary _ => summary.originalIds.all fun id => !w.forgotten.contains id
    | _ => true
  | _ => true

/-- Every item listed by a summary is compressed. -/
structure Covered (w : World V R) : Prop extends Sound w where
  compressed : ∀ summary ∈ w.db.summaries.rows, ∀ item ∈ w.db.items.rows,
    item.id ∈ summary.originalIds → item.compressed = true
  unlisted : ForgottenUnlisted w

theorem covered_step {a : Action} (h : Covered w) (hguard : forgetsUncompressed w a = true)
    (hstep : step svc tenantId w a = some w') : Covered w' := by
  have hsound := sound_step h.toSound hstep
  cases a with
  | tick d =>
    cases hstep
    exact ⟨hsound, h.compressed, h.unlisted⟩
  | op i o =>
    have hi := h.works i
    cases perform_moved hstep with
    | next | scan | setex | respond => exact ⟨hsound, h.compressed, h.unlisted⟩
    | @stored item items hold hinsert =>
      rw [hold] at hi
      refine ⟨hsound, fun summary hsummary row hrow hid => ?_, h.unlisted⟩
      rcases (Table.mem_of_insert hinsert).mp hrow with hrow | rfl
      · exact h.compressed summary hsummary row hrow hid
      · exact absurd (h.listed summary hsummary _ hid) hi.2.1
    | @forgotten id hold =>
      refine ⟨hsound, fun summary hsummary row hrow hid =>
        h.compressed summary hsummary row (Table.mem_delete.mp hrow).1 hid, ?_⟩
      intro x hx summary hsummary hlisted
      rcases List.mem_cons.mp hx with rfl | hx
      · -- the row is there and not compressed, or the item is forgotten already
        rcases h.kept x (h.listed summary hsummary x hlisted) with hgone | ⟨row, hrow, rfl⟩
        · exact h.unlisted x hgone summary hsummary hlisted
        · have hactive : row.compressed = false := by
            have hall := hguard
            simp only [forgetsUncompressed, hold, List.all_eq_true] at hall
            simpa using hall row hrow
          rw [h.compressed summary hsummary row hrow hlisted] at hactive
          cases hactive
      · exact h.unlisted x hx summary hsummary hlisted
    | touched hold =>
      refine ⟨hsound, fun summary hsummary row hrow hid => ?_, h.unlisted⟩
      obtain ⟨old, hrow, heq, hsame⟩ := mem_touch hrow
      rw [hsame]
      exact h.compressed summary hsummary old hrow (by rwa [heq])
    | @compressed summary ids summaries hold hinsert =>
      rw [hold] at hi
      have hsummaries : ∀ s ∈ summaries.rows, s ∈ w.db.summaries.rows ∨ s = summary :=
        fun s hs => (Table.mem_of_insert hinsert).mp hs
      refine ⟨hsound, fun s hs row hrow hid => ?_, fun x hx s hs hlisted => ?_⟩
      · obtain ⟨old, hrow, heq, hmarked⟩ := mem_markCompressed hrow
        rw [← heq] at hid
        rcases hsummaries s hs with hs | rfl
        · rw [hmarked, h.compressed s hs old hrow hid, Bool.true_or]
        · rw [hmarked, List.contains_iff_mem.mpr (hi.2.2 old hrow hid), Bool.or_true]
      · rcases hsummaries s hs with hs | rfl
        · exact h.unlisted x hx s hs hlisted
        · have hall := hguard
          simp only [forgetsUncompressed, hold, List.all_eq_true] at hall
          have hx : w.forgotten.contains x = true := List.contains_iff_mem.mpr hx
          have hkept : (!w.forgotten.contains x) = true := hall x hlisted
          rw [hx] at hkept
          cases hkept

theorem covered_initial : Covered (World.initial : World V R) where
  toSound := sound_initial
  compressed _ h := by cases h
  unlisted _ h := by cases h

/-- In a run in which every forget commits while its item is not compressed, and every
compression run while none of its items is forgotten, no summary lists a forgotten item. -/
theorem forgotten_unlisted (svc : MemoryService V R) (tenantId : Uuid) (w : World V R)
    (as : List Action)
    (hguard : Along (step svc tenantId) (fun w a _ => forgetsUncompressed w a) .initial as)
    (hrun : run (step svc tenantId) .initial as = some w) : ForgottenUnlisted w := by
  exact (invariant_run (fun _ _ _ h hguard hstep => covered_step h hguard hstep) covered_initial
    hguard hrun).unlisted

instance (w : World V R) : Decidable (ForgottenUnlisted w) :=
  inferInstanceAs (Decidable (∀ id ∈ w.forgotten, ∀ summary ∈ w.db.summaries.rows,
    id ∉ summary.originalIds))

/-- An item is forgotten after its compression, and another one while a run that has
selected it waits for the LLM: the summaries keep them, and the searcher finds their
texts. -/
theorem summary_outlives_item :
    (∃ w, run (step sampleService sampleTenant) .initial
        (storeActions 0 (.repdigit 1) "tea" ++ eightDays ::
          compressActions 1 (.repdigit 2) "likes tea" ++ forgetActions 2 (.repdigit 1)) = some w ∧
      ¬ ForgottenUnlisted w ∧
      ((gather sampleService "tea" sampleTenant none).run w.db).map
        (fun cs => cs.map fun c => c.content) = some ["likes tea"]) ∧
    ∃ w, run (step sampleService sampleTenant) .initial
        (storeActions 0 (.repdigit 1) "tea" ++ [eightDays, .op 1 .compress, .op 1 .pick] ++
          forgetActions 2 (.repdigit 1) ++
          [.op 1 (.summarise (.repdigit 2) "likes tea"), .op 1 .mark, .op 1 .commit]) = some w ∧
      ¬ ForgottenUnlisted w := by
  constructor
  · exact exists_of_any (by decide +kernel)
  · exact exists_of_any (by decide +kernel)

/-- Forgotten in good time. -/
theorem forgotten_unlisted_early :
    ∃ w, run (step sampleService sampleTenant) .initial
        (storeActions 0 (.repdigit 1) "tea" ++ storeActions 1 (.repdigit 3) "coffee" ++
          forgetActions 2 (.repdigit 1) ++ eightDays ::
          compressActions 3 (.repdigit 2) "likes coffee") = some w ∧
      w.forgotten = [.repdigit 1] ∧ ForgottenUnlisted w := by
  have hend : (run (step sampleService sampleTenant) .initial
      (storeActions 0 (.repdigit 1) "tea" ++ storeActions 1 (.repdigit 3) "coffee" ++
        forgetActions 2 (.repdigit 1) ++ eightDays ::
        compressActions 3 (.repdigit 2) "likes coffee")).any
      fun w => w.forgotten = [.repdigit 1] := by decide +kernel
  obtain ⟨w, hrun, hw⟩ := exists_of_any hend
  exact ⟨w, hrun, hw, forgotten_unlisted sampleService sampleTenant w _ (by decide +kernel) hrun⟩

/-! ## Compressed items -/

/-- A compressed item is listed by one summary, any other item by none. -/
structure ListedOnce (w : World V R) : Prop where
  compressed : ∀ item ∈ w.db.items.rows, item.compressed = true →
    ∃! summary, summary ∈ w.db.summaries.rows ∧ item.id ∈ summary.originalIds
  active : ∀ item ∈ w.db.items.rows, item.compressed = false →
    ∀ summary ∈ w.db.summaries.rows, item.id ∉ summary.originalIds

/-- A compression run commits only while its items are not compressed. -/
def compressesActive (w : World V R) : Action → Bool
  | .op i .commit =>
    match w.sessions i with
    | .marked summary _ =>
      w.db.items.rows.all fun item => !summary.originalIds.contains item.id || !item.compressed
    | _ => true
  | _ => true

/-- The rows may change in columns other than these. -/
theorem ListedOnce.rewrite (h : ListedOnce w) (hsummaries : w'.db.summaries = w.db.summaries)
    (hrows : ∀ item ∈ w'.db.items.rows, ∃ old ∈ w.db.items.rows,
      old.id = item.id ∧ item.compressed = old.compressed) : ListedOnce w' where
  compressed item hitem hcompressed := by
    obtain ⟨old, hold, heq, hsame⟩ := hrows item hitem
    rw [hsummaries, ← heq]
    exact h.compressed old hold (by rw [← hsame, hcompressed])
  active item hitem hactive := by
    obtain ⟨old, hold, heq, hsame⟩ := hrows item hitem
    rw [hsummaries, ← heq]
    exact h.active old hold (by rw [← hsame, hactive])

theorem listedOnce_initial : ListedOnce (World.initial : World V R) where
  compressed _ h := by cases h
  active _ h := by cases h

theorem listedOnce_step {a : Action} (hsound : Sound w) (h : ListedOnce w)
    (hguard : compressesActive w a = true) (hstep : step svc tenantId w a = some w') :
    ListedOnce w' := by
  cases a with
  | tick d =>
    cases hstep
    exact ⟨h.compressed, h.active⟩
  | op i o =>
    have hi := hsound.works i
    cases perform_moved hstep with
    | next | scan | setex | respond => exact ⟨h.compressed, h.active⟩
    | @stored item items hold hinsert =>
      rw [hold] at hi
      have hrows : ∀ row ∈ items.rows, row ∈ w.db.items.rows ∨ row = item :=
        fun row hrow => (Table.mem_of_insert hinsert).mp hrow
      constructor
      · intro row hrow hcompressed
        rcases hrows row hrow with hrow | rfl
        · exact h.compressed row hrow hcompressed
        · rw [hi.2.2] at hcompressed
          cases hcompressed
      · intro row hrow hactive summary hsummary hlisted
        rcases hrows row hrow with hrow | rfl
        · exact h.active row hrow hactive summary hsummary hlisted
        · exact hi.2.1 (hsound.listed summary hsummary _ hlisted)
    | forgotten hold =>
      exact h.rewrite rfl fun item hitem => ⟨item, (Table.mem_delete.mp hitem).1, rfl, rfl⟩
    | touched hold => exact h.rewrite rfl fun item hitem => mem_touch hitem
    | @compressed summary ids summaries hold hinsert =>
      rw [hold] at hi
      obtain ⟨-, hids, hmarks⟩ := hi
      have hsummaries (s : MemorySummaryORM V) :
          s ∈ summaries.rows ↔ s ∈ w.db.summaries.rows ∨ s = summary :=
        Table.mem_of_insert hinsert
      -- the items of the run are the ones it marks, and none of them was compressed
      have hactive : ∀ old ∈ w.db.items.rows, ids.contains old.id = true →
          old.compressed = false := by
        intro old hrow hmarked
        have hall := hguard
        simp only [compressesActive, hold, List.all_eq_true] at hall
        have hlisted := hall old hrow
        rw [List.contains_iff_mem.mpr (hids _ (List.contains_iff_mem.mp hmarked))] at hlisted
        simpa using hlisted
      constructor
      · intro row hrow hcompressed
        obtain ⟨old, hrow, heq, hmarked⟩ := mem_markCompressed hrow
        rw [hcompressed] at hmarked
        rw [← heq]
        by_cases hmark : ids.contains old.id = true
        · have hunlisted := h.active old hrow (hactive old hrow hmark)
          have hlisted : old.id ∈ summary.originalIds := hids _ (List.contains_iff_mem.mp hmark)
          refine ⟨summary, ⟨(hsummaries summary).mpr (.inr rfl), hlisted⟩, ?_⟩
          rintro s ⟨hs, hlisted'⟩
          rcases (hsummaries s).mp hs with hs | rfl
          · exact absurd hlisted' (hunlisted s hs)
          · rfl
        · rw [Bool.eq_false_iff.mpr hmark, Bool.or_false] at hmarked
          obtain ⟨s, ⟨hs, hlisted⟩, hunique⟩ := h.compressed old hrow hmarked.symm
          refine ⟨s, ⟨(hsummaries s).mpr (.inl hs), hlisted⟩, ?_⟩
          rintro s' ⟨hs', hlisted'⟩
          rcases (hsummaries s').mp hs' with hs' | rfl
          · exact hunique s' ⟨hs', hlisted'⟩
          · exact absurd (List.contains_iff_mem.mpr (hmarks old hrow hlisted')) hmark
      · intro row hrow hunmarked s hs hlisted
        obtain ⟨old, hrow, heq, hmarked⟩ := mem_markCompressed hrow
        rw [hunmarked, eq_comm, Bool.or_eq_false_iff] at hmarked
        rw [← heq] at hlisted
        rcases (hsummaries s).mp hs with hs | rfl
        · exact h.active old hrow hmarked.1 s hs hlisted
        · rw [List.contains_iff_mem.mpr (hmarks old hrow hlisted)] at hmarked
          cases hmarked.2

/-- In a run in which every compression run commits while its items are not compressed,
a compressed item is listed by one summary and any other by none. -/
theorem listed_once (svc : MemoryService V R) (tenantId : Uuid) (w : World V R)
    (as : List Action)
    (hguard : Along (step svc tenantId) (fun w a _ => compressesActive w a) .initial as)
    (hrun : run (step svc tenantId) .initial as = some w) : ListedOnce w := by
  refine (invariant_run (I := fun w => Sound w ∧ ListedOnce w) ?_
    ⟨sound_initial, listedOnce_initial⟩ hguard hrun).2
  intro w a w' h hguard hstep
  exact ⟨sound_step h.1 hstep, listedOnce_step h.1 h.2 hguard hstep⟩

/-- The second run has selected the item before the first commits, and its UPDATE, which
waits for that commit, does not look whether the item is compressed. -/
theorem summarised_twice :
    ∃ w, run (step sampleService sampleTenant) .initial
        (storeActions 0 (.repdigit 1) "tea" ++
          [eightDays, .op 1 .compress, .op 2 .compress, .op 1 .pick, .op 2 .pick,
            .op 1 (.summarise (.repdigit 2) "likes tea"), .op 1 .mark,
            .op 2 (.summarise (.repdigit 3) "tea again"), .op 1 .commit, .op 2 .mark,
            .op 2 .commit]) = some w ∧
      ¬ ListedOnce w := by
  have hend : (run (step sampleService sampleTenant) .initial
      (storeActions 0 (.repdigit 1) "tea" ++
        [eightDays, .op 1 .compress, .op 2 .compress, .op 1 .pick, .op 2 .pick,
          .op 1 (.summarise (.repdigit 2) "likes tea"), .op 1 .mark,
          .op 2 (.summarise (.repdigit 3) "tea again"), .op 1 .commit, .op 2 .mark,
          .op 2 .commit])).any
      fun w => ∃ item ∈ w.db.items.rows, item.compressed = true ∧
        ∃ s ∈ w.db.summaries.rows, ∃ s' ∈ w.db.summaries.rows, s ≠ s' ∧
          item.id ∈ s.originalIds ∧ item.id ∈ s'.originalIds := by decide +kernel
  obtain ⟨w, hrun, item, hitem, hcompressed, s, hs, s', hs', hne, hlisted, hlisted'⟩ :=
    exists_of_any hend
  refine ⟨w, hrun, fun h => ?_⟩
  obtain ⟨u, -, hunique⟩ := h.compressed item hitem hcompressed
  exact hne ((hunique s ⟨hs, hlisted⟩).trans (hunique s' ⟨hs', hlisted'⟩).symm)

/-- The run that comes second is refused its commit and rolls back. -/
theorem listed_once_serial :
    ∃ w, run (step sampleService sampleTenant) .initial
        (storeActions 0 (.repdigit 1) "tea" ++ storeActions 1 (.repdigit 3) "coffee" ++
          [eightDays, .op 3 .compress, .op 3 .pick] ++
          compressActions 2 (.repdigit 2) "likes tea and coffee" ++
          [.op 3 (.summarise (.repdigit 4) "again"), .op 3 .abort]) = some w ∧
      w.db.summaries.rows.map (fun s => s.originalIds) = [[.repdigit 1, .repdigit 3]] ∧
      ListedOnce w := by
  have hend : (run (step sampleService sampleTenant) .initial
      (storeActions 0 (.repdigit 1) "tea" ++ storeActions 1 (.repdigit 3) "coffee" ++
        [eightDays, .op 3 .compress, .op 3 .pick] ++
        compressActions 2 (.repdigit 2) "likes tea and coffee" ++
        [.op 3 (.summarise (.repdigit 4) "again"), .op 3 .abort])).any
      fun w => w.db.summaries.rows.map (fun s => s.originalIds) =
        [[.repdigit 1, .repdigit 3]] := by decide +kernel
  obtain ⟨w, hrun, hw⟩ := exists_of_any hend
  exact ⟨w, hrun, hw, listed_once sampleService sampleTenant w _ (by decide +kernel) hrun⟩

end Sutram.Memory
