/-
What holds in every run of the memory of a tenant, whatever the order of its steps.

Ids are drawn once.  So a row is there because a store of its id has committed, a
pending row has an id that no committed row ever had, and a forgotten item does not
come back.
-/
import Sutram.Memory.Moves

namespace Sutram.Memory

open Sutram.Core Runs

variable {V R : Type}

/-- The row a session is about to insert. -/
def Work.pending (work : Work V R) : Option (MemoryItemORM V) :=
  match work.write with
  | some (.stored item) => some item
  | _ => none

/-- The records a search started with are part of the present ones. -/
structure AskedSound (w : World V R) (asked : Asked) : Prop where
  stored : ∀ id ∈ asked.stored, id ∈ w.stored
  forgotten : ∀ id ∈ asked.forgotten, id ∈ w.forgotten

/-- None of the results had been forgotten when the search started. -/
def Asked.Keeps (asked : Asked) (results : List (MemorySearchResult R)) : Prop :=
  ∀ r ∈ results, r.item.id ∉ asked.forgotten

def WriteSound (w : World V R) : Write V → Prop
  | .stored item => item.id ∈ w.drawn ∧ item.id ∉ w.stored ∧ item.compressed = false
  | .forgotten id => id ∈ w.stored

def WorkSound (w : World V R) : Work V R → Prop
  | .written write | .scanning write _ | .invalidated write => WriteSound w write
  | .deleting id => id ∈ w.stored
  | .searching asked | .gathering asked _ _ => AskedSound w asked
  | .filling asked _ results _ => AskedSound w asked ∧ asked.Keeps results
  | .answering asked hit results _ => AskedSound w asked ∧ (hit = none → asked.Keeps results)
  | .picked items => ∀ item ∈ items, item.id ∈ w.stored
  | .summarised summary => ∀ id ∈ summary.originalIds, id ∈ w.stored
  | .marked summary ids =>
    (∀ id ∈ summary.originalIds, id ∈ w.stored) ∧ (∀ id ∈ ids, id ∈ summary.originalIds) ∧
      ∀ item ∈ w.db.items.rows, item.id ∈ summary.originalIds → item.id ∈ ids
  | _ => True

structure Sound (w : World V R) : Prop where
  works : ∀ i, WorkSound w (w.sessions i)
  apart : ∀ i j item item', (w.sessions i).pending = some item →
    (w.sessions j).pending = some item' → item.id = item'.id → i = j
  rows : ∀ item ∈ w.db.items.rows, item.id ∈ w.stored
  drawn : ∀ id ∈ w.stored, id ∈ w.drawn
  stored : ∀ id ∈ w.forgotten, id ∈ w.stored
  gone : ∀ item ∈ w.db.items.rows, item.id ∉ w.forgotten
  kept : ∀ id ∈ w.stored, id ∈ w.forgotten ∨ ∃ item ∈ w.db.items.rows, item.id = id
  listed : ∀ summary ∈ w.db.summaries.rows, ∀ id ∈ summary.originalIds, id ∈ w.stored

/-! ## The other sessions -/

/-- What a step may do to the records and the rows, as the other sessions see it. -/
structure Grows (w w' : World V R) : Prop where
  stored : ∀ id ∈ w.stored, id ∈ w'.stored
  forgotten : ∀ id ∈ w.forgotten, id ∈ w'.forgotten
  drawn : ∀ id ∈ w.drawn, id ∈ w'.drawn
  rows : ∀ item ∈ w'.db.items.rows,
    (∃ old ∈ w.db.items.rows, old.id = item.id) ∨ item.id ∉ w.stored

variable {w w' : World V R}

theorem Grows.of_eq (hstored : w'.stored = w.stored) (hforgotten : w'.forgotten = w.forgotten)
    (hdrawn : w'.drawn = w.drawn) (hdb : w'.db = w.db) : Grows w w' where
  stored := by simp [hstored]
  forgotten := by simp [hforgotten]
  drawn := by simp [hdrawn]
  rows item hitem := by
    rw [hdb] at hitem
    exact .inl ⟨item, hitem, rfl⟩

theorem AskedSound.grow {asked : Asked} (h : AskedSound w asked) (hgrows : Grows w w') :
    AskedSound w' asked where
  stored id hid := hgrows.stored id (h.stored id hid)
  forgotten id hid := hgrows.forgotten id (h.forgotten id hid)

/-- A session that does not move stays sound, unless the id of its row is taken. -/
theorem WorkSound.grow {work : Work V R} (h : WorkSound w work) (hgrows : Grows w w')
    (hpending : ∀ item, work.pending = some item → item.id ∈ w'.stored → item.id ∈ w.stored) :
    WorkSound w' work := by
  cases work with
  | written write | scanning write _ | invalidated write =>
    cases write with
    | stored item => exact ⟨hgrows.drawn _ h.1, mt (hpending item rfl) h.2.1, h.2.2⟩
    | forgotten id => exact hgrows.stored id h
  | deleting id => exact hgrows.stored id h
  | searching asked | gathering asked known rest => exact AskedSound.grow h hgrows
  | filling asked known results ids => exact ⟨h.1.grow hgrows, h.2⟩
  | answering asked hit results ids => exact ⟨h.1.grow hgrows, h.2⟩
  | picked items => exact fun item hitem => hgrows.stored _ (h item hitem)
  | summarised summary => exact fun id hid => hgrows.stored id (h id hid)
  | marked summary ids =>
    refine ⟨fun id hid => hgrows.stored id (h.1 id hid), h.2.1, fun item hitem hid => ?_⟩
    rcases hgrows.rows item hitem with ⟨old, hold, heq⟩ | hnew
    · rw [← heq] at hid ⊢
      exact h.2.2 old hold hid
    · exact absurd (h.1 _ hid) hnew
  | _ => trivial

/-! ## One step -/

theorem WorkSound.pending {work : Work V R} {item : MemoryItemORM V} (h : WorkSound w work)
    (hpending : work.pending = some item) :
    item.id ∈ w.drawn ∧ item.id ∉ w.stored ∧ item.compressed = false := by
  cases work with
  | written write | scanning write _ | invalidated write =>
    cases write with
    | stored _ =>
      cases hpending
      exact h
    | forgotten _ => cases hpending
  | _ => cases hpending

/-- What a step may do to the records and the rows. -/
structure Keeps (w : World V R) (i : Nat) (w' : World V R) : Prop extends Grows w w' where
  others : ∀ j ≠ i, w'.sessions j = w.sessions j
  pending : ∀ item, (w'.sessions i).pending = some item →
    (w.sessions i).pending = some item ∨ item.id ∉ w.drawn
  store : ∀ id ∈ w'.stored, id ∈ w.stored ∨
    ∃ item, (w.sessions i).pending = some item ∧ item.id = id
  rowStored : ∀ item ∈ w'.db.items.rows, item.id ∈ w'.stored
  forget : ∀ id ∈ w'.forgotten, id ∈ w'.stored
  gone : ∀ item ∈ w'.db.items.rows, item.id ∉ w'.forgotten
  kept : ∀ id ∈ w'.stored, id ∈ w'.forgotten ∨ ∃ item ∈ w'.db.items.rows, item.id = id
  listed : ∀ summary ∈ w'.db.summaries.rows, ∀ id ∈ summary.originalIds, id ∈ w'.stored

variable {i : Nat}

theorem Sound.keep (h : Sound w) (hkeeps : Keeps w i w') (hown : WorkSound w' (w'.sessions i)) :
    Sound w' where
  works j := by
    by_cases hj : j = i
    · rw [hj]
      exact hown
    · rw [hkeeps.others j hj]
      refine (h.works j).grow hkeeps.toGrows fun item hitem hid => ?_
      rcases hkeeps.store _ hid with hold | ⟨own, hownPending, heq⟩
      · exact hold
      · exact absurd (h.apart i j own item hownPending hitem heq).symm hj
  apart := by
    -- a row of the session that moved, and one of another session
    have hne : ∀ j ≠ i, ∀ item item', (w'.sessions i).pending = some item →
        (w'.sessions j).pending = some item' → item.id ≠ item'.id := by
      intro j hj item item' hitem hitem' heq
      rw [hkeeps.others j hj] at hitem'
      rcases hkeeps.pending item hitem with hold | hnew
      · exact hj (h.apart i j item item' hold hitem' heq).symm
      · rw [heq] at hnew
        exact hnew ((h.works j).pending hitem').1
    intro j k item item' hitem hitem' heq
    by_cases hj : j = i <;> by_cases hk : k = i
    · rw [hj, hk]
    · subst hj
      exact absurd heq (hne k hk item item' hitem hitem')
    · subst hk
      exact absurd heq.symm (hne j hj item' item hitem' hitem)
    · rw [hkeeps.others j hj] at hitem
      rw [hkeeps.others k hk] at hitem'
      exact h.apart j k item item' hitem hitem' heq
  rows := hkeeps.rowStored
  drawn id hid := by
    rcases hkeeps.store id hid with hold | ⟨item, hitem, rfl⟩
    · exact hkeeps.drawn id (h.drawn id hold)
    · exact hkeeps.drawn _ ((h.works i).pending hitem).1
  stored := hkeeps.forget
  gone := hkeeps.gone
  kept := hkeeps.kept
  listed := hkeeps.listed

variable {work : Work V R} {drawn : List Uuid}

/-- A step that leaves the committed database and the records of commits alone. -/
theorem Sound.quiet (h : Sound w) (hsessions : w'.sessions = Function.update w.sessions i work)
    (hdb : w'.db = w.db) (hstored : w'.stored = w.stored) (hforgotten : w'.forgotten = w.forgotten)
    (hdrawn : ∀ id ∈ w.drawn, id ∈ w'.drawn)
    (hpending : ∀ item, work.pending = some item →
      (w.sessions i).pending = some item ∨ item.id ∉ w.drawn)
    (hown : WorkSound w' work) : Sound w' := by
  have hself : w'.sessions i = work := by rw [hsessions, Function.update_self]
  refine h.keep (i := i) ?_ (by rwa [hself])
  exact {
    stored := fun id hid => by rwa [hstored]
    forgotten := fun id hid => by rwa [hforgotten]
    drawn := hdrawn
    rows := fun item hitem => .inl ⟨item, by rwa [hdb] at hitem, rfl⟩
    others := fun j hj => by rw [hsessions, Function.update_of_ne hj]
    pending := by rwa [hself]
    store := fun id hid => .inl (by rwa [hstored] at hid)
    rowStored := by
      rw [hdb, hstored]
      exact h.rows
    forget := by
      rw [hforgotten, hstored]
      exact h.stored
    gone := by
      rw [hdb, hforgotten]
      exact h.gone
    kept := by
      rw [hdb, hstored, hforgotten]
      exact h.kept
    listed := by
      rw [hdb, hstored]
      exact h.listed }

/-- A commit, which ends the session. -/
theorem Sound.commit (h : Sound w) (hsessions : w'.sessions = Function.update w.sessions i .idle)
    (hgrows : Grows w w')
    (hstore : ∀ id ∈ w'.stored, id ∈ w.stored ∨
      ∃ item, (w.sessions i).pending = some item ∧ item.id = id)
    (hrowStored : ∀ item ∈ w'.db.items.rows, item.id ∈ w'.stored)
    (hforget : ∀ id ∈ w'.forgotten, id ∈ w'.stored)
    (hgone : ∀ item ∈ w'.db.items.rows, item.id ∉ w'.forgotten)
    (hkept : ∀ id ∈ w'.stored, id ∈ w'.forgotten ∨ ∃ item ∈ w'.db.items.rows, item.id = id)
    (hlisted : ∀ summary ∈ w'.db.summaries.rows, ∀ id ∈ summary.originalIds, id ∈ w'.stored) :
    Sound w' := by
  have hself : w'.sessions i = .idle := by rw [hsessions, Function.update_self]
  refine h.keep (i := i) ?_ (by rw [hself]; trivial)
  exact {
    toGrows := hgrows
    others := fun j hj => by rw [hsessions, Function.update_of_ne hj]
    pending := fun item hitem => by
      rw [hself] at hitem
      cases hitem
    store := hstore
    rowStored := hrowStored
    forget := hforget
    gone := hgone
    kept := hkept
    listed := hlisted }

/-! ## Every step -/

theorem Next.still_drawn (hnext : Next w i work drawn) : ∀ id ∈ w.drawn, id ∈ drawn := by
  cases hnext with
  | insert | summarise => exact fun id hid => List.mem_cons_of_mem _ hid
  | _ => exact fun id hid => hid

theorem pending_of_write {work' : Work V R} {write : Write V} (h : work.write = some write)
    (h' : work'.write = some write) : work.pending = work'.pending := by
  rw [Work.pending, Work.pending, h, h']

theorem Next.pending (hnext : Next w i work drawn) (item : MemoryItemORM V)
    (h : work.pending = some item) :
    (w.sessions i).pending = some item ∨ item.id ∉ w.drawn := by
  cases hnext with
  | plain hplain => cases work <;> first | cases h | cases hplain
  | insert hnew =>
    cases h
    exact .inr hnew
  | write hold hwork =>
    rw [pending_of_write hwork hold] at h
    exact .inl h
  | _ => cases h

theorem asked_sound {asked : Asked} (hwork : WorkSound w work) (h : work.asked = some asked) :
    AskedSound w asked := by
  cases work with
  | searching _ | gathering _ _ _ =>
    cases h
    exact hwork
  | _ => cases h

/-- What is known of a flushed write depends on nothing but the write. -/
theorem write_sound {work' : Work V R} {write : Write V} (hwork : WorkSound w work)
    (h : work.write = some write) (h' : work'.write = some write) : WorkSound w work' := by
  cases work with
  | written _ | scanning _ _ | invalidated _ =>
    cases h
    cases work' with
    | written _ | scanning _ _ | invalidated _ =>
      cases h'
      exact hwork
    | _ => cases h'
  | _ => cases h

theorem mem_existing {ids : List Uuid} {id : Uuid} :
    id ∈ w.existing ids ↔ id ∈ ids ∧ ∃ item ∈ w.db.items.rows, item.id = id := by
  simp [World.existing, Table.find?, List.find?_isSome]

theorem Next.sound {locks : List (Uuid × Nat)} (h : Sound w) (hnext : Next w i work drawn) :
    WorkSound { w.set i work with drawn, locks } work := by
  have hi := h.works i
  cases hnext with
  | plain hplain => cases work <;> trivial
  | @insert item hnew hactive =>
    exact ⟨List.mem_cons_self, mt (h.drawn item.id) hnew, hactive⟩
  | @select item hitem => exact h.rows item hitem
  | delete hold =>
    rw [hold] at hi
    exact hi
  | write hold hwork =>
    have hsame : WorkSound w work := write_sound hi hold hwork
    exact hsame.grow (.of_eq rfl rfl rfl rfl) fun _ _ => id
  | search body => exact ⟨fun _ => id, fun _ => id⟩
  | hit hold =>
    have hasked := asked_sound hi hold
    exact ⟨⟨hasked.stored, hasked.forgotten⟩, fun hnone => by cases hnone⟩
  | gather hold =>
    have hasked := asked_sound hi hold
    exact ⟨hasked.stored, hasked.forgotten⟩
  | fill hold hresults =>
    have hasked := asked_sound hi hold
    refine ⟨⟨hasked.stored, hasked.forgotten⟩, fun r hr hid => ?_⟩
    obtain ⟨item, hitem, heq⟩ := hresults r hr
    rw [← heq] at hid
    exact h.gone item hitem (hasked.forgotten _ hid)
  | pick hitems => exact fun item hitem => h.rows item (hitems item hitem)
  | summarise hold hids =>
    rw [hold] at hi
    intro id hid
    rw [hids] at hid
    obtain ⟨item, hitem, rfl⟩ := List.mem_map.mp hid
    exact hi item hitem
  | mark hold =>
    rw [hold] at hi
    refine ⟨hi, fun id hid => (mem_existing.mp hid).1, fun item hitem hid => ?_⟩
    exact mem_existing.mpr ⟨hid, item, hitem, rfl⟩

/-- A commit that neither adds nor removes items. -/
theorem Sound.rewrite (h : Sound w) (db : MemoryDb V)
    (hids : db.items.rows.map (fun item => item.id) = w.db.items.rows.map fun item => item.id)
    (hlisted : ∀ summary ∈ db.summaries.rows, ∀ id ∈ summary.originalIds, id ∈ w.stored) :
    Sound { w.close i with db } := by
  have hold : ∀ item ∈ db.items.rows, ∃ old ∈ w.db.items.rows, old.id = item.id := by
    intro item hitem
    have hid : item.id ∈ db.items.rows.map fun item => item.id := List.mem_map_of_mem hitem
    rw [hids] at hid
    exact List.mem_map.mp hid
  refine h.commit (i := i) rfl ?_ (fun id hid => .inl hid) ?_ h.stored ?_ ?_ hlisted
  · exact ⟨fun _ => id, fun _ => id, fun _ => id, fun item hitem => .inl (hold item hitem)⟩
  · intro item hitem
    obtain ⟨old, hold, heq⟩ := hold item hitem
    rw [← heq]
    exact h.rows old hold
  · intro item hitem
    obtain ⟨old, hold, heq⟩ := hold item hitem
    rw [← heq]
    exact h.gone old hold
  · intro id hid
    refine (h.kept id hid).imp_right fun hrow => ?_
    have hmem : id ∈ w.db.items.rows.map fun item => item.id := List.mem_map.mpr hrow
    rw [← hids] at hmem
    exact List.mem_map.mp hmem

/-- The commit of a store. -/
theorem Sound.store (h : Sound w) {item : MemoryItemORM V}
    {items : Table fun item : MemoryItemORM V => item.id}
    (hold : w.sessions i = .invalidated (.stored item))
    (hinsert : w.db.items.insert item = some items) :
    Sound { w.close i with db := { w.db with items }, stored := item.id :: w.stored } := by
  have hnew : item.id ∉ w.stored := by
    have hi := h.works i
    rw [hold] at hi
    exact hi.2.1
  have hrows (row : MemoryItemORM V) : row ∈ items.rows ↔ row ∈ w.db.items.rows ∨ row = item :=
    Table.mem_of_insert hinsert
  refine h.commit (i := i) rfl ?_ ?_ ?_ ?_ ?_ ?_ ?_
  · refine ⟨fun _ => List.mem_cons_of_mem _, fun _ => id, fun _ => id, fun row hrow => ?_⟩
    rcases (hrows row).mp hrow with hrow | rfl
    · exact .inl ⟨row, hrow, rfl⟩
    · exact .inr hnew
  · intro id hid
    rcases List.mem_cons.mp hid with rfl | hid
    · exact .inr ⟨item, by rw [hold]; rfl, rfl⟩
    · exact .inl hid
  · intro row hrow
    rcases (hrows row).mp hrow with hrow | rfl
    · exact List.mem_cons_of_mem _ (h.rows row hrow)
    · exact List.mem_cons_self
  · exact fun id hid => List.mem_cons_of_mem _ (h.stored id hid)
  · intro row hrow hid
    rcases (hrows row).mp hrow with hrow | rfl
    · exact h.gone row hrow hid
    · exact hnew (h.stored _ hid)
  · intro id hid
    rcases List.mem_cons.mp hid with rfl | hid
    · exact .inr ⟨item, (hrows item).mpr (.inr rfl), rfl⟩
    · refine (h.kept id hid).imp_right ?_
      rintro ⟨row, hrow, heq⟩
      exact ⟨row, (hrows row).mpr (.inl hrow), heq⟩
  · exact fun summary hsummary id hid => List.mem_cons_of_mem _ (h.listed summary hsummary id hid)

/-- The commit of a forget. -/
theorem Sound.forget (h : Sound w) {x : Uuid}
    (hold : w.sessions i = .invalidated (.forgotten x)) :
    Sound { w.close i with
      db := { w.db with items := w.db.items.delete x }, forgotten := x :: w.forgotten } := by
  have hx : x ∈ w.stored := by
    have hi := h.works i
    rw [hold] at hi
    exact hi
  refine h.commit (i := i) rfl ?_ (fun _ hid => .inl hid) ?_ ?_ ?_ ?_ h.listed
  · exact ⟨fun _ => id, fun _ => List.mem_cons_of_mem _, fun _ => id,
      fun row hrow => .inl ⟨row, (Table.mem_delete.mp hrow).1, rfl⟩⟩
  · exact fun row hrow => h.rows row (Table.mem_delete.mp hrow).1
  · intro id hid
    rcases List.mem_cons.mp hid with rfl | hid
    · exact hx
    · exact h.stored id hid
  · intro row hrow hid
    obtain ⟨hrow, hne⟩ := Table.mem_delete.mp hrow
    rcases List.mem_cons.mp hid with heq | hid
    · exact hne heq
    · exact h.gone row hrow hid
  · intro id hid
    by_cases heq : id = x
    · rw [heq]
      exact .inl List.mem_cons_self
    · rcases h.kept id hid with hforgotten | ⟨row, hrow, rfl⟩
      · exact .inl (List.mem_cons_of_mem _ hforgotten)
      · exact .inr ⟨row, Table.mem_delete.mpr ⟨hrow, heq⟩, rfl⟩

variable {svc : MemoryService V R} {tenantId : Uuid} {o : Op}

theorem sound_moved (h : Sound w) (hmoved : Moved w i svc tenantId o w') : Sound w' := by
  have hi := h.works i
  cases hmoved with
  | next hnext =>
    exact h.quiet (i := i) rfl rfl rfl rfl hnext.still_drawn hnext.pending (hnext.sound h)
  | scan hold =>
    rw [hold] at hi
    refine h.quiet (i := i) rfl rfl rfl rfl (fun _ => id) (fun item hitem => ?_) hi
    rw [hold]
    exact .inl hitem
  | setex hold =>
    rw [hold] at hi
    refine h.quiet (i := i) rfl rfl rfl rfl (fun _ => id) (fun item hitem => ?_)
      ⟨⟨hi.1.stored, hi.1.forgotten⟩, fun _ => hi.2⟩
    cases hitem
  | @respond _ _ _ _ work hold hplain =>
    refine h.quiet (i := i) (show _ = Function.update w.sessions i work from rfl) rfl rfl rfl
      (fun _ => id) ?_ ?_
    · intro item hitem
      cases work <;> first | cases hitem | cases hplain
    · cases work <;> trivial
  | stored hold hinsert => exact h.store hold hinsert
  | forgotten hold => exact h.forget hold
  | touched hold => exact h.rewrite _ (Table.update_keys _ _ _ (by exact fun _ => rfl)) h.listed
  | @compressed summary _ _ hold hinsert =>
    rw [hold] at hi
    refine h.rewrite _ (Table.update_keys _ _ _ (by exact fun _ => rfl)) fun s hs => ?_
    rcases (Table.mem_of_insert hinsert).mp hs with hs | rfl
    · exact h.listed s hs
    · exact hi.1

theorem sound_step {a : Action} (h : Sound w) (hstep : step svc tenantId w a = some w') :
    Sound w' := by
  cases a with
  | tick d =>
    cases hstep
    have hown : WorkSound (w.tick d) (w.sessions 0) :=
      (h.works 0).grow (.of_eq rfl rfl rfl rfl) fun _ _ => id
    exact h.quiet (i := 0) (Function.update_eq_self 0 w.sessions).symm rfl rfl rfl (fun _ => id)
      (fun _ => .inl) hown
  | op i o => exact sound_moved h (perform_moved hstep)

theorem sound_initial : Sound (World.initial : World V R) where
  works _ := trivial
  apart _ _ _ _ h := by cases h
  rows _ h := by cases h
  drawn _ h := by cases h
  stored _ h := by cases h
  gone _ h := by cases h
  kept _ h := by cases h
  listed _ h := by cases h

end Sutram.Memory
