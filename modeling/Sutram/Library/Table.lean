/-
Tables with a primary key.

A table is a list of rows, no two of which have the same key.  Rows belong to owners,
and two tables agree on an owner when they hold the same rows of that owner.  A
statement that names the owner reads the same from both and leaves them in agreement.
-/
import Mathlib.Data.List.Nodup

/-- The rows in the order of their insertion. -/
structure Table {ρ κ : Type} (key : ρ → κ) where
  rows : List ρ
  nodup : (rows.map key).Nodup

namespace Table

variable {ρ κ ω : Type} {key : ρ → κ}

def empty : Table key := ⟨[], List.nodup_nil⟩

/-- A SELECT of all rows that satisfy a condition. -/
def select (T : Table key) (p : ρ → Bool) : List ρ := T.rows.filter p

/-- A SELECT of one row. -/
def find? (T : Table key) (p : ρ → Bool) : Option ρ := T.rows.find? p

theorem mem_of_find? {T : Table key} {p : ρ → Bool} {r : ρ} (h : T.find? p = some r) :
    r ∈ T.rows :=
  List.mem_of_find?_eq_some h

theorem of_find? {T : Table key} {p : ρ → Bool} {r : ρ} (h : T.find? p = some r) : p r :=
  List.find?_some h

/-- A key belongs to one row. -/
theorem eq_of_key_eq {T : Table key} {r s : ρ} (hr : r ∈ T.rows) (hs : s ∈ T.rows)
    (h : key r = key s) : r = s :=
  List.inj_on_of_nodup_map T.nodup hr hs h

/-- A condition that only rows with the key of `r` satisfy finds `r`. -/
theorem find?_eq_some {T : Table key} {p : ρ → Bool} {r : ρ} (hr : r ∈ T.rows) (hp : p r)
    (hkey : ∀ s, p s → key s = key r) : T.find? p = some r := by
  have hfound : (T.find? p).isSome := by
    rw [find?, List.find?_isSome]
    exact ⟨r, hr, hp⟩
  obtain ⟨s, hs⟩ := Option.isSome_iff_exists.mp hfound
  rw [hs, eq_of_key_eq (mem_of_find? hs) hr (hkey s (of_find? hs))]

/-! ## Owners -/

section Owners

variable [DecidableEq ω] (owner : ρ → ω)

/-- The rows of one owner. -/
def owned (o : ω) (T : Table key) : List ρ := T.select fun r => owner r = o

/-- The tables hold the same rows of the owner. -/
def Agree (o : ω) (T T' : Table key) : Prop := owned owner o T = owned owner o T'

variable {owner} {o : ω} {T U : Table key}

theorem mem_owned {r : ρ} : r ∈ owned owner o T ↔ r ∈ T.rows ∧ owner r = o := by
  simp [owned, select]

theorem find?_owned (p : ρ → Bool) :
    (owned owner o T).find? p = T.find? fun r => p r && owner r = o := by
  rw [owned, select, List.find?_filter, find?]
  congr 1
  funext r
  rw [Bool.and_comm]
  simp

theorem select_owned (p : ρ → Bool) :
    (owned owner o T).filter p = T.select fun r => p r && owner r = o := by
  rw [owned, select, select, List.filter_filter]

/-- Where the owner has a row with the key, nobody else has. -/
theorem find?_other_eq_none [DecidableEq κ] {T : Table key} {k : κ} {o : ω} {r : ρ}
    (h : (T.find? fun r => key r = k && owner r = o) = some r) :
    (T.find? fun r => key r = k && owner r ≠ o) = none := by
  have hr := of_find? h
  simp only [Bool.and_eq_true, decide_eq_true_eq] at hr
  rw [find?, List.find?_eq_none]
  intro s hs hsk
  simp only [Bool.and_eq_true, decide_eq_true_eq] at hsk
  have hsr := eq_of_key_eq hs (mem_of_find? h) (by rw [hsk.1, hr.1])
  exact hsk.2 (by rw [hsr, hr.2])

/-- A lookup by key finds the owner's row, or else a row of somebody else. -/
theorem find?_key_split [DecidableEq κ] (owner : ρ → ω) (T : Table key) (k : κ) (o : ω) :
    (T.find? fun r => key r = k) =
      (T.find? fun r => key r = k && owner r = o).or
        (T.find? fun r => key r = k && owner r ≠ o) := by
  cases hfind : T.find? fun r => key r = k with
  | none =>
    have hnone (q : ρ → Bool) : (T.find? fun r => key r = k && q r) = none := by
      rw [find?, List.find?_eq_none] at hfind ⊢
      intro r hr
      have hr' := hfind r hr
      simp only [decide_eq_true_eq] at hr'
      simp [hr']
    rw [hnone, hnone]
    rfl
  | some r =>
    have hkey : key r = k := by simpa using of_find? hfind
    have hr := mem_of_find? hfind
    by_cases howner : owner r = o
    · rw [find?_eq_some (p := fun r => key r = k && owner r = o) hr (by simp [hkey, howner])
        (by simp +contextual [hkey])]
      rfl
    · have hnone : (T.find? fun r => key r = k && owner r = o) = none := by
        rw [find?, List.find?_eq_none]
        intro s hs hsk
        simp only [Bool.and_eq_true, decide_eq_true_eq] at hsk
        have hsr := eq_of_key_eq hs hr (by rw [hsk.1, hkey])
        exact howner (by rw [← hsr, hsk.2])
      rw [hnone, find?_eq_some (p := fun r => key r = k && owner r ≠ o) hr
        (by simp [hkey, howner]) (by simp +contextual [hkey])]
      rfl

/-- A SELECT of one row that names the owner. -/
theorem Agree.find? (h : Agree owner o T U) (p : ρ → Bool) :
    (T.find? fun r => p r && owner r = o) = U.find? fun r => p r && owner r = o := by
  rw [← find?_owned, ← find?_owned, h]

theorem Agree.select (h : Agree owner o T U) (p : ρ → Bool) :
    (T.select fun r => p r && owner r = o) = U.select fun r => p r && owner r = o := by
  rw [← select_owned, ← select_owned, h]

end Owners

/-! ## Writes -/

section Writes

theorem map_key_update {p : ρ → Prop} [DecidablePred p] {f : ρ → ρ} (hf : ∀ r, key (f r) = key r)
    (rows : List ρ) : (rows.map fun r => if p r then f r else r).map key = rows.map key := by
  rw [List.map_map]
  refine List.map_congr_left fun r _ => ?_
  show key (if p r then f r else r) = key r
  split
  · exact hf r
  · rfl

/-- An UPDATE of all rows that satisfy a condition. -/
def update (T : Table key) (p : ρ → Bool) (f : ρ → ρ) (hf : ∀ r, key (f r) = key r) :
    Table key where
  rows := T.rows.map fun r => if p r then f r else r
  nodup := by
    rw [map_key_update hf]
    exact T.nodup

theorem update_keys (T : Table key) (p : ρ → Bool) (f : ρ → ρ) (hf : ∀ r, key (f r) = key r) :
    (T.update p f hf).rows.map key = T.rows.map key :=
  map_key_update hf T.rows

variable [DecidableEq κ]

/-- An INSERT, refused when the key is taken. -/
def insert (T : Table key) (r : ρ) : Option (Table key) :=
  if h : key r ∈ T.rows.map key then none
  else some ⟨T.rows ++ [r], by
    rw [List.map_append, List.nodup_append]
    refine ⟨T.nodup, List.nodup_singleton _, ?_⟩
    intro a ha b hb
    rw [List.map_singleton, List.mem_singleton] at hb
    rintro rfl
    exact h (hb ▸ ha)⟩

/-- An UPDATE by primary key that leaves the key alone. -/
def modify (T : Table key) (k : κ) (f : ρ → ρ) (hf : ∀ r, key (f r) = key r) : Table key where
  rows := T.rows.map fun r => if key r = k then f r else r
  nodup := by
    rw [map_key_update hf]
    exact T.nodup

/-- A DELETE by primary key. -/
def delete (T : Table key) (k : κ) : Table key where
  rows := T.rows.filter fun r => key r ≠ k
  nodup := (List.filter_sublist.map key).nodup T.nodup

@[simp] theorem modify_keys (T : Table key) (k : κ) (f : ρ → ρ) (hf : ∀ r, key (f r) = key r) :
    (T.modify k f hf).rows.map key = T.rows.map key :=
  map_key_update hf T.rows

theorem insert_eq_some {T T' : Table key} {r : ρ} (h : T.insert r = some T') :
    T'.rows = T.rows ++ [r] := by
  unfold insert at h
  split at h
  · cases h
  · cases h
    rfl

theorem notMem_of_insert {T T' : Table key} {r : ρ} (h : T.insert r = some T') :
    key r ∉ T.rows.map key := by
  intro hmem
  rw [insert, dif_pos hmem] at h
  cases h

theorem mem_of_insert {T T' : Table key} {r s : ρ} (h : T.insert r = some T') :
    s ∈ T'.rows ↔ s ∈ T.rows ∨ s = r := by
  rw [insert_eq_some h, List.mem_append, List.mem_singleton]

theorem mem_keys_of_insert {T T' : Table key} {r : ρ} {k : κ} (h : T.insert r = some T') :
    k ∈ T'.rows.map key ↔ k ∈ T.rows.map key ∨ k = key r := by
  rw [insert_eq_some h, List.map_append, List.mem_append, List.map_singleton, List.mem_singleton]

theorem mem_delete {T : Table key} {k : κ} {r : ρ} :
    r ∈ (T.delete k).rows ↔ r ∈ T.rows ∧ key r ≠ k := by
  simp [delete]

theorem insert_of_new {T : Table key} {r : ρ} (h : key r ∉ T.rows.map key) :
    ∃ T', T.insert r = some T' := by
  rw [insert, dif_neg h]
  exact ⟨_, rfl⟩

variable [DecidableEq ω] {owner : ρ → ω} {o : ω} {T T' U U' : Table key}

theorem owned_insert {r : ρ} (h : T.insert r = some T') :
    owned owner o T' = owned owner o T ++ [r].filter fun r => owner r = o := by
  rw [owned, owned, select, select, insert_eq_some h, List.filter_append]

theorem owned_modify {k : κ} {f : ρ → ρ} (hf : ∀ r, key (f r) = key r)
    (howner : ∀ r, owner (f r) = owner r) :
    owned owner o (T.modify k f hf) =
      (owned owner o T).map fun r => if key r = k then f r else r := by
  simp only [owned, select, modify]
  rw [List.filter_map]
  congr 1
  refine List.filter_congr fun r _ => ?_
  simp only [Function.comp_apply]
  split
  · rw [howner]
  · rfl

theorem Agree.insert {r : ρ} (h : Agree owner o T U) (hT : T.insert r = some T')
    (hU : U.insert r = some U') : Agree owner o T' U' := by
  rw [Agree, owned_insert hT, owned_insert hU, h]

theorem Agree.modify (h : Agree owner o T U) {k : κ} {f : ρ → ρ} (hf : ∀ r, key (f r) = key r)
    (howner : ∀ r, owner (f r) = owner r) :
    Agree owner o (T.modify k f hf) (U.modify k f hf) := by
  rw [Agree, owned_modify hf howner, owned_modify hf howner, h]

end Writes

/-! ## Columns that stay -/

section Keeps

variable {γ : Type} {f : ρ → γ} {T T' : Table key}

/-- Every row is still there, as far as `f` reads it. -/
def Keeps (f : ρ → γ) (T T' : Table key) : Prop := ∀ r ∈ T.rows, ∃ r' ∈ T'.rows, f r' = f r

theorem Keeps.refl (T : Table key) : Keeps f T T := fun r hr => ⟨r, hr, rfl⟩

theorem Keeps.trans {T'' : Table key} (h : Keeps f T T') (h' : Keeps f T' T'') :
    Keeps f T T'' := by
  intro r hr
  obtain ⟨r', hr', hsame⟩ := h r hr
  obtain ⟨r'', hr'', hsame'⟩ := h' r' hr'
  exact ⟨r'', hr'', hsame'.trans hsame⟩

theorem Keeps.insert [DecidableEq κ] {r : ρ} (h : T.insert r = some T') : Keeps f T T' := by
  intro s hs
  rw [insert_eq_some h]
  exact ⟨s, List.mem_append_left _ hs, rfl⟩

theorem Keeps.modify [DecidableEq κ] {k : κ} {g : ρ → ρ} (hg : ∀ r, key (g r) = key r)
    (hf : ∀ r, f (g r) = f r) : Keeps f T (T.modify k g hg) := by
  intro r hr
  refine ⟨_, List.mem_map_of_mem hr, ?_⟩
  split
  · exact hf r
  · rfl

end Keeps

/-! ## Part of a table -/

section Part

/-- The rows that satisfy a condition, as a table. -/
def part (T : Table key) (p : ρ → Bool) : Table key where
  rows := T.rows.filter p
  nodup := (List.filter_sublist.map key).nodup T.nodup

variable {T T' : Table key} {p q : ρ → Bool}

/-- A SELECT whose condition holds only of rows in the part. -/
theorem select_part (h : ∀ r ∈ T.rows, q r → p r) : (T.part p).select q = T.select q := by
  rw [select, part, List.filter_filter, select]
  refine List.filter_congr fun r hr => ?_
  cases hq : q r with
  | false => rfl
  | true => simp [h r hr hq]

theorem find?_part (h : ∀ r ∈ T.rows, q r → p r) : (T.part p).find? q = T.find? q := by
  rw [find?, part, List.find?_filter, find?, ← List.head?_filter, ← List.head?_filter]
  congr 1
  refine List.filter_congr fun r hr => ?_
  cases hq : q r with
  | false => simp
  | true => simp [h r hr hq]

/-- An UPDATE that does not move rows in or out. -/
theorem part_update {f : ρ → ρ} (hf : ∀ r, key (f r) = key r) (hp : ∀ r, p (f r) = p r) :
    (T.update q f hf).part p = (T.part p).update q f hf := by
  simp only [part, update, List.filter_map]
  congr 2
  refine List.filter_congr fun r _ => ?_
  simp only [Function.comp_apply]
  split
  · rw [hp]
  · rfl

/-- An UPDATE of rows outside the part. -/
theorem part_update_other {f : ρ → ρ} (hf : ∀ r, key (f r) = key r) (hp : ∀ r, p (f r) = p r)
    (h : ∀ r ∈ T.rows, p r → q r = false) : (T.update q f hf).part p = T.part p := by
  rw [part_update hf hp]
  simp only [part, update]
  congr 1
  refine (List.map_congr_left fun r hr => ?_).trans (List.map_id _)
  obtain ⟨hr, hpr⟩ := List.mem_filter.mp hr
  rw [if_neg (by simp [h r hr hpr])]
  rfl

variable [DecidableEq κ]

theorem part_insert {r : ρ} (h : T.insert r = some T') (hr : p r) :
    (T.part p).insert r = some (T'.part p) := by
  have hnew : key r ∉ (T.part p).rows.map key := fun hmem =>
    notMem_of_insert h ((List.filter_sublist.map key).subset hmem)
  rw [insert, dif_neg hnew]
  congr 1
  simp [part, insert_eq_some h, hr]

/-- An INSERT outside the part. -/
theorem part_insert_other {r : ρ} (h : T.insert r = some T') (hr : p r = false) :
    T'.part p = T.part p := by
  simp [part, insert_eq_some h, hr]

theorem part_delete (T : Table key) (p : ρ → Bool) (k : κ) :
    (T.delete k).part p = (T.part p).delete k := by
  simp only [part, delete, List.filter_filter]
  congr 1
  exact List.filter_congr fun r _ => Bool.and_comm _ _

/-- A DELETE by a key that no row of the part has. -/
theorem part_delete_other {k : κ} (h : ∀ r ∈ T.rows, p r → key r ≠ k) :
    (T.delete k).part p = T.part p := by
  simp only [part, delete, List.filter_filter]
  congr 1
  refine List.filter_congr fun r hr => ?_
  cases hp : p r with
  | false => rfl
  | true => simp [h r hr hp]

end Part

/-! ## A table through a function -/

section Image

variable {f : ρ → ρ} {p : ρ → Bool}

theorem map_key_image (hf : ∀ r, key (f r) = key r) (rows : List ρ) :
    (rows.map f).map key = rows.map key := by
  rw [List.map_map]
  exact List.map_congr_left fun r _ => hf r

/-- Every row through a function that leaves the key alone. -/
def image (T : Table key) (f : ρ → ρ) (hf : ∀ r, key (f r) = key r) : Table key where
  rows := T.rows.map f
  nodup := by
    rw [map_key_image hf]
    exact T.nodup

/-- A condition that does not see what the function changes. -/
theorem find?_image (T : Table key) (hf : ∀ r, key (f r) = key r) (hp : ∀ r, p (f r) = p r) :
    (T.image f hf).find? p = (T.find? p).map f := by
  rw [find?, image, List.find?_map, find?, show p ∘ f = p from funext hp]

theorem select_image (T : Table key) (hf : ∀ r, key (f r) = key r) (hp : ∀ r, p (f r) = p r) :
    (T.image f hf).select p = (T.select p).map f := by
  rw [select, image, List.filter_map, select, show p ∘ f = p from funext hp]

variable [DecidableEq κ]

theorem insert_image {T T' : Table key} (hf : ∀ r, key (f r) = key r) {r : ρ}
    (h : T.insert r = some T') : (T.image f hf).insert (f r) = some (T'.image f hf) := by
  have hnew : key (f r) ∉ (T.image f hf).rows.map key := by
    rw [image, map_key_image hf, hf]
    exact notMem_of_insert h
  rw [insert, dif_neg hnew]
  congr 1
  simp [image, insert_eq_some h]

theorem insert_image_none {T : Table key} (hf : ∀ r, key (f r) = key r) {r : ρ}
    (h : T.insert r = none) : (T.image f hf).insert (f r) = none := by
  cases h' : (T.image f hf).insert (f r) with
  | none => rfl
  | some T' =>
    have hnew := notMem_of_insert h'
    rw [image, map_key_image hf, hf] at hnew
    obtain ⟨T'', hT''⟩ := insert_of_new hnew
    rw [h] at hT''
    cases hT''

/-- An UPDATE that does not see it either. -/
theorem modify_image (T : Table key) (hf : ∀ r, key (f r) = key r) {g : ρ → ρ}
    (hg : ∀ r, key (g r) = key r) (hfg : ∀ r, f (g r) = g (f r)) (k : κ) :
    (T.modify k g hg).image f hf = (T.image f hf).modify k g hg := by
  simp only [image, modify, List.map_map]
  congr 1
  refine List.map_congr_left fun r _ => ?_
  simp only [Function.comp_apply, hf]
  split
  · exact hfg r
  · rfl

end Image

end Table
