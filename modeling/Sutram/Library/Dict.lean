/-
Insertion-ordered dictionaries.

Setting a key that is present replaces its value where it stands; a new key goes
to the end.  Building a dictionary from pairs therefore keeps each key at its first
position with its last value.
-/
import Mathlib.Data.List.Find
import Mathlib.Data.List.Induction
import Mathlib.Data.List.Nodup
import Mathlib.Data.List.Perm.Subperm

/-- A dictionary: its entries in order, no key twice. -/
structure Dict (κ ν : Type) where
  entries : List (κ × ν)
  nodup : (entries.map Prod.fst).Nodup
deriving DecidableEq

namespace Dict

variable {κ ν : Type} [DecidableEq κ]

/-! ## Entries -/

def setEntry (k : κ) (v : ν) : List (κ × ν) → List (κ × ν)
  | [] => [(k, v)]
  | e :: rest => if e.1 = k then (k, v) :: rest else e :: setEntry k v rest

theorem setEntry_of_notMem {k : κ} {v : ν} {l : List (κ × ν)} (h : k ∉ l.map Prod.fst) :
    setEntry k v l = l ++ [(k, v)] := by
  induction l with
  | nil => rfl
  | cons e rest ih =>
    rw [List.map_cons, List.mem_cons, not_or] at h
    rw [setEntry, if_neg (Ne.symm h.1), ih h.2, List.cons_append]

theorem keys_setEntry_of_mem {k : κ} {v : ν} {l : List (κ × ν)} (h : k ∈ l.map Prod.fst) :
    (setEntry k v l).map Prod.fst = l.map Prod.fst := by
  induction l with
  | nil => simp at h
  | cons e rest ih =>
    by_cases hk : e.1 = k
    · simp [setEntry, hk]
    · have hrest : k ∈ rest.map Prod.fst := by
        rw [List.map_cons, List.mem_cons] at h
        exact h.resolve_left (Ne.symm hk)
      rw [setEntry, if_neg hk, List.map_cons, List.map_cons, ih hrest]

theorem nodup_setEntry {k : κ} {v : ν} {l : List (κ × ν)} (h : (l.map Prod.fst).Nodup) :
    ((setEntry k v l).map Prod.fst).Nodup := by
  by_cases hk : k ∈ l.map Prod.fst
  · rwa [keys_setEntry_of_mem hk]
  · rw [setEntry_of_notMem hk, List.map_append, List.nodup_append]
    refine ⟨h, by simp, ?_⟩
    intro a ha b hb
    obtain rfl : b = k := by simpa using hb
    rintro rfl
    exact hk ha

theorem mem_setEntry_self (k : κ) (v : ν) (l : List (κ × ν)) : (k, v) ∈ setEntry k v l := by
  induction l with
  | nil => exact List.mem_singleton_self _
  | cons e rest ih =>
    by_cases hk : e.1 = k
    · rw [setEntry, if_pos hk]
      exact List.mem_cons_self
    · rw [setEntry, if_neg hk]
      exact List.mem_cons_of_mem e ih

/-- The entries of the other keys are the ones there were. -/
theorem mem_setEntry_of_ne {k : κ} {v : ν} {l : List (κ × ν)} {e : κ × ν} (hne : e.1 ≠ k) :
    e ∈ setEntry k v l ↔ e ∈ l := by
  induction l with
  | nil =>
    rw [setEntry, List.mem_singleton]
    constructor
    · rintro rfl
      exact absurd rfl hne
    · intro h
      cases h
  | cons f rest ih =>
    by_cases hk : f.1 = k
    · rw [setEntry, if_pos hk, List.mem_cons, List.mem_cons]
      constructor
      · rintro (rfl | h)
        · exact absurd rfl hne
        · exact .inr h
      · rintro (rfl | h)
        · exact absurd hk hne
        · exact .inr h
    · rw [setEntry, if_neg hk, List.mem_cons, List.mem_cons, ih]

/-! ## Dictionaries -/

def empty : Dict κ ν := ⟨[], List.nodup_nil⟩

def set (d : Dict κ ν) (k : κ) (v : ν) : Dict κ ν :=
  ⟨setEntry k v d.entries, nodup_setEntry d.nodup⟩

def get? (d : Dict κ ν) (k : κ) : Option ν := (d.entries.find? fun e => e.1 = k).map Prod.snd

def ofPairs (pairs : List (κ × ν)) : Dict κ ν :=
  pairs.foldl (fun d e => d.set e.1 e.2) empty

theorem mem_iff_get? (d : Dict κ ν) (k : κ) (v : ν) : (k, v) ∈ d.entries ↔ d.get? k = some v := by
  obtain ⟨l, hl⟩ := d
  show (k, v) ∈ l ↔ (l.find? fun e => e.1 = k).map Prod.snd = some v
  induction l with
  | nil => simp
  | cons e rest ih =>
    rw [List.map_cons, List.nodup_cons] at hl
    rw [List.mem_cons, List.find?_cons]
    by_cases hk : e.1 = k
    · have hnot : (k, v) ∉ rest := fun h => hl.1 (List.mem_map.mpr ⟨_, h, hk.symm⟩)
      simp [hk, hnot, Prod.ext_iff, eq_comm]
    · have hne : (k, v) ≠ e := by
        rintro rfl
        exact hk rfl
      simpa [hk, hne] using ih hl.2

theorem get?_set_self (d : Dict κ ν) (k : κ) (v : ν) : (d.set k v).get? k = some v :=
  (mem_iff_get? _ k v).mp (mem_setEntry_self k v d.entries)

theorem get?_set_of_ne (d : Dict κ ν) {k k' : κ} (v : ν) (hne : k' ≠ k) :
    (d.set k v).get? k' = d.get? k' := by
  ext v'
  rw [← mem_iff_get?, ← mem_iff_get?]
  exact mem_setEntry_of_ne hne

theorem mem_of_set {d : Dict κ ν} {k : κ} {v : ν} {e : κ × ν} (h : e ∈ (d.set k v).entries) :
    e ∈ d.entries ∨ e = (k, v) := by
  obtain ⟨k', v'⟩ := e
  have hget := (mem_iff_get? _ _ _).mp h
  by_cases hk : k' = k
  · subst hk
    rw [get?_set_self, Option.some_inj] at hget
    exact .inr (by rw [hget])
  · rw [get?_set_of_ne _ _ hk] at hget
    exact .inl ((mem_iff_get? _ _ _).mpr hget)

/-- Dictionaries with the same lookups hold the same entries, perhaps in another order. -/
theorem perm_entries {d d' : Dict κ ν} (h : ∀ k, d.get? k = d'.get? k) :
    d.entries.Perm d'.entries := by
  have hnodup : ∀ d : Dict κ ν, d.entries.Nodup := fun d =>
    (List.pairwise_map.mp d.nodup).imp fun hne heq => hne (congrArg Prod.fst heq)
  refine (List.perm_ext_iff_of_nodup (hnodup d) (hnodup d')).mpr ?_
  rintro ⟨k, v⟩
  rw [mem_iff_get?, mem_iff_get?, h k]

theorem ofPairs_concat (pairs : List (κ × ν)) (e : κ × ν) :
    ofPairs (pairs ++ [e]) = (ofPairs pairs).set e.1 e.2 := by
  rw [ofPairs, List.foldl_append]
  rfl

theorem mem_of_ofPairs {pairs : List (κ × ν)} {e : κ × ν} (h : e ∈ (ofPairs pairs).entries) :
    e ∈ pairs := by
  induction pairs using List.reverseRecOn with
  | nil => exact h
  | append_singleton rest last ih =>
    rw [ofPairs_concat] at h
    rcases mem_of_set h with h | rfl
    · exact List.mem_append_left _ (ih h)
    · exact List.mem_append_right _ List.mem_cons_self

/-- The last value given for a key. -/
def lastValue (k : κ) (pairs : List (κ × ν)) : Option ν :=
  (pairs.reverse.find? fun e => e.1 = k).map Prod.snd

theorem get?_ofPairs (pairs : List (κ × ν)) (k : κ) :
    (ofPairs pairs).get? k = lastValue k pairs := by
  induction pairs using List.reverseRecOn with
  | nil => rfl
  | append_singleton rest e ih =>
    rw [ofPairs_concat, lastValue, List.reverse_append]
    by_cases hk : e.1 = k
    · subst hk
      rw [get?_set_self]
      simp
    · rw [get?_set_of_ne _ _ (Ne.symm hk), ih, lastValue]
      simp [hk]

theorem key_mem_of_ofPairs {pairs : List (κ × ν)} {e : κ × ν} (h : e ∈ (ofPairs pairs).entries) :
    e ∈ pairs := by
  have hget := (mem_iff_get? (ofPairs pairs) e.1 e.2).mp h
  rw [get?_ofPairs, lastValue] at hget
  obtain ⟨e', hfind, hsnd⟩ := Option.map_eq_some_iff.mp hget
  have hkey : e'.1 = e.1 := by simpa using List.find?_some hfind
  have hmem := List.mem_reverse.mp (List.mem_of_find?_eq_some hfind)
  rwa [show e' = e from Prod.ext hkey hsnd] at hmem

theorem lastValue_filter (p : κ → Bool) {k : κ} (hk : p k) (pairs : List (κ × ν)) :
    lastValue k (pairs.filter fun e => p e.1) = lastValue k pairs := by
  rw [lastValue, lastValue, ← List.filter_reverse, List.find?_filter]
  congr 1
  refine List.find?_congr fun e _ => ?_
  by_cases he : e.1 = k
  · simp [he, hk]
  · simp [he]

theorem set_entries_of_new {d : Dict κ ν} {k : κ} {v : ν} (h : ∀ e ∈ d.entries, e.1 ≠ k) :
    (d.set k v).entries = d.entries ++ [(k, v)] := by
  refine setEntry_of_notMem fun hmem => ?_
  obtain ⟨e, he, hk⟩ := List.mem_map.mp hmem
  exact h e he hk

theorem ofPairs_entries {pairs : List (κ × ν)} (h : (pairs.map Prod.fst).Nodup) :
    (ofPairs pairs).entries = pairs := by
  induction pairs using List.reverseRecOn with
  | nil => rfl
  | append_singleton rest e ih =>
    rw [List.map_append, List.nodup_append] at h
    have hrest := ih h.1
    rw [ofPairs_concat, set_entries_of_new, hrest]
    intro e' he'
    rw [hrest] at he'
    exact h.2.2 e'.1 (List.mem_map_of_mem he') e.1 (by simp)

/-- With no key twice every pair is found again. -/
theorem get?_ofPairs_of_mem {pairs : List (κ × ν)} (h : (pairs.map Prod.fst).Nodup) {k : κ} {v : ν}
    (hmem : (k, v) ∈ pairs) : (ofPairs pairs).get? k = some v := by
  rw [← mem_iff_get?, ofPairs_entries h]
  exact hmem

theorem mem_keys_ofPairs {pairs : List (κ × ν)} {k : κ} :
    k ∈ (ofPairs pairs).entries.map Prod.fst ↔ k ∈ pairs.map Prod.fst := by
  constructor
  · intro h
    obtain ⟨e, he, rfl⟩ := List.mem_map.mp h
    exact List.mem_map_of_mem (key_mem_of_ofPairs he)
  · intro h
    obtain ⟨e, he, rfl⟩ := List.mem_map.mp h
    cases hlast : lastValue e.1 pairs with
    | some v =>
      rw [← get?_ofPairs, ← mem_iff_get?] at hlast
      exact List.mem_map.mpr ⟨(e.1, v), hlast, rfl⟩
    | none =>
      rw [lastValue, Option.map_eq_none_iff, List.find?_eq_none] at hlast
      exact absurd rfl (of_decide_eq_false (Bool.eq_false_iff.mpr (hlast e (by simpa using he))))

/-! ## Items kept under keys -/

section Keyed

variable {α : Type} {key : α → κ} (value : α → ν) {items distinct : List α}

/-- Items with a key each: the dictionary has every item once, however often it was set. -/
theorem entries_perm_of_separate (hnodup : distinct.Nodup) (hmem : ∀ a, a ∈ distinct ↔ a ∈ items)
    (hsep : ∀ a ∈ items, ∀ b ∈ items, key a = key b → a = b) :
    (ofPairs (items.map fun a => (key a, value a))).entries.Perm
      (distinct.map fun a => (key a, value a)) := by
  have hinj : ∀ a ∈ distinct, ∀ b ∈ distinct, (key a, value a) = (key b, value b) → a = b :=
    fun a ha b hb h => hsep a ((hmem a).mp ha) b ((hmem b).mp hb) (congrArg Prod.fst h)
  refine (List.perm_ext_iff_of_nodup (List.Nodup.of_map _ (ofPairs _).nodup)
    (List.Nodup.map_on hinj hnodup)).mpr fun e => ?_
  constructor
  · intro he
    obtain ⟨a, ha, rfl⟩ := List.mem_map.mp (key_mem_of_ofPairs he)
    exact List.mem_map_of_mem ((hmem a).mpr ha)
  · intro he
    obtain ⟨a, ha, rfl⟩ := List.mem_map.mp he
    have hkey : key a ∈ (ofPairs (items.map fun a => (key a, value a))).entries.map Prod.fst := by
      rw [mem_keys_ofPairs, List.map_map]
      exact List.mem_map_of_mem ((hmem a).mp ha)
    obtain ⟨e, he, hfst⟩ := List.mem_map.mp hkey
    obtain ⟨b, hb, rfl⟩ := List.mem_map.mp (key_mem_of_ofPairs he)
    rwa [hsep b hb a ((hmem a).mp ha) hfst] at he

/-- With as many entries as items no two items share a key. -/
theorem separate_of_length (hmem : ∀ a, a ∈ distinct ↔ a ∈ items)
    (hlength : distinct.length ≤ (ofPairs (items.map fun a => (key a, value a))).entries.length) :
    ∀ a ∈ items, ∀ b ∈ items, key a = key b → a = b := by
  generalize hd : ofPairs (items.map fun a => (key a, value a)) = d at hlength
  have hsubset : d.entries.map Prod.fst ⊆ distinct.map key := by
    intro k hk
    rw [← hd, mem_keys_ofPairs, List.map_map] at hk
    obtain ⟨a, ha, rfl⟩ := List.mem_map.mp hk
    exact List.mem_map_of_mem ((hmem a).mpr ha)
  have hperm := (d.nodup.subperm hsubset).perm_of_length_le (by simpa using hlength)
  have hkeys : (distinct.map key).Nodup := hperm.nodup_iff.mp d.nodup
  intro a ha b hb h
  exact List.inj_on_of_nodup_map hkeys ((hmem a).mpr ha) ((hmem b).mpr hb) h

end Keyed

end Dict
