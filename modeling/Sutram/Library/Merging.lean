/-
Dictionaries that merge the values of a key.

A key that comes again has its value combined with the one that is there.  What is under a
key is then a function of the values given for it, and pairs are found again as they were
exactly when no key among them comes twice.
-/
import Sutram.Library.Dict

namespace Dict

variable {κ ν : Type} [DecidableEq κ] (combine : ν → ν → ν)

/-- One more value for a key. -/
def combined (old : Option ν) (v : ν) : ν :=
  match old with
  | some w => combine w v
  | none => v

def merge (pairs : List (κ × ν)) : Dict κ ν :=
  pairs.foldl (fun d e => d.set e.1 (combined combine (d.get? e.1) e.2)) empty

/-- The values given for a key, in one. -/
def mergedValue (k : κ) (pairs : List (κ × ν)) : Option ν :=
  ((pairs.filter fun e => e.1 = k).map Prod.snd).foldl (fun o v => some (combined combine o v)) none

variable {combine} {pairs : List (κ × ν)} {k : κ}

theorem merge_concat (pairs : List (κ × ν)) (e : κ × ν) :
    merge combine (pairs ++ [e]) =
      (merge combine pairs).set e.1 (combined combine ((merge combine pairs).get? e.1) e.2) := by
  rw [merge, List.foldl_append]
  rfl

theorem get?_merge (pairs : List (κ × ν)) (k : κ) :
    (merge combine pairs).get? k = mergedValue combine k pairs := by
  induction pairs using List.reverseRecOn with
  | nil => rfl
  | append_singleton rest e ih =>
    rw [merge_concat, mergedValue, List.filter_append]
    by_cases hk : e.1 = k
    · subst hk
      rw [get?_set_self, ih]
      simp [mergedValue]
    · rw [get?_set_of_ne _ _ (Ne.symm hk), ih]
      simp [mergedValue, hk]

theorem merge_entries (h : (pairs.map Prod.fst).Nodup) : (merge combine pairs).entries = pairs := by
  induction pairs using List.reverseRecOn with
  | nil => rfl
  | append_singleton rest e ih =>
    rw [List.map_append, List.nodup_append] at h
    have hrest := ih h.1
    have hnew : ∀ e' ∈ (merge combine rest).entries, e'.1 ≠ e.1 := by
      rw [hrest]
      exact fun e' he' => h.2.2 e'.1 (List.mem_map_of_mem he') e.1 (by simp)
    have hget : (merge combine rest).get? e.1 = none := by
      rw [get?, Option.map_eq_none_iff, List.find?_eq_none]
      exact fun e' he' => by simpa using hnew e' he'
    rw [merge_concat, hget, set_entries_of_new hnew, hrest]
    rfl

/-- In a dictionary every key has the one value. -/
theorem mergedValue_entries (d : Dict κ ν) (k : κ) :
    mergedValue combine k d.entries = d.get? k := by
  rw [← get?_merge, get?, merge_entries d.nodup]
  rfl

theorem mergedValue_filter (p : κ → Bool) (hk : p k) (pairs : List (κ × ν)) :
    mergedValue combine k (pairs.filter fun e => p e.1) = mergedValue combine k pairs := by
  rw [mergedValue, mergedValue, List.filter_filter]
  congr 2
  refine List.filter_congr fun e _ => ?_
  by_cases he : e.1 = k
  · simp [he, hk]
  · simp [he]

theorem mergedValue_append_of_notMem (rest : List (κ × ν)) (h : k ∉ rest.map Prod.fst) :
    mergedValue combine k (pairs ++ rest) = mergedValue combine k pairs := by
  have hnil : rest.filter (fun e => e.1 = k) = [] := by
    refine List.filter_eq_nil_iff.mpr fun e he hkey => h ?_
    exact List.mem_map.mpr ⟨e, he, of_decide_eq_true hkey⟩
  rw [mergedValue, mergedValue, List.filter_append, hnil, List.append_nil]

theorem key_mem_of_merge {e : κ × ν} (h : e ∈ (merge combine pairs).entries) :
    e.1 ∈ pairs.map Prod.fst := by
  have hget := (mem_iff_get? (merge combine pairs) e.1 e.2).mp h
  by_contra hnot
  have hnone : mergedValue combine e.1 ([] ++ pairs) = none :=
    mergedValue_append_of_notMem pairs hnot
  rw [List.nil_append] at hnone
  rw [get?_merge, hnone] at hget
  cases hget

/-- Among the keys that satisfy a condition, the pairs are the entries when none of these
keys comes twice. -/
theorem filter_merge_perm_iff (p : κ → Bool) :
    ((merge combine pairs).entries.filter fun e => p e.1).Perm (pairs.filter fun e => p e.1) ↔
      ((pairs.filter fun e => p e.1).map Prod.fst).Nodup := by
  have hnodup : (((merge combine pairs).entries.filter fun e => p e.1).map Prod.fst).Nodup :=
    (merge combine pairs).nodup.sublist (List.filter_sublist.map Prod.fst)
  constructor
  · intro h
    exact (h.map Prod.fst).nodup_iff.mp hnodup
  · intro h
    have hentries : (merge combine (pairs.filter fun e => p e.1)).entries =
        pairs.filter fun e => p e.1 := merge_entries h
    refine (List.perm_ext_iff_of_nodup hnodup.of_map h.of_map).mpr ?_
    rintro ⟨k, v⟩
    rw [List.mem_filter, mem_iff_get?, get?_merge]
    constructor
    · rintro ⟨hvalue, hk⟩
      rw [← mergedValue_filter p hk, ← get?_merge, ← mem_iff_get?, hentries] at hvalue
      exact hvalue
    · intro hmem
      have hk : p k := (List.mem_filter.mp hmem).2
      rw [← hentries, mem_iff_get?, get?_merge, mergedValue_filter p hk] at hmem
      exact ⟨hmem, hk⟩

/-- The same when the last value replaces the others. -/
theorem ofPairs_perm_iff : (ofPairs pairs).entries.Perm pairs ↔ (pairs.map Prod.fst).Nodup := by
  constructor
  · intro h
    exact (h.map Prod.fst).nodup_iff.mp (ofPairs pairs).nodup
  · intro h
    rw [ofPairs_entries h]

end Dict
