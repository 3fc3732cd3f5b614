/-
The keys of a table at or above a bound, in ascending order.

A pass over these keys may be made in two parts.  If every later key lies above all
the earlier ones, the keys of the larger table are those of the smaller one and then
the keys from wherever the first part has left off.
-/
import Mathlib.Data.List.Sort

namespace SortedKeys

variable {κ : Type} [LinearOrder κ]

def keysFrom (bound : κ) (keys : List κ) : List κ :=
  (keys.filter fun k => bound ≤ k).insertionSort (· ≤ ·)

@[simp] theorem mem_keysFrom {bound k : κ} {keys : List κ} :
    k ∈ keysFrom bound keys ↔ k ∈ keys ∧ bound ≤ k := by
  simp [keysFrom]

theorem keysFrom_pairwise (bound : κ) {keys : List κ} (h : keys.Nodup) :
    (keysFrom bound keys).Pairwise (· < ·) := by
  have hsorted := List.pairwise_insertionSort (· ≤ ·) (keys.filter fun k => bound ≤ k)
  have hnodup := (List.perm_insertionSort (· ≤ ·) _).nodup_iff.mpr (h.filter fun k => bound ≤ k)
  exact (hsorted.and hnodup).imp fun h => lt_of_le_of_ne h.1 h.2

/-- Only one list of the keys is strictly ascending. -/
theorem eq_keysFrom {bound : κ} {keys l : List κ} (h : keys.Nodup) (hl : l.Pairwise (· < ·))
    (hmem : ∀ k, k ∈ l ↔ k ∈ keys ∧ bound ≤ k) : l = keysFrom bound keys := by
  refine List.Pairwise.eq_of_mem_iff hl (keysFrom_pairwise bound h) fun k => ?_
  rw [hmem, mem_keysFrom]

theorem keysFrom_eq_nil {bound : κ} {keys : List κ} :
    keysFrom bound keys = [] ↔ ∀ k ∈ keys, k < bound := by
  rw [List.eq_nil_iff_forall_not_mem]
  refine forall_congr' fun k => ?_
  rw [mem_keysFrom, not_and, not_le]

/-- The larger table in two parts.  `next` is where the pass over the smaller one has
left off: above its last key, or at the bound when it had none. -/
theorem keysFrom_append {bound next : κ} {keys keys' : List κ} (h : keys.Nodup)
    (h' : keys'.Nodup) (hsub : ∀ k ∈ keys, k ∈ keys')
    (hbelow : ∀ k ∈ keysFrom bound keys, k < next)
    (hnext : ∀ k ∈ keys', k ∉ keysFrom bound keys → (bound ≤ k ↔ next ≤ k)) :
    keysFrom bound keys' = keysFrom bound keys ++ keysFrom next keys' := by
  refine (eq_keysFrom h' ?_ fun k => ?_).symm
  · rw [List.pairwise_append]
    refine ⟨keysFrom_pairwise bound h, keysFrom_pairwise next h', ?_⟩
    intro a ha b hb
    exact lt_of_lt_of_le (hbelow a ha) (mem_keysFrom.mp hb).2
  · rw [List.mem_append]
    constructor
    · rintro (hk | hk)
      · have hmem := mem_keysFrom.mp hk
        exact ⟨hsub k hmem.1, hmem.2⟩
      · have hmem := mem_keysFrom.mp hk
        have hnot : k ∉ keysFrom bound keys := fun hin => (hbelow k hin).not_ge hmem.2
        exact ⟨hmem.1, (hnext k hmem.1 hnot).mpr hmem.2⟩
    · rintro ⟨hk, hle⟩
      by_cases hin : k ∈ keysFrom bound keys
      · exact .inl hin
      · exact .inr (mem_keysFrom.mpr ⟨hk, (hnext k hk hin).mp hle⟩)

end SortedKeys
