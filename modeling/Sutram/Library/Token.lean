/-
One token among a pool and its holders.

A token lies in the pool or is with one holder; it may also be gone.  A holder takes it
from the pool, puts it back or drops it, and nobody else's hands change.
-/

namespace Token

variable {ι : Type} {pool pool' : Nat} {holds holds' : ι → Prop} {i : ι}

/-- At most one token, counting those in the pool and those held. -/
structure Single (pool : Nat) (holds : ι → Prop) : Prop where
  pool_le : pool ≤ 1
  free : ∀ i, holds i → pool = 0
  unique : ∀ i j, holds i → holds j → i = j

theorem Single.of_none (hpool : pool ≤ 1) (h : ∀ i, ¬holds i) : Single pool holds :=
  ⟨hpool, fun i hi => absurd hi (h i), fun i _ hi => absurd hi (h i)⟩

/-- Nobody comes to hold it who did not. -/
theorem Single.drop (h : Single pool holds) (hpool : pool' ≤ pool)
    (hholds : ∀ j, holds' j → holds j) : Single pool' holds' := by
  refine ⟨Nat.le_trans hpool h.pool_le, fun j hj => ?_, fun j k hj hk => ?_⟩
  · have hfree := h.free j (hholds j hj)
    omega
  · exact h.unique j k (hholds j hj) (hholds k hk)

/-- One takes it from the pool. -/
theorem Single.take (h : Single (pool + 1) holds) (hothers : ∀ j, j ≠ i → holds' j → holds j) :
    Single pool holds' := by
  have hnone : ∀ j, ¬holds j := fun j hj => absurd (h.free j hj) (Nat.succ_ne_zero pool)
  have honly : ∀ j, holds' j → j = i := fun j hj =>
    Classical.byContradiction fun hne => hnone j (hothers j hne hj)
  have hpool : pool = 0 := by
    have hle := h.pool_le
    omega
  refine ⟨by omega, fun _ _ => hpool, fun j k hj hk => ?_⟩
  rw [honly j hj, honly k hk]

/-- Its holder puts it into the pool. -/
theorem Single.put (h : Single pool holds) (hi : holds i) (hgone : ¬holds' i)
    (hothers : ∀ j, j ≠ i → holds' j → holds j) : Single (pool + 1) holds' := by
  have hnone : ∀ j, ¬holds' j := by
    intro j hj
    by_cases hji : j = i
    · exact hgone (hji ▸ hj)
    · exact hji (h.unique j i (hothers j hji hj) hi)
  rw [h.free i hi]
  exact Single.of_none (Nat.le_refl 1) hnone

end Token
