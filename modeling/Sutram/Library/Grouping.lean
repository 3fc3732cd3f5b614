/-
GROUP BY.

The rows of a table in groups, one for each value of a key that occurs.
-/
import Mathlib.Data.List.Dedup

namespace Grouping

variable {ρ κ : Type} [DecidableEq κ]

/-- One group for each key of the rows, with its rows in their order. -/
def groups (key : ρ → κ) (rows : List ρ) : List (κ × List ρ) :=
  (rows.map key).dedup.map fun k => (k, rows.filter fun row => key row = k)

theorem find?_key (f : κ → List ρ) (k : κ) (keys : List κ) :
    (keys.map fun k => (k, f k)).find? (fun g => g.1 = k) =
      if k ∈ keys then some (k, f k) else none := by
  induction keys with
  | nil => rfl
  | cons k' keys ih =>
    rw [List.map_cons, List.find?_cons, ih]
    by_cases hk : k' = k
    · subst hk
      simp
    · simp [hk, Ne.symm hk]

/-- A group has all the rows of its key; a key that does not occur has none. -/
theorem find?_groups (key : ρ → κ) (rows : List ρ) (k : κ) :
    (groups key rows).find? (fun g => g.1 = k) =
      if k ∈ rows.map key then some (k, rows.filter fun row => key row = k) else none := by
  rw [groups, find?_key]
  simp only [List.mem_dedup]

theorem filter_eq_nil {key : ρ → κ} {rows : List ρ} {k : κ} (h : k ∉ rows.map key) :
    (rows.filter fun row => key row = k) = [] := by
  rw [List.filter_eq_nil_iff]
  intro row hrow hk
  exact h (List.mem_map.mpr ⟨row, hrow, of_decide_eq_true hk⟩)

end Grouping
