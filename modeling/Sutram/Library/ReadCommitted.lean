/-
One row under READ COMMITTED.

A row has a committed version and, while some transaction has updated it, that
transaction's uncommitted version.  The second component is also the row lock: an
update by another writer waits (`update` is `none`) until the owner commits or
rolls back, and then applies to the version committed by that time.  A statement
reads the writer's own uncommitted version where there is one and the committed
version otherwise.
-/
/-- A row, with the uncommitted version of the writer that holds its row lock. -/
structure Versioned (ω ρ : Type) where
  committed : ρ
  uncommitted : Option (ω × ρ)

namespace Versioned

variable {ω ρ : Type}

/-- A row no transaction is updating. -/
def settled (r : ρ) : Versioned ω ρ := ⟨r, none⟩

@[simp] theorem settled_committed (r : ρ) : (settled r : Versioned ω ρ).committed = r := rfl

@[simp] theorem settled_uncommitted (r : ρ) :
    (settled r : Versioned ω ρ).uncommitted = none := rfl

variable [DecidableEq ω]

/-- What a statement of `wr` reads. -/
def view (v : Versioned ω ρ) (wr : ω) : ρ :=
  match v.uncommitted with
  | some (o, r) => if o = wr then r else v.committed
  | none => v.committed

/-- An UPDATE by `wr`, refused while another writer holds the row lock. -/
def update (v : Versioned ω ρ) (wr : ω) (f : ρ → ρ) : Option (Versioned ω ρ) :=
  match v.uncommitted with
  | some (o, r) => if o = wr then some { v with uncommitted := some (wr, f r) } else none
  | none => some { v with uncommitted := some (wr, f v.committed) }

/-- Make the version of `wr` the committed one, if it has one. -/
def commit (v : Versioned ω ρ) (wr : ω) : Versioned ω ρ :=
  match v.uncommitted with
  | some (o, r) => if o = wr then settled r else v
  | none => v

/-- Drop the version of `wr`, if it has one. -/
def rollback (v : Versioned ω ρ) (wr : ω) : Versioned ω ρ :=
  match v.uncommitted with
  | some (o, _) => if o = wr then settled v.committed else v
  | none => v

theorem view_eq_committed {v : Versioned ω ρ} {wr : ω}
    (h : ∀ r, v.uncommitted ≠ some (wr, r)) : v.view wr = v.committed := by
  unfold view
  split
  · rename_i o r ho
    by_cases hwr : o = wr
    · subst hwr
      exact absurd ho (h r)
    · rw [if_neg hwr]
  · rfl

theorem view_own {v : Versioned ω ρ} {wr : ω} {r : ρ} (h : v.uncommitted = some (wr, r)) :
    v.view wr = r := by
  simp [view, h]

/-- An update that goes through leaves the committed version and gives the writer
the row lock, with its version computed from what it could read. -/
theorem update_eq_some {v v' : Versioned ω ρ} {wr : ω} {f : ρ → ρ}
    (h : v.update wr f = some v') :
    v'.committed = v.committed ∧ v'.uncommitted = some (wr, f (v.view wr)) ∧
      ∀ o r, v.uncommitted = some (o, r) → o = wr := by
  unfold update at h
  split at h
  · rename_i o r ho
    by_cases hwr : o = wr
    · subst hwr
      rw [if_pos rfl] at h
      cases h
      refine ⟨rfl, by rw [view_own ho], ?_⟩
      intro o' r' ho'
      rw [ho] at ho'
      cases ho'
      rfl
    · rw [if_neg hwr] at h
      cases h
  · rename_i hn
    cases h
    refine ⟨rfl, by simp [view, hn], ?_⟩
    intro o r ho
    rw [hn] at ho
    cases ho

/-- A commit leaves no version of the writer behind. -/
theorem commit_uncommitted (v : Versioned ω ρ) (wr : ω) (r : ρ) :
    (v.commit wr).uncommitted ≠ some (wr, r) := by
  unfold commit
  split
  · rename_i o r' ho
    by_cases hwr : o = wr
    · rw [if_pos hwr]
      simp
    · rw [if_neg hwr, ho]
      simp [hwr]
  · rename_i hn
    rw [hn]
    simp

theorem rollback_uncommitted (v : Versioned ω ρ) (wr : ω) (r : ρ) :
    (v.rollback wr).uncommitted ≠ some (wr, r) := by
  unfold rollback
  split
  · rename_i o r' ho
    by_cases hwr : o = wr
    · rw [if_pos hwr]
      simp
    · rw [if_neg hwr, ho]
      simp [hwr]
  · rename_i hn
    rw [hn]
    simp

@[simp] theorem rollback_committed (v : Versioned ω ρ) (wr : ω) :
    (v.rollback wr).committed = v.committed := by
  unfold rollback
  split
  · split <;> rfl
  · rfl

theorem commit_own {v : Versioned ω ρ} {wr : ω} {r : ρ} (h : v.uncommitted = some (wr, r)) :
    v.commit wr = settled r := by
  simp [commit, h]

theorem commit_of_not_own {v : Versioned ω ρ} {wr : ω}
    (h : ∀ r, v.uncommitted ≠ some (wr, r)) : v.commit wr = v := by
  unfold commit
  split
  · rename_i o r ho
    by_cases hwr : o = wr
    · subst hwr
      exact absurd ho (h r)
    · rw [if_neg hwr]
  · rfl

/-- A commit installs the writer's version, or changes nothing. -/
theorem commit_cases (v : Versioned ω ρ) (wr : ω) :
    (∃ r, v.uncommitted = some (wr, r) ∧ v.commit wr = settled r) ∨
      ((∀ r, v.uncommitted ≠ some (wr, r)) ∧ v.commit wr = v) := by
  by_cases h : ∃ r, v.uncommitted = some (wr, r)
  · obtain ⟨r, hr⟩ := h
    exact Or.inl ⟨r, hr, commit_own hr⟩
  · have hn : ∀ r, v.uncommitted ≠ some (wr, r) := fun r hr => h ⟨r, hr⟩
    exact Or.inr ⟨hn, commit_of_not_own hn⟩

/-- Another writer's commit or rollback leaves a held row lock alone. -/
theorem commit_of_ne {v : Versioned ω ρ} {wr o : ω} {r : ρ}
    (h : v.uncommitted = some (o, r)) (hne : o ≠ wr) : v.commit wr = v :=
  commit_of_not_own fun r' hr' => hne (by rw [h] at hr'; cases hr'; rfl)

theorem rollback_of_ne {v : Versioned ω ρ} {wr o : ω} {r : ρ}
    (h : v.uncommitted = some (o, r)) (hne : o ≠ wr) : v.rollback wr = v := by
  simp [rollback, h, hne]

/-- After a rollback the row lock is free or another writer's, as it was. -/
theorem rollback_eq_some {v : Versioned ω ρ} {wr o : ω} {r : ρ}
    (h : (v.rollback wr).uncommitted = some (o, r)) : v.uncommitted = some (o, r) ∧ o ≠ wr := by
  unfold rollback at h
  split at h
  · rename_i o' r' ho
    by_cases hwr : o' = wr
    · simp [hwr] at h
    · rw [if_neg hwr, ho] at h
      cases h
      exact ⟨ho, hwr⟩
  · rename_i hn
    rw [hn] at h
    cases h

theorem commit_eq_some {v : Versioned ω ρ} {wr o : ω} {r : ρ}
    (h : (v.commit wr).uncommitted = some (o, r)) :
    v.uncommitted = some (o, r) ∧ o ≠ wr ∧ (v.commit wr).committed = v.committed := by
  rcases commit_cases v wr with ⟨r', _, hc⟩ | ⟨hn, hc⟩
  · rw [hc] at h
    cases h
  · rw [hc] at h
    refine ⟨h, ?_, by rw [hc]⟩
    rintro rfl
    exact hn r h

/-- After its commit a writer finds committed what it could read before. -/
theorem commit_committed (v : Versioned ω ρ) (wr : ω) :
    (v.commit wr).committed = v.view wr := by
  rcases commit_cases v wr with ⟨r, hr, hc⟩ | ⟨hn, hc⟩
  · rw [hc, view_own hr, settled_committed]
  · rw [hc, view_eq_committed hn]

@[simp] theorem commit_view (v : Versioned ω ρ) (wr : ω) : (v.commit wr).view wr = v.view wr := by
  rw [view_eq_committed (commit_uncommitted v wr), commit_committed]

@[simp] theorem rollback_view (v : Versioned ω ρ) (wr : ω) :
    (v.rollback wr).view wr = v.committed := by
  rw [view_eq_committed (rollback_uncommitted v wr), rollback_committed]

/-! ## The moves of one writer -/

/-- What `wr` can do to the row. -/
inductive Moves (wr : ω) (v : Versioned ω ρ) : Versioned ω ρ → Prop
  | stay : Moves wr v v
  | update {f : ρ → ρ} {v' : Versioned ω ρ} (h : v.update wr f = some v') : Moves wr v v'
  | commit : Moves wr v (v.commit wr)
  | rollback : Moves wr v (v.rollback wr)

/-- Nobody but the owner takes, drops or changes an uncommitted version. -/
theorem Moves.uncommitted_of_ne {wr o : ω} {v v' : Versioned ω ρ} {r : ρ} (h : Moves wr v v')
    (hne : o ≠ wr) : v'.uncommitted = some (o, r) ↔ v.uncommitted = some (o, r) := by
  cases h with
  | stay => rfl
  | update h =>
    obtain ⟨-, hu, hown⟩ := update_eq_some h
    constructor
    · intro ho
      rw [hu] at ho
      cases ho
      exact absurd rfl hne
    · intro ho
      exact absurd (hown o r ho) hne
  | commit =>
    constructor
    · intro ho
      exact (commit_eq_some ho).1
    · intro ho
      rw [commit_of_ne ho hne]
      exact ho
  | rollback =>
    constructor
    · intro ho
      exact (rollback_eq_some ho).1
    · intro ho
      rw [rollback_of_ne ho hne]
      exact ho

/-- While a writer holds the row lock the committed version stands still. -/
theorem Moves.committed_of_ne {wr o : ω} {v v' : Versioned ω ρ} {r : ρ} (h : Moves wr v v')
    (hne : o ≠ wr) (ho : v.uncommitted = some (o, r)) : v'.committed = v.committed := by
  cases h with
  | stay => rfl
  | update h => exact (update_eq_some h).1
  | commit => rw [commit_of_ne ho hne]
  | rollback => exact rollback_committed v wr

/-- Others change what a writer reads only by what they commit, and only while it has no
version of its own. -/
theorem Moves.view_cases {wr o : ω} {v v' : Versioned ω ρ} (h : Moves wr v v') (hne : o ≠ wr) :
    v'.view o = v.view o ∨ (v'.view o = v'.committed ∧ v.view o = v.committed) := by
  by_cases hown : ∃ r, v.uncommitted = some (o, r)
  · obtain ⟨r, hr⟩ := hown
    have hr' := (h.uncommitted_of_ne hne).mpr hr
    exact .inl (by rw [view_own hr, view_own hr'])
  · have hnone : ∀ r, v.uncommitted ≠ some (o, r) := fun r hr => hown ⟨r, hr⟩
    have hnone' : ∀ r, v'.uncommitted ≠ some (o, r) := fun r hr =>
      hnone r ((h.uncommitted_of_ne hne).mp hr)
    exact .inr ⟨view_eq_committed hnone', view_eq_committed hnone⟩

end Versioned
