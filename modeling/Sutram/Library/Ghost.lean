/-
Systems with a ghost beside their state.

A ghost records what a run has done so far.  It is updated by every transition and
read by none, so the runs of the extended system are the runs of the system itself,
and what is said about the ghost is said about them.
-/
import Sutram.Library.Runs

namespace Runs

variable {σ α γ : Type}

structure Ghosted (σ γ : Type) where
  state : σ
  ghost : γ

/-- The step of the system, with the ghost updated from the transition taken. -/
def ghostStep (step : σ → α → Option σ) (note : σ → α → σ → γ → γ) (s : Ghosted σ γ) (a : α) :
    Option (Ghosted σ γ) :=
  match step s.state a with
  | none => none
  | some t => some ⟨t, note s.state a t s.ghost⟩

variable {step : σ → α → Option σ} {note : σ → α → σ → γ → γ}

theorem ghostStep_some {s : Ghosted σ γ} {a : α} {t : σ} (h : step s.state a = some t) :
    ghostStep step note s a = some ⟨t, note s.state a t s.ghost⟩ := by
  simp [ghostStep, h]

/-- A transition of the extended system is one of the system, and the ghost's update. -/
theorem ghostStep_eq_some {s s' : Ghosted σ γ} {a : α} (h : ghostStep step note s a = some s') :
    step s.state a = some s'.state ∧ s'.ghost = note s.state a s'.state s.ghost := by
  unfold ghostStep at h
  split at h
  · cases h
  · rename_i t ht
    cases h
    exact ⟨ht, rfl⟩

theorem ghostStep_none {s : Ghosted σ γ} {a : α} (h : step s.state a = none) :
    ghostStep step note s a = none := by
  simp [ghostStep, h]

/-- Nothing is asked of a run by looking at the state alone that is not asked of the
extended one. -/
theorem along_ghost_iff {R : σ → α → σ → Prop} {s : Ghosted σ γ} {as : List α} :
    Along (ghostStep step note) (fun s a t => R s.state a t.state) s as ↔
      Along step R s.state as := by
  induction as generalizing s with
  | nil => simp
  | cons a as ih =>
    cases hs : step s.state a with
    | none => simp [Along, hs, ghostStep_none hs]
    | some t =>
      rw [along_cons_some hs, along_cons_some (ghostStep_some hs), ih]

/-- A run of the extended system, read without its ghost. -/
theorem run_of_ghost {s s' : Ghosted σ γ} {as : List α}
    (h : run (ghostStep step note) s as = some s') : run step s.state as = some s'.state := by
  induction as generalizing s with
  | nil =>
    obtain rfl : s = s' := by simpa using h
    rfl
  | cons a as ih =>
    obtain ⟨t, ht, hrun⟩ := run_cons_eq_some h
    rw [run_cons_some (ghostStep_eq_some ht).1]
    exact ih hrun

end Runs
