/-
Views of a system shared by several parties.

A system serves many parties at once, and each action of it belongs to one of them or
to all.  `view` is what the system is to one party, and `act` says which action of the
party's own system an action of the shared one is, if any.  When an action that the
party has no part in leaves the view alone, and every other action does to the view
what the party's system does, a run of the shared system is, seen by the party, a run
of its own: what holds of every run there holds of every view here.

A party then sees nothing of the others.  Two runs that agree on its actions end in one
view of it, whatever else happens in either, and whatever else there is in two systems.
-/
import Sutram.Library.Runs

namespace Runs

variable {σ α τ β : Type}

/-- One step of the shared system is one step of the party's system, or none, in every
state that satisfies `I`. -/
structure Projects (step : σ → α → Option σ) (step' : τ → β → Option τ) (view : σ → τ)
    (act : α → Option β) (I : σ → Prop) : Prop where
  keep : ∀ {s s' : σ} {a : α}, I s → step s a = some s' → I s'
  seen : ∀ {s s' : σ} {a : α} {b : β}, I s → step s a = some s' → act a = some b →
    step' (view s) b = some (view s')
  unseen : ∀ {s s' : σ} {a : α}, I s → step s a = some s' → act a = none → view s' = view s

namespace Projects

variable {step : σ → α → Option σ} {step' : τ → β → Option τ} {view : σ → τ}
  {act : α → Option β} {I : σ → Prop} {s s' : σ} {as : List α}

/-- The invariant holds at the end of a run. -/
theorem keep_run (h : Projects step step' view act I) (hI : I s)
    (hrun : Runs.run step s as = some s') : I s' := by
  induction as generalizing s with
  | nil =>
    obtain rfl : s = s' := by simpa using hrun
    exact hI
  | cons a as ih =>
    obtain ⟨t, ht, hrest⟩ := run_cons_eq_some hrun
    exact ih (h.keep hI ht) hrest

/-- A run of the shared system, seen by the party. -/
theorem run (h : Projects step step' view act I) (hI : I s) (hrun : Runs.run step s as = some s') :
    Runs.run step' (view s) (as.filterMap act) = some (view s') := by
  induction as generalizing s with
  | nil =>
    obtain rfl : s = s' := by simpa using hrun
    rfl
  | cons a as ih =>
    obtain ⟨t, ht, hrest⟩ := run_cons_eq_some hrun
    cases hact : act a with
    | none =>
      rw [List.filterMap_cons_none hact, ← h.unseen hI ht hact]
      exact ih (h.keep hI ht) hrest
    | some b =>
      rw [List.filterMap_cons_some hact, run_cons_some (h.seen hI ht hact)]
      exact ih (h.keep hI ht) hrest

/-- Two runs that agree on the party's actions end in one view of it.  They may be of two
systems in which the party has the same part. -/
theorem view_eq {σ₂ α₂ : Type} {step₂ : σ₂ → α₂ → Option σ₂} {view₂ : σ₂ → τ}
    {act₂ : α₂ → Option β} {J : σ₂ → Prop} (h : Projects step step' view act I)
    (h₂ : Projects step₂ step' view₂ act₂ J) {t t' : σ₂} {bs : List α₂} (hI : I s) (hJ : J t)
    (hview : view s = view₂ t) (hact : as.filterMap act = bs.filterMap act₂)
    (hrun : Runs.run step s as = some s') (hrun₂ : Runs.run step₂ t bs = some t') :
    view s' = view₂ t' := by
  have hs := h.run hI hrun
  rw [hact, hview, h₂.run hJ hrun₂] at hs
  exact (Option.some.inj hs).symm

end Projects

end Runs
