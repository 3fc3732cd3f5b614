/-
Which states a system can reach.

A state reaches another when some list of actions leads there.  What every action keeps
holds of every state reached, so one system may stand for another: where each step of a
larger system is a run of a smaller one, the invariants of the smaller hold in the
larger.
-/
import Sutram.Library.Runs

namespace Runs

variable {σ α : Type}

/-- Some list of actions leads from `s` to `t`. -/
def Reaches (step : σ → α → Option σ) (s t : σ) : Prop := ∃ as, run step s as = some t

variable {step : σ → α → Option σ} {s t u : σ}

theorem run_append {as bs : List α} (h : run step s as = some t) :
    run step s (as ++ bs) = run step t bs := by
  induction as generalizing s with
  | nil =>
    obtain rfl : s = t := by simpa using h
    rfl
  | cons a as ih =>
    obtain ⟨v, hv, hrest⟩ := run_cons_eq_some h
    rw [List.cons_append, run_cons_some hv, ih hrest]

namespace Reaches

theorem refl (s : σ) : Reaches step s s := ⟨[], rfl⟩

theorem single {a : α} (h : step s a = some t) : Reaches step s t :=
  ⟨[a], by rw [run_cons_some h, run_nil]⟩

theorem trans (h : Reaches step s t) (h' : Reaches step t u) : Reaches step s u := by
  obtain ⟨as, has⟩ := h
  obtain ⟨bs, hbs⟩ := h'
  exact ⟨as ++ bs, by rw [run_append has, hbs]⟩

theorem tail {a : α} (h : Reaches step s t) (ha : step t a = some u) : Reaches step s u :=
  h.trans (single ha)

/-- What every action keeps holds of every state reached. -/
theorem invariant {I : σ → Prop} (h : Reaches step s t)
    (keep : ∀ u a v, I u → step u a = some v → I v) (hI : I s) : I t := by
  obtain ⟨as, has⟩ := h
  exact invariant_run (G := fun _ _ => True) (fun u a v hu _ hv => keep u a v hu hv) hI
    (along_of_mem (P := fun _ => True) (fun _ _ => trivial) s) has

end Reaches

end Runs
