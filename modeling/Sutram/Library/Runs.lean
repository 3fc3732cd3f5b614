/-
Runs of a step function that may refuse an action.

A system is a function `step : σ → α → Option σ`: `none` says the action is not
enabled in that state.  `run` performs a list of actions, and `Along R` says that
every transition a list of actions takes is related by `R`.  A safety property of
a system is an `Along`; the condition under which it holds is an `Along` too, with
a relation that reads only the state before the action.  The rules of this file
turn an invariant of one step into either.
-/
import Mathlib.Logic.Function.Basic

namespace Runs

variable {σ α : Type}

/-- The state after the actions, when all of them are enabled. -/
def run (step : σ → α → Option σ) : σ → List α → Option σ
  | s, [] => some s
  | s, a :: as =>
    match step s a with
    | none => none
    | some t => run step t as

/-- Every transition taken along the actions satisfies `R`.  Nothing is asked
after an action that is refused. -/
def Along (step : σ → α → Option σ) (R : σ → α → σ → Prop) : σ → List α → Prop
  | _, [] => True
  | s, a :: as =>
    match step s a with
    | none => True
    | some t => R s a t ∧ Along step R t as

instance decidableAlong (step : σ → α → Option σ) (R : σ → α → σ → Prop)
    [∀ s a t, Decidable (R s a t)] : ∀ s as, Decidable (Along step R s as)
  | _, [] => isTrue trivial
  | s, a :: as =>
    match h : step s a with
    | none => isTrue (by simp [Along, h])
    | some t =>
      have := decidableAlong step R t as
      decidable_of_iff (R s a t ∧ Along step R t as) (by simp [Along, h])

variable {step : σ → α → Option σ} {R : σ → α → σ → Prop}

@[simp] theorem run_nil (s : σ) : run step s [] = some s := rfl

@[simp] theorem along_nil (s : σ) : Along step R s [] := trivial

theorem run_cons_some {s t : σ} {a : α} (h : step s a = some t) (as : List α) :
    run step s (a :: as) = run step t as := by
  simp [run, h]

theorem along_cons_some {s t : σ} {a : α} (h : step s a = some t) (as : List α) :
    Along step R s (a :: as) ↔ R s a t ∧ Along step R t as := by
  simp [Along, h]

/-- A nonempty run is one step followed by a run. -/
theorem run_cons_eq_some {s u : σ} {a : α} {as : List α}
    (h : run step s (a :: as) = some u) :
    ∃ t, step s a = some t ∧ run step t as = some u := by
  cases hs : step s a with
  | none => simp [run, hs] at h
  | some t => exact ⟨t, rfl, by rwa [run_cons_some hs] at h⟩

/-- A run on given input ends as its evaluation says. -/
theorem exists_of_any {P : σ → Prop} [DecidablePred P] {o : Option σ} (h : o.any fun t => P t) :
    ∃ t, o = some t ∧ P t := by
  obtain ⟨t, ht, hP⟩ := (Option.any_eq_true _ _).mp h
  exact ⟨t, ht, of_decide_eq_true hP⟩

/-- A condition on the actions alone. -/
theorem along_of_mem {P : α → Prop} {as : List α} (h : ∀ a ∈ as, P a) (s : σ) :
    Along step (fun _ a _ => P a) s as := by
  induction as generalizing s with
  | nil => trivial
  | cons a as ih =>
    rw [List.forall_mem_cons] at h
    cases hs : step s a with
    | none => simp [Along, hs]
    | some t =>
      rw [along_cons_some hs]
      exact ⟨h.1, ih h.2 t⟩

theorem along_and {R' : σ → α → σ → Prop} {s : σ} {as : List α} (h : Along step R s as)
    (h' : Along step R' s as) : Along step (fun s a t => R s a t ∧ R' s a t) s as := by
  induction as generalizing s with
  | nil => trivial
  | cons a as ih =>
    cases hs : step s a with
    | none => simp [Along, hs]
    | some t =>
      rw [along_cons_some hs] at h h' ⊢
      exact ⟨⟨h.1, h'.1⟩, ih h.2 h'.2⟩

/-- The invariant rule.  `I` is kept by every step whose guard `G` holds, and `I`
with the guard gives `R`; then a run that keeps to the guard satisfies `R`. -/
theorem along_of_invariant {I : σ → Prop} {G : σ → α → Prop}
    (keep : ∀ s a t, I s → G s a → step s a = some t → I t)
    (observe : ∀ s a t, I s → G s a → step s a = some t → R s a t)
    {s : σ} {as : List α} (hI : I s) (hG : Along step (fun s a _ => G s a) s as) :
    Along step R s as := by
  induction as generalizing s with
  | nil => trivial
  | cons a as ih =>
    cases hs : step s a with
    | none => simp [Along, hs]
    | some t =>
      rw [along_cons_some hs] at hG ⊢
      exact ⟨observe s a t hI hG.1 hs, ih (keep s a t hI hG.1 hs) hG.2⟩

/-- One property of all transitions from another, given an invariant that the first
keeps. -/
theorem along_imp {I : σ → Prop} {R R' : σ → α → σ → Prop}
    (keep : ∀ s a t, I s → step s a = some t → R s a t → I t)
    (observe : ∀ s a t, I s → step s a = some t → R s a t → R' s a t)
    {s : σ} {as : List α} (hI : I s) (h : Along step R s as) : Along step R' s as := by
  induction as generalizing s with
  | nil => trivial
  | cons a as ih =>
    cases hs : step s a with
    | none => simp [Along, hs]
    | some t =>
      rw [along_cons_some hs] at h ⊢
      exact ⟨observe s a t hI hs h.1, ih (keep s a t hI hs h.1) h.2⟩

/-- Two properties of all transitions that every transition has together, given an
invariant that the first keeps. -/
theorem along_iff {I : σ → Prop} {R R' : σ → α → σ → Prop}
    (keep : ∀ s a t, I s → step s a = some t → R s a t → I t)
    (equiv : ∀ s a t, I s → step s a = some t → (R s a t ↔ R' s a t))
    {s : σ} {as : List α} (hI : I s) : Along step R s as ↔ Along step R' s as := by
  constructor
  · exact along_imp keep (fun s a t hI hs => (equiv s a t hI hs).mp) hI
  · refine along_imp (fun s a t hI hs hR' => ?_) (fun s a t hI hs => (equiv s a t hI hs).mpr) hI
    exact keep s a t hI hs ((equiv s a t hI hs).mpr hR')

/-- The invariant rule at the end of a run. -/
theorem invariant_run {I : σ → Prop} {G : σ → α → Prop}
    (keep : ∀ s a t, I s → G s a → step s a = some t → I t)
    {s t : σ} {as : List α} (hI : I s) (hG : Along step (fun s a _ => G s a) s as)
    (h : run step s as = some t) : I t := by
  induction as generalizing s with
  | nil =>
    obtain rfl : s = t := by simpa using h
    exact hI
  | cons a as ih =>
    obtain ⟨u, hu, hrun⟩ := run_cons_eq_some h
    rw [along_cons_some hu] at hG
    exact ih (keep s a u hI hG.1 hu) hG.2 hrun

/-- The invariant rule for what is said of a state and of the actions that have led to it. -/
theorem history_run {P : List α → σ → Prop}
    (keep : ∀ as s a t, P as s → step s a = some t → P (as ++ [a]) t)
    {s t : σ} {as : List α} (hP : P [] s) (h : run step s as = some t) : P as t := by
  have hrest : ∀ (later done : List α) (u : σ), P done u → run step u later = some t →
      P (done ++ later) t := by
    intro later
    induction later with
    | nil =>
      intro done u hu hrun
      obtain rfl : u = t := by simpa using hrun
      rwa [List.append_nil]
    | cons a later ih =>
      intro done u hu hrun
      obtain ⟨v, hv, hrun⟩ := run_cons_eq_some hrun
      have hnext := ih (done ++ [a]) v (keep done u a v hu hv) hrun
      rwa [List.append_assoc, List.singleton_append] at hnext
  exact hrest as [] s hP h

end Runs
