/-
Quotas: of the requests of each class the first `limit` are granted.

`decisions` is the list of requests in their order, each with its decision.  It is what
a counter for each class has to produce, however the counter is kept.
-/
import Mathlib.Data.List.Induction

namespace Quota

variable {α κ : Type} [DecidableEq κ]

/-- How many of the requests are of a class. -/
def asked (cls : α → κ) (k : κ) (requests : List α) : Nat := requests.countP fun a => cls a = k

def decisions (cls : α → κ) (limit : Nat) (requests : List α) : List (α × Bool) :=
  requests.foldl
    (fun log a => log ++ [(a, decide (asked cls (cls a) (log.map Prod.fst) < limit))]) []

/-- How many requests of a class are granted. -/
def granted (cls : α → κ) (k : κ) (log : List (α × Bool)) : Nat :=
  log.countP fun e => e.2 ∧ cls e.1 = k

variable {cls : α → κ} {limit : Nat}

@[simp] theorem asked_nil (k : κ) : asked cls k [] = 0 := rfl

theorem asked_concat (k : κ) (requests : List α) (a : α) :
    asked cls k (requests ++ [a]) = asked cls k requests + if cls a = k then 1 else 0 := by
  simp [asked, List.countP_append, List.countP_singleton]

@[simp] theorem decisions_nil : decisions cls limit [] = [] := rfl

@[simp] theorem decisions_requests (requests : List α) :
    (decisions cls limit requests).map Prod.fst = requests := by
  induction requests using List.reverseRecOn with
  | nil => rfl
  | append_singleton requests a ih =>
    rw [decisions, List.foldl_append, ← decisions, List.foldl_cons, List.foldl_nil,
      List.map_append, ih]
    rfl

/-- The decision on the next request. -/
theorem decisions_concat (requests : List α) (a : α) :
    decisions cls limit (requests ++ [a]) =
      decisions cls limit requests ++ [(a, decide (asked cls (cls a) requests < limit))] := by
  rw [decisions, List.foldl_append, ← decisions, List.foldl_cons, List.foldl_nil,
    decisions_requests]

/-- A request is granted when fewer than `limit` of its class have come before it. -/
theorem decisions_getElem? (requests : List α) (i : Nat) :
    (decisions cls limit requests)[i]? =
      requests[i]?.map fun a => (a, decide (asked cls (cls a) (requests.take i) < limit)) := by
  have hlength (requests : List α) :
      (decisions cls limit requests).length = requests.length := by
    rw [← List.length_map (f := Prod.fst), decisions_requests]
  induction requests using List.reverseRecOn with
  | nil => simp
  | append_singleton requests a ih =>
    rw [decisions_concat]
    rcases Nat.lt_trichotomy i requests.length with hi | rfl | hi
    · rw [List.getElem?_append_left (by rwa [hlength]), ih, List.getElem?_append_left hi,
        List.take_append_of_le_length (Nat.le_of_lt hi)]
    · rw [List.getElem?_append_right (Nat.le_of_eq (hlength requests)), hlength]
      simp
    · rw [List.getElem?_append_right (by rw [hlength]; exact Nat.le_of_lt hi), hlength,
        List.getElem?_append_right (Nat.le_of_lt hi)]
      have : i - requests.length ≠ 0 := by omega
      simp [this]

/-- Of each class exactly as many are granted as the limit allows. -/
theorem granted_decisions (k : κ) (requests : List α) :
    granted cls k (decisions cls limit requests) = min limit (asked cls k requests) := by
  induction requests using List.reverseRecOn with
  | nil => simp [granted]
  | append_singleton requests a ih =>
    have hconcat : granted cls k (decisions cls limit (requests ++ [a])) =
        granted cls k (decisions cls limit requests) +
          if asked cls (cls a) requests < limit ∧ cls a = k then 1 else 0 := by
      simp [granted, decisions_concat, List.countP_append, List.countP_singleton]
    rw [hconcat, ih, asked_concat]
    by_cases hk : cls a = k
    · subst hk
      simp only [and_true, if_true]
      split <;> omega
    · simp [hk]

/-- Granted requests of two classes. -/
theorem countP_le_two_classes {p : α × Bool → Prop} [DecidablePred p] (k₁ k₂ : κ)
    (requests : List α)
    (hp : ∀ e ∈ decisions cls limit requests, p e → e.2 ∧ (cls e.1 = k₁ ∨ cls e.1 = k₂)) :
    (decisions cls limit requests).countP p ≤ 2 * limit := by
  have hclass (k : κ) : granted cls k (decisions cls limit requests) ≤ limit := by
    rw [granted_decisions]
    exact Nat.min_le_left _ _
  have hsplit : (decisions cls limit requests).countP p ≤
      granted cls k₁ (decisions cls limit requests) +
        granted cls k₂ (decisions cls limit requests) := by
    generalize decisions cls limit requests = log at hp
    unfold granted
    induction log with
    | nil => simp
    | cons e log ih =>
      rw [List.forall_mem_cons] at hp
      have := ih hp.2
      simp only [List.countP_cons]
      by_cases he : p e
      · rcases hp.1 he with ⟨hgranted, rfl | rfl⟩
        · simp only [he, hgranted, decide_true, and_self, if_true]
          omega
        · simp only [he, hgranted, decide_true, and_self, if_true]
          omega
      · simp only [he, decide_false, Bool.false_eq_true, if_false]
        omega
  have := hclass k₁
  have := hclass k₂
  omega

/-- Requests of other classes do not matter. -/
theorem filter_decisions {p : α → Bool} (hp : ∀ a b, cls a = cls b → p a = p b)
    (requests : List α) :
    (decisions cls limit requests).filter (fun e => p e.1) =
      decisions cls limit (requests.filter p) := by
  induction requests using List.reverseRecOn with
  | nil => rfl
  | append_singleton requests a ih =>
    rw [decisions_concat, List.filter_append, ih, List.filter_append]
    by_cases ha : p a
    · have hasked : asked cls (cls a) (requests.filter p) = asked cls (cls a) requests := by
        unfold asked
        rw [List.countP_filter]
        refine List.countP_congr fun b _ => ?_
        by_cases hb : cls b = cls a
        · simp [hb, hp b a hb, ha]
        · simp [hb]
      simp [ha, decisions_concat, hasked]
    · simp [ha]

end Quota
