/-
Removal of dot segments (RFC 3986, section 5.2.4) on the segments of an absolute path.

A stack holds the segments kept so far: `.` leaves it, `..` drops its top and does
nothing on an empty stack, and any other segment is pushed.  A path that ends in a
dot segment ends in a slash afterwards.
-/
import Mathlib.Data.List.Induction

namespace DotSegments

variable {α : Type}

theorem getLast?_tail (stack : List α) :
    stack.tail.getLast? = if 1 < stack.length then stack.getLast? else none := by
  cases stack with
  | nil => rfl
  | cons a rest =>
    cases rest with
    | nil => rfl
    | cons b rest => simp

theorem concat_starts (v e : α) (l : List α) :
    (∃ x rest, l ++ [e] = v :: x :: rest) ↔ l.head? = some v := by
  cases l with
  | nil => simp
  | cons a l =>
    constructor
    · rintro ⟨x, rest, h⟩
      rw [List.cons_append, List.cons.injEq] at h
      rw [h.1, List.head?_cons]
    · intro h
      cases h
      cases l with
      | nil => exact ⟨e, [], rfl⟩
      | cons b l => exact ⟨b, l ++ [e], rfl⟩

/-- The three segments that are special. -/
structure Dots (α : Type) where
  dot : α
  dotDot : α
  empty : α

variable [DecidableEq α] (d : Dots α)

def Ordinary (s : α) : Prop := s ≠ d.dot ∧ s ≠ d.dotDot

instance (s : α) : Decidable (Ordinary d s) := inferInstanceAs (Decidable (_ ∧ _))

/-- One segment, on a stack with its top first. -/
def push (stack : List α) (s : α) : List α :=
  if s = d.dot then stack else if s = d.dotDot then stack.tail else s :: stack

def remove (segs : List α) : List α :=
  let kept := (segs.foldl (push d) []).reverse
  match segs.getLast? with
  | some s => if Ordinary d s then kept else kept ++ [d.empty]
  | none => kept

/-! ## How deep the stack is -/

def depthStep (n : Nat) (s : α) : Nat :=
  if s = d.dot then n else if s = d.dotDot then n - 1 else n + 1

/-- The depth after the segments, from depth `n`. -/
def depth (n : Nat) (segs : List α) : Nat := segs.foldl (depthStep d) n

theorem length_push (stack : List α) (s : α) :
    (push d stack s).length = depthStep d stack.length s := by
  unfold push depthStep
  split
  · rfl
  · split
    · exact List.length_tail
    · rfl

theorem length_foldl_push (segs : List α) (stack : List α) :
    (segs.foldl (push d) stack).length = depth d stack.length segs := by
  induction segs generalizing stack with
  | nil => rfl
  | cons s rest ih =>
    rw [List.foldl_cons, ih, length_push]
    rfl

theorem depth_concat (n : Nat) (segs : List α) (s : α) :
    depth d n (segs ++ [s]) = depthStep d (depth d n segs) s := by
  rw [depth, List.foldl_append]
  rfl

/-! ## The bottom of the stack -/

/-- `v` is reached with nothing below it and `back`, which follows, never uncovers it. -/
structure Cut (v : α) (segs front back : List α) : Prop where
  eq : segs = front ++ v :: back
  ordinary : Ordinary d v
  front : depth d 0 front = 0
  back : ∀ mid, mid <+: back → 0 < depth d 1 mid

def Bottom (v : α) (segs : List α) : Prop := ∃ front back, Cut d v segs front back

/-- `v` stays at the bottom and is not the last segment. -/
def Inside (v : α) (segs : List α) : Prop := ∃ front back, Cut d v segs front back ∧ back ≠ []

theorem Inside.bottom {v : α} {segs : List α} (h : Inside d v segs) : Bottom d v segs := by
  obtain ⟨front, back, hcut, -⟩ := h
  exact ⟨front, back, hcut⟩

theorem push_ordinary {s : α} (h : Ordinary d s) (stack : List α) :
    push d stack s = s :: stack := by
  rw [push, if_neg h.1, if_neg h.2]

/-- Above the bottom segment the stack is as deep as the depth says. -/
theorem Cut.length {v : α} {segs front back : List α} (h : Cut d v segs front back) :
    (segs.foldl (push d) []).length = depth d 1 back := by
  have hempty : front.foldl (push d) [] = [] := by
    rw [← List.length_eq_zero_iff, length_foldl_push]
    exact h.front
  rw [h.eq, List.foldl_append, hempty, List.foldl_cons, push_ordinary d h.ordinary,
    length_foldl_push]
  rfl

/-- A further segment leaves the bottom where it is unless it is a `..` right above it. -/
theorem inside_concat (v s : α) (segs : List α) :
    Inside d v (segs ++ [s]) ↔
      Bottom d v segs ∧ 0 < depthStep d (segs.foldl (push d) []).length s := by
  constructor
  · rintro ⟨front, back, hcut, hne⟩
    obtain ⟨back', s', rfl⟩ := (List.eq_nil_or_concat back).resolve_left hne
    rw [List.concat_eq_append] at hcut
    have heq : segs ++ [s] = (front ++ v :: back') ++ [s'] := by simpa using hcut.eq
    obtain ⟨rfl, hs⟩ := List.append_inj' heq rfl
    cases hs
    have hcut' : Cut d v (front ++ v :: back') front back' :=
      ⟨rfl, hcut.ordinary, hcut.front, fun mid hmid =>
        hcut.back mid (hmid.trans (List.prefix_append back' [s]))⟩
    refine ⟨⟨front, back', hcut'⟩, ?_⟩
    rw [hcut'.length, ← depth_concat]
    exact hcut.back _ (List.prefix_refl _)
  · rintro ⟨⟨front, back, hcut⟩, hpos⟩
    refine ⟨front, back ++ [s], ⟨by simp [hcut.eq], hcut.ordinary, hcut.front, ?_⟩, by simp⟩
    intro mid hmid
    rcases List.prefix_concat_iff.mp hmid with rfl | hmid
    · rwa [depth_concat, ← hcut.length]
    · exact hcut.back mid hmid

theorem bottom_concat (v s : α) (segs : List α) :
    Bottom d v (segs ++ [s]) ↔
      (s = v ∧ Ordinary d v ∧ segs.foldl (push d) [] = []) ∨ Inside d v (segs ++ [s]) := by
  have hdepth : (segs.foldl (push d) []).length = depth d 0 segs := length_foldl_push d segs []
  constructor
  · rintro ⟨front, back, hcut⟩
    by_cases hne : back = []
    · subst hne
      obtain ⟨rfl, hs⟩ := List.append_inj' hcut.eq rfl
      cases hs
      refine .inl ⟨rfl, hcut.ordinary, ?_⟩
      rw [← List.length_eq_zero_iff, hdepth]
      exact hcut.front
    · exact .inr ⟨front, back, hcut, hne⟩
  · rintro (⟨rfl, hs, hempty⟩ | hinside)
    · refine ⟨segs, [], rfl, hs, ?_, fun mid hmid => ?_⟩
      · rw [← hdepth, hempty]
        rfl
      · obtain rfl := List.prefix_nil.mp hmid
        exact Nat.one_pos
    · exact hinside.bottom

theorem getLast?_push (stack : List α) (s : α) :
    (push d stack s).getLast? = if stack = [] ∧ Ordinary d s then some s
      else if 0 < depthStep d stack.length s then stack.getLast? else none := by
  unfold push depthStep
  by_cases hdot : s = d.dot
  · cases stack <;> simp [hdot, Ordinary]
  · by_cases hdotDot : s = d.dotDot
    · have hnot : ¬ (stack = [] ∧ Ordinary d s) := fun h => h.2.2 hdotDot
      rw [if_neg hnot, if_neg hdot, if_pos hdotDot, if_neg hdot, if_pos hdotDot, getLast?_tail]
      simp only [Nat.sub_pos_iff_lt]
    · rw [if_neg hdot, if_neg hdotDot, if_neg hdot, if_neg hdotDot, if_pos (Nat.succ_pos _)]
      cases stack with
      | nil => simp [Ordinary, hdot, hdotDot]
      | cons a rest => simp

/-- Which segment is at the bottom of the stack in the end. -/
theorem getLast?_foldl_push (v : α) (segs : List α) :
    (segs.foldl (push d) []).getLast? = some v ↔ Bottom d v segs := by
  induction segs using List.reverseRecOn with
  | nil =>
    constructor
    · intro h
      cases h
    · rintro ⟨front, back, hcut⟩
      simpa using hcut.eq
  | append_singleton segs s ih =>
    rw [List.foldl_append, List.foldl_cons, List.foldl_nil, getLast?_push, bottom_concat,
      inside_concat, ← ih]
    split
    · rename_i hfirst
      rw [hfirst.1]
      simp only [Option.some.injEq, List.getLast?_nil, reduceCtorEq, false_and, or_false]
      constructor
      · rintro rfl
        exact ⟨rfl, hfirst.2, trivial⟩
      · exact fun h => h.1
    · rename_i hfirst
      have hnot : ¬ (s = v ∧ Ordinary d v ∧ segs.foldl (push d) [] = []) := by
        rintro ⟨rfl, hs, hempty⟩
        exact hfirst ⟨hempty, hs⟩
      rw [or_iff_right hnot]
      split
      · rename_i hpos
        exact (and_iff_left hpos).symm
      · rename_i hpos
        exact ⟨fun h => (Option.some_ne_none v h.symm).elim, fun h => absurd h.2 hpos⟩

/-! ## The result -/

theorem mem_foldl_push {s : α} {segs stack : List α} (h : s ∈ segs.foldl (push d) stack) :
    s ∈ segs ∨ s ∈ stack := by
  induction segs generalizing stack with
  | nil => exact .inr h
  | cons a rest ih =>
    rcases ih h with hrest | hpush
    · exact .inl (List.mem_cons_of_mem a hrest)
    · unfold push at hpush
      split at hpush
      · exact .inr hpush
      · split at hpush
        · exact .inr (List.mem_of_mem_tail hpush)
        · rcases List.mem_cons.mp hpush with rfl | hstack
          · exact .inl List.mem_cons_self
          · exact .inr hstack

theorem mem_remove {s : α} {segs : List α} (h : s ∈ remove d segs) : s ∈ segs ∨ s = d.empty := by
  have hkept : s ∈ (segs.foldl (push d) []).reverse → s ∈ segs := by
    intro hs
    exact (mem_foldl_push d (List.mem_reverse.mp hs)).resolve_right List.not_mem_nil
  unfold remove at h
  dsimp only at h
  split at h
  · split at h
    · exact .inl (hkept h)
    · rcases List.mem_append.mp h with h | h
      · exact .inl (hkept h)
      · exact .inr (List.mem_singleton.mp h)
  · exact .inl (hkept h)

/-- The result starts with `v` and goes on after it exactly when `v` stays at the
bottom of the stack and is not the last segment. -/
theorem remove_starts (v : α) (segs : List α) :
    (∃ x rest, remove d segs = v :: x :: rest) ↔ Inside d v segs := by
  rcases List.eq_nil_or_concat segs with rfl | ⟨init, s, rfl⟩
  · constructor
    · rintro ⟨x, rest, h⟩
      cases h
    · rintro ⟨front, back, hcut, -⟩
      simpa using hcut.eq
  · rw [List.concat_eq_append, remove, List.getLast?_concat]
    by_cases hs : Ordinary d s
    · have hkept : ((init ++ [s]).foldl (push d) []).reverse =
          (init.foldl (push d) []).reverse ++ [s] := by
        rw [List.foldl_append, List.foldl_cons, List.foldl_nil, push_ordinary d hs,
          List.reverse_cons]
      have hpos : 0 < depthStep d (init.foldl (push d) []).length s := by
        rw [depthStep, if_neg hs.1, if_neg hs.2]
        exact Nat.succ_pos _
      simp only [if_pos hs, hkept]
      rw [concat_starts, List.head?_reverse, getLast?_foldl_push, inside_concat,
        and_iff_left hpos]
    · have hnot : ¬ (s = v ∧ Ordinary d v ∧ init.foldl (push d) [] = []) := by
        rintro ⟨rfl, hv, -⟩
        exact hs hv
      simp only [if_neg hs]
      rw [concat_starts, List.head?_reverse, getLast?_foldl_push, bottom_concat, or_iff_right hnot]

/-! ## Ordinary segments at the end -/

theorem foldl_push_ordinary {segs : List α} (h : ∀ s ∈ segs, Ordinary d s) (stack : List α) :
    segs.foldl (push d) stack = segs.reverse ++ stack := by
  induction segs generalizing stack with
  | nil => rfl
  | cons s rest ih =>
    rw [List.forall_mem_cons] at h
    rw [List.foldl_cons, push_ordinary d h.1, ih h.2]
    simp

/-- What follows the last dot segment is kept as it is. -/
theorem remove_append_ordinary {segs rest : List α} (hrest : rest ≠ [])
    (h : ∀ s ∈ rest, Ordinary d s) :
    remove d (segs ++ rest) = (segs.foldl (push d) []).reverse ++ rest := by
  have hkept : ((segs ++ rest).foldl (push d) []).reverse =
      (segs.foldl (push d) []).reverse ++ rest := by
    rw [List.foldl_append, foldl_push_ordinary d h]
    simp
  obtain ⟨init, s, rfl⟩ := (List.eq_nil_or_concat rest).resolve_left hrest
  rw [List.concat_eq_append] at h hkept ⊢
  rw [remove, ← List.append_assoc, List.getLast?_concat, List.append_assoc]
  simp only [hkept, if_pos (h s (by simp))]

theorem remove_ne_nil {segs : List α} (h : segs ≠ []) : remove d segs ≠ [] := by
  obtain ⟨init, s, rfl⟩ := (List.eq_nil_or_concat segs).resolve_left h
  rw [List.concat_eq_append]
  by_cases hs : Ordinary d s
  · rw [remove_append_ordinary d (List.cons_ne_nil s []) (by simpa using hs)]
    simp
  · rw [remove, List.getLast?_concat]
    simp [hs]

theorem remove_ordinary {segs : List α} (h : ∀ s ∈ segs, Ordinary d s) :
    remove d segs = segs := by
  by_cases hne : segs = []
  · subst hne
    rfl
  · have hrest : remove d ([] ++ segs) = _ := remove_append_ordinary d hne h
    simpa using hrest

end DotSegments
