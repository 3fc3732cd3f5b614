/-
Texts built from segments, each behind a separator.

`join` writes the segments, `splitOn` reads them, and trailing separators are the empty
segments at the end.
-/
import Mathlib.Data.List.DropRight
import Mathlib.Data.List.Induction

namespace Segments

variable {α : Type}

def join (x : α) (segs : List (List α)) : List α := segs.flatMap fun s => x :: s

/-- Without the empty segments at the end. -/
def strip (segs : List (List α)) : List (List α) := segs.rdropWhile List.isEmpty

variable {x : α}

@[simp] theorem join_nil : join x [] = [] := rfl

theorem join_concat (segs : List (List α)) (s : List α) :
    join x (segs ++ [s]) = join x segs ++ x :: s := by
  simp [join]

theorem join_cons (s : List α) (segs : List (List α)) :
    join x (s :: segs) = x :: s ++ join x segs := rfl

theorem strip_concat (segs : List (List α)) (s : List α) :
    strip (segs ++ [s]) = if s = [] then strip segs else segs ++ [s] := by
  rw [strip, List.rdropWhile_concat]
  simp only [List.isEmpty_iff]
  rfl

theorem mem_of_mem_strip {s : List α} {segs : List (List α)} (h : s ∈ strip segs) : s ∈ segs :=
  (List.rdropWhile_prefix _ segs).subset h

theorem strip_cons {s : List α} (hs : s ≠ []) (segs : List (List α)) :
    strip (s :: segs) = s :: strip segs := by
  induction segs using List.reverseRecOn with
  | nil => simp [hs, strip, List.rdropWhile_singleton]
  | append_singleton segs t ih =>
    rw [← List.cons_append, strip_concat, strip_concat, ih]
    split
    · rfl
    · rw [List.cons_append]

theorem strip_append_nils {rest : List (List α)} (h : ∀ s ∈ rest, s = []) (segs : List (List α)) :
    strip (segs ++ rest) = strip segs := by
  induction rest using List.reverseRecOn with
  | nil => rw [List.append_nil]
  | append_singleton rest s ih =>
    rw [← List.append_assoc, strip_concat, if_pos (h s (by simp))]
    exact ih fun t ht => h t (by simp [ht])

theorem exists_eq_strip_append (segs : List (List α)) :
    ∃ rest, segs = strip segs ++ rest ∧ ∀ s ∈ rest, s = [] := by
  refine ⟨segs.rtakeWhile List.isEmpty, List.rdropWhile_append_rtakeWhile.symm, fun s hs => ?_⟩
  exact List.isEmpty_iff.mp (List.mem_rtakeWhile_imp hs)

theorem ne_nil_of_getLast?_strip {s : List α} {segs : List (List α)}
    (h : (strip segs).getLast? = some s) : s ≠ [] := by
  have hne : strip segs ≠ [] := by
    intro hnil
    rw [hnil] at h
    cases h
  rw [List.getLast?_eq_some_getLast hne, Option.some.injEq] at h
  have hnot := List.rdropWhile_last_not List.isEmpty segs hne
  rw [List.isEmpty_iff] at hnot
  rwa [← h]

theorem intercalate_eq_join (s : List α) (segs : List (List α)) :
    [x].intercalate (s :: segs) = s ++ join x segs := by
  induction segs generalizing s with
  | nil => simp [List.intercalate]
  | cons t rest ih =>
    rw [List.intercalate_cons_cons, ih, join_cons]
    simp

theorem cons_intercalate {segs : List (List α)} (h : segs ≠ []) :
    x :: [x].intercalate segs = join x segs := by
  cases segs with
  | nil => exact absurd rfl h
  | cons s rest => rw [intercalate_eq_join, join_cons, List.cons_append]

section

variable [DecidableEq α]

theorem join_splitOn (l : List α) : join x (l.splitOn x) = x :: l := by
  rw [← cons_intercalate (List.splitOn_ne_nil x l), List.intercalate_splitOn]

/-- Reading what was written. -/
theorem splitOn_join {segs : List (List α)} (h : ∀ s ∈ segs, x ∉ s) :
    (join x segs).splitOn x = [] :: segs := by
  have hjoin := intercalate_eq_join (x := x) [] segs
  rw [List.nil_append] at hjoin
  rw [← hjoin]
  exact List.splitOn_intercalate x (by simpa using h) (List.cons_ne_nil [] segs)

theorem join_inj {segs segs' : List (List α)} (h : ∀ s ∈ segs, x ∉ s) (h' : ∀ s ∈ segs', x ∉ s) :
    join x segs = join x segs' ↔ segs = segs' := by
  constructor
  · intro heq
    have hsplit := splitOn_join h
    rw [heq, splitOn_join h'] at hsplit
    exact (List.cons.inj hsplit).2.symm
  · rintro rfl
    rfl

/-- Trailing separators are empty segments. -/
theorem rdropWhile_join {segs : List (List α)} (h : ∀ s ∈ segs, x ∉ s) :
    (join x segs).rdropWhile (· = x) = join x (strip segs) := by
  induction segs using List.reverseRecOn with
  | nil => rfl
  | append_singleton segs s ih =>
    have hsegs : ∀ t ∈ segs, x ∉ t := fun t ht => h t (List.mem_append_left _ ht)
    have hs : x ∉ s := h s (List.mem_append_right _ (List.mem_singleton_self s))
    rw [strip_concat, join_concat]
    rcases List.eq_nil_or_concat s with rfl | ⟨init, c, rfl⟩
    · rw [if_pos rfl, ← ih hsegs]
      exact List.rdropWhile_concat_pos _ _ x (by simp)
    · rw [List.concat_eq_append] at hs ⊢
      have hc : c ≠ x := fun heq => hs (by simp [heq])
      rw [if_neg (by simp), join_concat, ← List.cons_append, ← List.append_assoc]
      exact List.rdropWhile_concat_neg _ _ c (by simpa using hc)

/-- A text ends in a separated segment when that is its last one. -/
theorem suffix_join_iff {a : List α} {segs : List (List α)} (ha : x ∉ a)
    (h : ∀ s ∈ segs, x ∉ s) : x :: a <:+ join x segs ↔ segs.getLast? = some a := by
  rcases List.eq_nil_or_concat segs with rfl | ⟨init, s, rfl⟩
  · simp
  · rw [List.concat_eq_append] at h ⊢
    have hs : x ∉ s := h s (List.mem_append_right _ (List.mem_singleton_self s))
    rw [join_concat, List.getLast?_concat, Option.some.injEq]
    constructor
    · rintro ⟨front, heq⟩
      have hreverse := congrArg (List.takeWhile (· ≠ x) ∘ List.reverse) heq
      have htake : ∀ (l b : List α), x ∉ b →
          (b.reverse ++ x :: l).takeWhile (· ≠ x) = b.reverse := by
        intro l b hb
        rw [List.takeWhile_append_of_pos, List.takeWhile_cons_of_neg (by simp), List.append_nil]
        intro c hc
        have hne : c ≠ x := fun heq => hb (by rw [← heq]; exact List.mem_reverse.mp hc)
        simpa using hne
      simp only [Function.comp_apply, List.reverse_append, List.reverse_cons, List.append_assoc,
        List.singleton_append] at hreverse
      rw [htake _ _ ha, htake _ _ hs] at hreverse
      exact (List.reverse_injective hreverse).symm
    · rintro rfl
      exact List.suffix_append _ _

end

/-! ## Texts with something behind them -/

theorem rdropWhile_append_of_neg {p : α → Bool} {l : List α}
    (h : l.rdropWhile p ≠ []) (front : List α) :
    (front ++ l).rdropWhile p = front ++ l.rdropWhile p := by
  induction l using List.reverseRecOn with
  | nil => exact absurd rfl h
  | append_singleton l a ih =>
    rw [← List.append_assoc, List.rdropWhile_concat, List.rdropWhile_concat]
    rw [List.rdropWhile_concat] at h
    split
    · rename_i ha
      rw [if_pos ha] at h
      exact ih h
    · rw [List.append_assoc]

/-- A word without the separator reaches back no further than the separator. -/
theorem suffix_append_iff {word : List α} {c : α} (hc : c ∉ word) (front rest : List α) :
    word <:+ front ++ c :: rest ↔ word <:+ c :: rest := by
  constructor
  · intro h
    rcases List.suffix_or_suffix_of_suffix h (List.suffix_append front (c :: rest)) with hin | hout
    · exact hin
    · exact absurd (hout.subset List.mem_cons_self) hc
  · exact fun h => h.trans (List.suffix_append front (c :: rest))

end Segments
