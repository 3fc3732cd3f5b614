/-
Rows in the order of a key.

`ORDER BY` fixes the order of two rows by their keys and leaves rows of equal keys in any
order.  Something else about the rows comes out in order from every such answer when the
key follows it strictly.  A row may come out at the places that the rows of its key take
together, and at each of them.
-/
import Mathlib.Data.List.Perm.Subperm
import Mathlib.Data.List.Sort

namespace OrderBy

variable {α κ τ : Type} [LinearOrder κ] [LinearOrder τ]

/-- The rows in an order the database may answer with. -/
structure Answers (key : α → κ) (rows answer : List α) : Prop where
  perm : answer.Perm rows
  sorted : answer.Pairwise fun a b => key a ≤ key b

theorem Answers.of_insertionSort {key : α → κ} {rows sorted : List α} (h : rows.Perm sorted) :
    Answers key rows (sorted.insertionSort fun a b => key a ≤ key b) := by
  have : Std.Total fun a b : α => key a ≤ key b := ⟨fun a b => le_total (key a) (key b)⟩
  have : IsTrans α fun a b => key a ≤ key b := ⟨fun _ _ _ => le_trans⟩
  exact ⟨(List.perm_insertionSort _ _).trans h.symm, List.pairwise_insertionSort _ _⟩

/-- Two rows come out in an order their keys allow. -/
theorem exists_answer {key : α → κ} {rows : List α} {a b : α} (hpair : [b, a].Subperm rows)
    (h : key b ≤ key a) : ∃ answer, Answers key rows answer ∧ [b, a].Sublist answer := by
  obtain ⟨pair, hperm, hsub⟩ := hpair
  obtain ⟨rest, hrows⟩ := hsub.exists_perm_append
  have hrest : rows.Perm (b :: a :: rest) := hrows.trans (hperm.append_right rest)
  refine ⟨_, .of_insertionSort hrest, ?_⟩
  exact List.pair_sublist_insertionSort h (List.sublist_append_left [b, a] rest)

theorem ordered_iff {key : α → κ} {time : α → τ} {rows : List α} :
    (∀ answer, Answers key rows answer → answer.Pairwise fun a b => time a ≤ time b) ↔
      ∀ a ∈ rows, ∀ b ∈ rows, time a < time b → key a < key b := by
  constructor
  · intro h a ha b hb htime
    by_contra hkey
    have hne : b ≠ a := fun heq => (heq ▸ htime).false
    have hpair : [b, a].Subperm rows :=
      List.Nodup.subperm (by simpa using hne) (by simp [ha, hb])
    obtain ⟨answer, hanswer, hsub⟩ := exists_answer hpair (not_lt.mp hkey)
    have hback : time b ≤ time a := by simpa using (h answer hanswer).sublist hsub
    exact hback.not_gt htime
  · intro h answer hanswer
    refine hanswer.sorted.imp_of_mem fun {a b} ha hb hkey => ?_
    by_contra htime
    have hlt := h b (hanswer.perm.mem_iff.mp hb) a (hanswer.perm.mem_iff.mp ha) (not_le.mp htime)
    exact hkey.not_gt hlt

/-! ## Places -/

section Places

variable (key : α → κ) (rows : List α)

/-- How many rows have a key below that of `r`. -/
def before (r : α) : Nat := rows.countP fun a => key a < key r

/-- How many rows have a key up to that of `r`. -/
def through (r : α) : Nat := rows.countP fun a => key a ≤ key r

variable {key rows}

theorem through_le_length (r : α) : through key rows r ≤ rows.length := List.countP_le_length

theorem through_le_before {a b : α} (h : key a < key b) : through key rows a ≤ before key rows b :=
  List.countP_mono_left fun _ _ ha =>
    decide_eq_true ((of_decide_eq_true ha).trans_lt h)

/-- A row comes out at one of the places that the rows of its key take together. -/
theorem Answers.places {answer : List α} (h : Answers key rows answer) {i : Nat} {r : α}
    (hi : answer[i]? = some r) : before key rows r ≤ i ∧ i < through key rows r := by
  obtain ⟨hlt, rfl⟩ := List.getElem?_eq_some_iff.mp hi
  have hlength : (answer.take i).length = i := List.length_take_of_le hlt.le
  have hsplit : answer = answer.take i ++ answer[i] :: answer.drop (i + 1) := by
    rw [← List.drop_eq_getElem_cons hlt, List.take_append_drop]
  generalize answer[i] = r at hsplit ⊢
  have hsorted := h.sorted
  rw [hsplit, List.pairwise_append, List.pairwise_cons] at hsorted
  obtain ⟨-, ⟨hrest, -⟩, hfront⟩ := hsorted
  rw [before, through, ← h.perm.countP_eq, ← h.perm.countP_eq, hsplit, List.countP_append,
    List.countP_append, List.countP_cons_of_neg (by simp), List.countP_cons_of_pos (by simp)]
  constructor
  · have hnone : (answer.drop (i + 1)).countP (fun a => key a < key r) = 0 :=
      List.countP_eq_zero.mpr fun a ha => by simpa using hrest a ha
    have hle : (answer.take i).countP (fun a => key a < key r) ≤ i :=
      List.countP_le_length.trans_eq hlength
    omega
  · have hall : (answer.take i).countP (fun a => key a ≤ key r) = i := by
      rw [List.countP_eq_length.mpr, hlength]
      exact fun a ha => decide_eq_true (hfront a ha r List.mem_cons_self)
    omega

/-- A place before the end of the rows of `r`'s key has no larger key. -/
theorem Answers.key_le_of_lt_through {answer : List α} (h : Answers key rows answer) {j : Nat}
    {a r : α} (hat : answer[j]? = some a) (hj : j < through key rows r) : key a ≤ key r := by
  by_contra hlt
  have hle : through key rows r ≤ before key rows a := through_le_before (not_le.mp hlt)
  exact ((hj.trans_le hle).trans_le (h.places hat).1).false

/-- A place from their beginning on has no smaller key. -/
theorem Answers.le_key_of_before_le {answer : List α} (h : Answers key rows answer) {j : Nat}
    {a r : α} (hat : answer[j]? = some a) (hj : before key rows r ≤ j) : key r ≤ key a := by
  by_contra hlt
  have hle : through key rows a ≤ before key rows r := through_le_before (not_le.mp hlt)
  exact (((h.places hat).2.trans_le hle).trans_le hj).false

theorem before_lt_through {r : α} (hr : r ∈ rows) : before key rows r < through key rows r := by
  have hanswer : Answers key rows _ := .of_insertionSort (.refl rows)
  obtain ⟨i, hi⟩ := List.getElem?_of_mem (hanswer.perm.mem_iff.mpr hr)
  obtain ⟨hbefore, hthrough⟩ := hanswer.places hi
  exact hbefore.trans_lt hthrough

/-- A row comes out at each of them, in some answer. -/
theorem exists_answer_at {r : α} (hr : r ∈ rows) {p : Nat} (hbefore : before key rows r ≤ p)
    (hthrough : p < through key rows r) :
    ∃ answer, Answers key rows answer ∧ answer[p]? = some r := by
  obtain ⟨front, back, hsplit⟩ := List.append_of_mem hr
  have hrows : rows.Perm (r :: (front ++ back)) := hsplit ▸ List.perm_middle
  have hothers : Answers key (front ++ back) _ := .of_insertionSort (.refl _)
  generalize (front ++ back).insertionSort (fun a b => key a ≤ key b) = others at hothers
  rw [before, hrows.countP_eq, List.countP_cons_of_neg (by simp)] at hbefore
  rw [through, hrows.countP_eq, List.countP_cons_of_pos (by simp)] at hthrough
  change before key (front ++ back) r ≤ p at hbefore
  change p < through key (front ++ back) r + 1 at hthrough
  have hp : p ≤ others.length := by
    rw [hothers.perm.length_eq]
    exact (Nat.lt_succ_iff.mp hthrough).trans (through_le_length r)
  -- The other rows up to place `p` have no larger keys, and those from there on no smaller.
  have hfront : ∀ a ∈ others.take p, key a ≤ key r := by
    intro a ha
    obtain ⟨j, hj, hat⟩ := List.mem_take_iff_getElem.mp ha
    exact hothers.key_le_of_lt_through (List.getElem?_eq_some_iff.mpr ⟨by omega, hat⟩) (by omega)
  have hback : ∀ a ∈ others.drop p, key r ≤ key a := by
    intro a ha
    obtain ⟨j, hj, hat⟩ := List.mem_drop_iff_getElem.mp ha
    exact hothers.le_key_of_before_le (List.getElem?_eq_some_iff.mpr ⟨by omega, hat⟩) (by omega)
  refine ⟨others.take p ++ r :: others.drop p, ⟨?_, ?_⟩, ?_⟩
  · refine List.perm_middle.trans (List.Perm.trans ?_ hrows.symm)
    rw [List.take_append_drop]
    exact hothers.perm.cons r
  · have hsorted := hothers.sorted
    rw [← List.take_append_drop p others, List.pairwise_append] at hsorted
    obtain ⟨htake, hdrop, hcross⟩ := hsorted
    refine List.pairwise_append.mpr ⟨htake, List.pairwise_cons.mpr ⟨hback, hdrop⟩, ?_⟩
    intro a ha b hb
    rcases List.mem_cons.mp hb with rfl | hb
    · exact hfront a ha
    · exact hcross a ha b hb
  · rw [List.getElem?_append_right (List.length_take_le _ _), List.length_take_of_le hp,
      Nat.sub_self]
    rfl

end Places

end OrderBy
