/-
Sorting by a key, the largest first, with equal keys left in their order.

An element is followed through the sort by its place in the input: what stands ahead of
it are the elements of larger keys and those of its own key that came before.  So an
element whose key is raised never falls behind another.
-/
import Mathlib.Data.List.Sort

namespace StableSort

variable {α κ : Type} [LinearOrder κ] (key : α → κ)

def best (xs : List α) : List α := xs.insertionSort fun a b => key b ≤ key a

/-- The first of two elements with their places comes out ahead of the second. -/
def Ahead (a b : α × Nat) : Prop := key b.1 < key a.1 ∨ key a.1 = key b.1 ∧ a.2 < b.2

instance (a b : α × Nat) : Decidable (Ahead key a b) := inferInstanceAs (Decidable (_ ∨ _))

/-- The elements with the places they had in the input. -/
def placed (xs : List α) : List (α × Nat) := best (fun a => key a.1) xs.zipIdx

/-- Where the element that was at `i` is now. -/
def rank (xs : List α) (i : Nat) : Nat := ((placed key xs).map Prod.snd).idxOf i

/-! ## The sort -/

theorem best_perm (xs : List α) : (best key xs).Perm xs := List.perm_insertionSort _ xs

theorem best_sorted (xs : List α) : (best key xs).Pairwise fun a b => key b ≤ key a := by
  have : Std.Total fun a b : α => key b ≤ key a := ⟨fun a b => le_total (key b) (key a)⟩
  have : IsTrans α fun a b => key b ≤ key a := ⟨fun _ _ _ hab hbc => hbc.trans hab⟩
  exact List.pairwise_insertionSort _ xs

/-- The elements of one key come out as they went in. -/
theorem filter_best (k : κ) (xs : List α) :
    ((best key xs).filter fun a => key a = k) = xs.filter fun a => key a = k := by
  have hsame : (xs.filter fun a => key a = k).Pairwise fun a b => key b ≤ key a := by
    refine List.pairwise_of_forall_mem_list fun a ha b hb => ?_
    rw [of_decide_eq_true (List.mem_filter.mp ha).2, of_decide_eq_true (List.mem_filter.mp hb).2]
  have hsub := (List.sublist_insertionSort hsame List.filter_sublist).filter fun a => key a = k
  rw [List.filter_filter] at hsub
  simp only [Bool.and_self] at hsub
  exact (hsub.eq_of_length ((best_perm key xs).filter _).length_eq.symm).symm

/-- What is left out of the first `k` is the rest, and none of it has a larger key. -/
theorem take_best (k : Nat) (xs : List α) :
    ∃ omitted, ((best key xs).take k ++ omitted).Perm xs ∧
      ∀ b ∈ omitted, ∀ a ∈ (best key xs).take k, key b ≤ key a := by
  refine ⟨(best key xs).drop k, ?_, fun b hb a ha => ?_⟩
  · rw [List.take_append_drop]
    exact best_perm key xs
  · have hsorted := best_sorted key xs
    rw [← List.take_append_drop k (best key xs)] at hsorted
    exact (List.pairwise_append.mp hsorted).2.2 a ha b hb

/-! ## Ranks -/

theorem map_placed (xs : List α) : (placed key xs).map Prod.fst = best key xs := by
  rw [placed, best, List.map_insertionSort _ (fun a b => key b ≤ key a) Prod.fst _
    fun _ _ _ _ => Iff.rfl, List.zipIdx_map_fst]
  rfl

theorem placed_perm (xs : List α) : (placed key xs).Perm xs.zipIdx := best_perm _ _

theorem placed_nodup (xs : List α) : ((placed key xs).map Prod.snd).Nodup := by
  refine ((placed_perm key xs).map Prod.snd).nodup_iff.mpr ?_
  rw [List.zipIdx_map_snd]
  exact List.nodup_range'

theorem placed_pairwise (xs : List α) : (placed key xs).Pairwise (Ahead key) := by
  refine List.pairwise_iff_forall_sublist.mpr fun {a b} hsub => ?_
  have hle : key b.1 ≤ key a.1 := by
    simpa using (best_sorted (fun c : α × Nat => key c.1) xs.zipIdx).sublist hsub
  rcases hle.lt_or_eq with hlt | heq
  · exact .inl hlt
  · -- Elements of one key are in the order of the input.
    refine .inr ⟨heq.symm, ?_⟩
    have hfilter := hsub.filter fun c => key c.1 = key a.1
    rw [placed, filter_best] at hfilter
    simp only [heq, decide_true, List.filter_cons_of_pos, List.filter_nil] at hfilter
    have hplaces := (hfilter.trans List.filter_sublist).map Prod.snd
    rw [List.zipIdx_map_snd] at hplaces
    simpa using (List.pairwise_lt_range' 1).sublist hplaces

theorem Ahead.irrefl {a : α × Nat} : ¬ Ahead key a a := by simp [Ahead]

theorem Ahead.asymm {a b : α × Nat} (h : Ahead key a b) : ¬ Ahead key b a := by
  rintro (hba | ⟨heq, hba⟩)
  · rcases h with hab | ⟨heq, -⟩
    · exact hab.asymm hba
    · exact hba.ne heq
  · rcases h with hab | ⟨-, hab⟩
    · exact hab.ne heq
    · exact hab.asymm hba

/-- The rank of an element is the number of those ahead of it. -/
theorem rank_eq_countP {xs : List α} {c : α} {i : Nat} (hi : (c, i) ∈ xs.zipIdx) :
    rank key xs i = xs.zipIdx.countP fun a => Ahead key a (c, i) := by
  obtain ⟨before, after, hsplit⟩ := List.append_of_mem ((placed_perm key xs).mem_iff.mpr hi)
  have hsorted := placed_pairwise key xs
  have hnodup := placed_nodup key xs
  rw [hsplit] at hsorted
  rw [hsplit, List.map_append, List.map_cons] at hnodup
  have hrank : rank key xs i = before.length := by
    have hbefore : i ∉ before.map Prod.snd := fun hmem =>
      (List.nodup_append.mp hnodup).2.2 i hmem i List.mem_cons_self rfl
    rw [rank, hsplit, List.map_append, List.map_cons, List.idxOf_append_of_notMem hbefore,
      List.idxOf_cons_self, Nat.add_zero, List.length_map]
  obtain ⟨-, hafter, hcross⟩ := List.pairwise_append.mp hsorted
  have hall : before.countP (fun a => Ahead key a (c, i)) = before.length :=
    List.countP_eq_length.mpr fun a ha => decide_eq_true (hcross a ha _ List.mem_cons_self)
  have hnone : after.countP (fun a => Ahead key a (c, i)) = 0 :=
    List.countP_eq_zero.mpr fun a ha hahead =>
      Ahead.asymm key ((List.pairwise_cons.mp hafter).1 a ha) (of_decide_eq_true hahead)
  rw [hrank, ← (placed_perm key xs).countP_eq, hsplit, List.countP_append, List.countP_cons, hall,
    hnone, if_neg (by simpa using Ahead.irrefl key), Nat.zero_add, Nat.add_zero]

theorem getElem?_placed {xs : List α} {c : α} {i : Nat} (hi : (c, i) ∈ xs.zipIdx) :
    (placed key xs)[rank key xs i]? = some (c, i) := by
  have hmem : i ∈ (placed key xs).map Prod.snd := by
    rw [((placed_perm key xs).map Prod.snd).mem_iff]
    exact List.mem_map_of_mem hi
  have hlt : rank key xs i < (placed key xs).length := by
    simpa [rank] using List.idxOf_lt_length_of_mem hmem
  have hplace : ((placed key xs)[rank key xs i]).2 = i := by
    have hat := List.getElem_idxOf (List.idxOf_lt_length_of_mem hmem)
    rwa [List.getElem_map] at hat
  have helem := (placed_perm key xs).mem_iff.mp (List.getElem_mem hlt)
  rw [List.mem_zipIdx_iff_getElem?, hplace] at helem
  rw [List.mem_zipIdx_iff_getElem?, helem, Option.some_inj] at hi
  rw [List.getElem?_eq_getElem hlt, Option.some_inj]
  exact Prod.ext hi hplace

/-- The element that was at `i` is at its rank. -/
theorem getElem?_rank (xs : List α) {i : Nat} (hi : i < xs.length) :
    (best key xs)[rank key xs i]? = xs[i]? := by
  have hmem : (xs[i], i) ∈ xs.zipIdx :=
    List.mem_zipIdx_iff_getElem?.mpr (List.getElem?_eq_getElem hi)
  rw [← map_placed, List.getElem?_map, getElem?_placed key hmem, List.getElem?_eq_getElem hi]
  rfl

/-- Ranks are in the order of the keys, and of the places where keys are equal. -/
theorem rank_lt_rank_iff {xs : List α} {c d : α} {i j : Nat} (hi : (c, i) ∈ xs.zipIdx)
    (hj : (d, j) ∈ xs.zipIdx) :
    rank key xs i < rank key xs j ↔ Ahead key (c, i) (d, j) := by
  have hahead {c d : α} {i j : Nat} (hi : (c, i) ∈ xs.zipIdx) (hj : (d, j) ∈ xs.zipIdx)
      (h : rank key xs i < rank key xs j) : Ahead key (c, i) (d, j) := by
    obtain ⟨hlti, hati⟩ := List.getElem?_eq_some_iff.mp (getElem?_placed key hi)
    obtain ⟨hltj, hatj⟩ := List.getElem?_eq_some_iff.mp (getElem?_placed key hj)
    have := List.pairwise_iff_getElem.mp (placed_pairwise key xs) _ _ hlti hltj h
    rwa [hati, hatj] at this
  refine ⟨hahead hi hj, fun h => ?_⟩
  rcases lt_trichotomy (rank key xs i) (rank key xs j) with hlt | heq | hgt
  · exact hlt
  · have hsame := getElem?_placed key hi
    rw [heq, getElem?_placed key hj, Option.some_inj] at hsame
    exact absurd (hsame ▸ h) (Ahead.irrefl key)
  · exact absurd (hahead hj hi hgt) (Ahead.asymm key h)

/-- Raising the key of one element does not move it down. -/
theorem rank_le_of_le (pre post : List α) {c c' : α} (h : key c ≤ key c') :
    rank key (pre ++ c' :: post) pre.length ≤ rank key (pre ++ c :: post) pre.length := by
  have hplace (x : α) : (x, pre.length) ∈ (pre ++ x :: post).zipIdx := by
    simp [List.zipIdx_append]
  have hmono (a : α × Nat) (ha : Ahead key a (c', pre.length)) : Ahead key a (c, pre.length) := by
    rcases ha with hlt | ⟨heq, hplace⟩
    · exact .inl (h.trans_lt hlt)
    · rcases h.lt_or_eq with hlt | heq'
      · exact .inl (hlt.trans_eq heq.symm)
      · exact .inr ⟨heq.trans heq'.symm, hplace⟩
  have hothers (ys : List (α × Nat)) :
      ys.countP (fun a => Ahead key a (c', pre.length)) ≤
        ys.countP fun a => Ahead key a (c, pre.length) :=
    List.countP_mono_left fun a _ ha => decide_eq_true (hmono a (of_decide_eq_true ha))
  rw [rank_eq_countP key (hplace c), rank_eq_countP key (hplace c'), List.zipIdx_append,
    List.zipIdx_append, List.countP_append, List.countP_append, List.zipIdx_cons, List.zipIdx_cons,
    Nat.zero_add, List.countP_cons_of_neg (by simpa using Ahead.irrefl key),
    List.countP_cons_of_neg (by simpa using Ahead.irrefl key)]
  exact Nat.add_le_add (hothers _) (hothers _)

end StableSort
