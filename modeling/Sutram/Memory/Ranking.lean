/-
What `rerank` returns when its scores are exact reals.

A candidate's position is where the sort puts it; it is returned when its position is
below `top_k`.  The positions are in the order of the scores, and of the input where
scores are equal, so that a higher similarity or access count never moves a candidate
down.
-/
import Mathlib.Algebra.Order.Round
import Mathlib.Analysis.SpecialFunctions.Log.Basic
import Sutram.Library.StableSort
import Sutram.Memory.Searcher

namespace Sutram.Memory

/-- `round(x)`: a half is rounded to the even neighbour. -/
noncomputable def pyRound (x : ℝ) : ℤ :=
  if x - ⌊x⌋ = 1 / 2 ∧ Even ⌊x⌋ then ⌊x⌋ else round x

noncomputable def realArith : Arith ℝ where
  lit q := q
  add x y := x + y
  sub x y := x - y
  mul x y := x * y
  div x y := x / y
  neg x := -x
  exp := Real.exp
  log := Real.log
  lt x y := decide (x < y)
  round4 x := pyRound (x * 10000) / 10000

/-! ## Half-lives of zero -/

section HalfLives

variable {R : Type} (ar : Arith R) (halfLifeDays : R)

/-- The age of the candidate can be divided by its half-life. -/
def dividesAge (c : CandidateRow R) : Bool :=
  match typeHalfLife ar c.memoryType halfLifeDays with
  | some days => ar.lt days (ar.lit 0) || ar.lt (ar.lit 0) days
  | none => true

/-- `rerank`, which raises on a half-life of zero. -/
def rerankOutcome (now : Nat) (candidates : List (CandidateRow R)) (topK : Int) :
    Option (List (ScoredCandidate R)) :=
  if candidates.all (dividesAge ar halfLifeDays) then
    some (rerank ar now candidates topK halfLifeDays)
  else none

end HalfLives

variable (now : Nat) (halfLifeDays : ℝ)

/-- `_TYPE_HALF_LIFE` has the memory type. -/
def KnownType (memoryType : String) : Prop :=
  memoryType = "episodic" ∨ memoryType = "semantic" ∨ memoryType = "procedural"

theorem typeHalfLife_unknown {memoryType : String} (h : ¬ KnownType memoryType) :
    typeHalfLife realArith memoryType halfLifeDays = some halfLifeDays := by
  unfold typeHalfLife
  split
  · exact absurd (.inl rfl) h
  · exact absurd (.inr (.inl rfl)) h
  · exact absurd (.inr (.inr rfl)) h
  · rfl

theorem typeHalfLife_infinite {memoryType : String}
    (h : memoryType = "semantic" ∨ memoryType = "procedural") :
    typeHalfLife realArith memoryType halfLifeDays = none := by
  rcases h with rfl | rfl <;> rfl

theorem dividesAge_iff (c : CandidateRow ℝ) :
    dividesAge realArith halfLifeDays c = true ↔ KnownType c.memoryType ∨ halfLifeDays ≠ 0 := by
  by_cases hknown : KnownType c.memoryType
  · simp only [hknown, true_or, iff_true]
    rcases hknown with h | h
    · simp [dividesAge, h, typeHalfLife, realArith]
    · rw [dividesAge, typeHalfLife_infinite halfLifeDays h]
  · rw [dividesAge, typeHalfLife_unknown halfLifeDays hknown]
    simp [hknown, realArith, lt_or_lt_iff_ne]

/-! ## Scores -/

theorem frequency_real (accessCount : Nat) :
    frequency realArith accessCount = min (Real.log (accessCount + 1)) 2 := by
  simp only [frequency, realArith, decide_eq_true_eq, Nat.cast_add, Nat.cast_one, Rat.cast_add,
    Rat.cast_natCast, Rat.cast_one, Rat.cast_ofNat]
  split
  · rename_i h
    exact (min_eq_right h.le).symm
  · rename_i h
    exact (min_eq_left (not_lt.mp h)).symm

theorem score_real (c : CandidateRow ℝ) :
    score realArith now halfLifeDays c =
      0.6 * c.similarity +
        0.3 * recencyScore realArith now c.accessedAt
          (typeHalfLife realArith c.memoryType halfLifeDays) +
        0.1 * min (Real.log (c.accessCount + 1)) 2 := by
  rw [score, frequency_real]
  simp only [realArith]
  push_cast
  ring

theorem score_le_score {c : CandidateRow ℝ} {similarity : ℝ} {accessCount : Nat}
    (hsimilarity : c.similarity ≤ similarity) (haccess : c.accessCount ≤ accessCount) :
    score realArith now halfLifeDays c ≤
      score realArith now halfLifeDays { c with similarity, accessCount } := by
  have hlog : Real.log (c.accessCount + 1) ≤ Real.log (accessCount + 1) :=
    Real.log_le_log (by positivity) (by gcongr)
  have hfreq := min_le_min_right 2 hlog
  rw [score_real, score_real]
  dsimp only
  linarith

/-- Semantic and procedural memories do not decay. -/
theorem score_accessedAt {c : CandidateRow ℝ}
    (h : c.memoryType = "semantic" ∨ c.memoryType = "procedural") (accessedAt : Nat) :
    score realArith now halfLifeDays { c with accessedAt } =
      score realArith now halfLifeDays c := by
  rw [score_real, score_real]
  dsimp only
  rw [typeHalfLife_infinite halfLifeDays h]
  rfl

/-! ## The ranking -/

/-- `scored`, before it is sorted. -/
noncomputable def scored (candidates : List (CandidateRow ℝ)) : List (ScoredCandidate ℝ) :=
  candidates.map fun c => ⟨score realArith now halfLifeDays c, c⟩

/-- Where the sort puts the candidate at `i`. -/
noncomputable def position (candidates : List (CandidateRow ℝ)) (i : Nat) : Nat :=
  StableSort.rank ScoredCandidate.score (scored now halfLifeDays candidates) i

theorem rerank_eq (candidates : List (CandidateRow ℝ)) (topK : Nat) :
    rerank realArith now candidates topK halfLifeDays =
      (StableSort.best ScoredCandidate.score (scored now halfLifeDays candidates)).take topK := by
  have hle (a b : ScoredCandidate ℝ) :
      realArith.lt a.score b.score = false ↔ b.score ≤ a.score := by simp [realArith]
  simp only [rerank, ranking, hle]
  rfl

/-- The results are the `topK` best of the scored candidates, in order. -/
structure Selects (scored results : List (ScoredCandidate ℝ)) (topK : Nat) : Prop where
  length : results.length = min topK scored.length
  omitted : ∃ omitted, (results ++ omitted).Perm scored ∧
    ∀ b ∈ omitted, ∀ a ∈ results, b.score ≤ a.score
  sorted : results.Pairwise fun a b => b.score ≤ a.score
  stable : ∀ s, (results.filter fun a => a.score = s) <+: scored.filter fun a => a.score = s

theorem rerank_selects (candidates : List (CandidateRow ℝ)) (topK : Nat) :
    Selects (scored now halfLifeDays candidates)
      (rerank realArith now candidates topK halfLifeDays) topK := by
  rw [rerank_eq]
  generalize scored now halfLifeDays candidates = xs
  constructor
  · rw [List.length_take, (StableSort.best_perm _ xs).length_eq]
  · exact StableSort.take_best _ topK xs
  · exact (StableSort.best_sorted _ xs).sublist (List.take_sublist _ _)
  · intro s
    rw [← StableSort.filter_best ScoredCandidate.score s xs]
    exact (List.take_prefix _ _).filter _

/-- The positions of the candidates, of which `rerank` returns those below `topK`. -/
structure Places (candidates : List (CandidateRow ℝ)) (topK : Nat) : Prop where
  returned : ∀ i < candidates.length,
    (rerank realArith now candidates topK halfLifeDays)[position now halfLifeDays candidates i]? =
      if position now halfLifeDays candidates i < topK then (scored now halfLifeDays candidates)[i]?
      else none
  ordered : ∀ i j c d, candidates[i]? = some c → candidates[j]? = some d →
    (position now halfLifeDays candidates i < position now halfLifeDays candidates j ↔
      score realArith now halfLifeDays d < score realArith now halfLifeDays c ∨
        score realArith now halfLifeDays c = score realArith now halfLifeDays d ∧ i < j)
  /-- A higher similarity or access count moves no candidate down. -/
  raised : ∀ pre c post similarity accessCount, candidates = pre ++ c :: post →
    c.similarity ≤ similarity → c.accessCount ≤ accessCount →
    position now halfLifeDays (pre ++ { c with similarity, accessCount } :: post) pre.length ≤
      position now halfLifeDays candidates pre.length

theorem rerank_places (candidates : List (CandidateRow ℝ)) (topK : Nat) :
    Places now halfLifeDays candidates topK := by
  constructor
  · intro i hi
    have hlt : i < (scored now halfLifeDays candidates).length := by simpa [scored] using hi
    rw [rerank_eq, List.getElem?_take, position, StableSort.getElem?_rank _ _ hlt]
  · intro i j c d hi hj
    refine StableSort.rank_lt_rank_iff ScoredCandidate.score
      (c := ⟨score realArith now halfLifeDays c, c⟩)
      (d := ⟨score realArith now halfLifeDays d, d⟩) ?_ ?_
    · simp [List.mem_zipIdx_iff_getElem?, scored, hi]
    · simp [List.mem_zipIdx_iff_getElem?, scored, hj]
  · rintro pre c post similarity accessCount rfl hsimilarity haccess
    have hscore : ScoredCandidate.score ⟨score realArith now halfLifeDays c, c⟩ ≤
        ScoredCandidate.score
          ⟨score realArith now halfLifeDays { c with similarity, accessCount },
            { c with similarity, accessCount }⟩ :=
      score_le_score now halfLifeDays hsimilarity haccess
    have hraised := StableSort.rank_le_of_le ScoredCandidate.score
      (scored now halfLifeDays pre) (scored now halfLifeDays post) hscore
    simpa only [position, scored, List.map_append, List.map_cons, List.length_map] using hraised

/-- For every evaluation time and half-life, `rerank` raises exactly when it divides by a
half-life of zero. Otherwise it returns the `topK` best candidates in order, equal
scores as in the input, with the composite score; raising the similarity or the access
count of a candidate never moves it down, and a semantic or procedural memory's score
does not depend on when it was accessed. -/
theorem rerank_exact (now : Nat) (candidates : List (CandidateRow ℝ)) (topK : Nat)
    (halfLifeDays : ℝ) :
    (rerankOutcome realArith halfLifeDays now candidates topK =
      open Classical in
      if halfLifeDays = 0 ∧ ∃ c ∈ candidates, ¬ KnownType c.memoryType then none
      else some (rerank realArith now candidates topK halfLifeDays)) ∧
    Selects (scored now halfLifeDays candidates)
      (rerank realArith now candidates topK halfLifeDays) topK ∧
    Places now halfLifeDays candidates topK ∧
    (∀ c, score realArith now halfLifeDays c =
      0.6 * c.similarity +
        0.3 * recencyScore realArith now c.accessedAt
          (typeHalfLife realArith c.memoryType halfLifeDays) +
        0.1 * min (Real.log (c.accessCount + 1)) 2) ∧
    ∀ c : CandidateRow ℝ, c.memoryType = "semantic" ∨ c.memoryType = "procedural" →
      ∀ accessedAt, score realArith now halfLifeDays { c with accessedAt } =
        score realArith now halfLifeDays c := by
  refine ⟨?_, rerank_selects now halfLifeDays candidates topK,
    rerank_places now halfLifeDays candidates topK, score_real now halfLifeDays,
    fun c hc => score_accessedAt now halfLifeDays hc⟩
  have hdivides : candidates.all (dividesAge realArith halfLifeDays) = true ↔
      ¬ (halfLifeDays = 0 ∧ ∃ c ∈ candidates, ¬ KnownType c.memoryType) := by
    simp only [List.all_eq_true, dividesAge_iff, not_and, not_exists, not_not]
    constructor
    · intro h hzero c hc
      exact (h c hc).resolve_right (not_not.mpr hzero)
    · intro h c hc
      rw [or_iff_not_imp_right, not_not]
      exact fun hzero => h hzero c hc
  by_cases hraises : halfLifeDays = 0 ∧ ∃ c ∈ candidates, ¬ KnownType c.memoryType
  · rw [if_pos hraises, rerankOutcome, if_neg (mt hdivides.mp (not_not.mpr hraises))]
  · rw [if_neg hraises, rerankOutcome, if_pos (hdivides.mpr hraises)]

end Sutram.Memory
