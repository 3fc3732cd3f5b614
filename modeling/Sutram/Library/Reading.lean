/-
Computations that read a shared state several times.

A `Reading σ α` is a computation between two of its readings: it is done, it has
failed, or it waits for the state and goes on with what it finds.  The state may have
changed between two readings, so a computation is a value that a step function can
hold and resume.  `run` is the case in which nothing changes: every reading finds the
same state.
-/
import Mathlib.Data.Option.Basic
import Mathlib.Order.Basic

inductive Reading (σ α : Type) where
  | done (a : α)
  | failed
  | read (next : σ → Reading σ α)

namespace Reading

variable {σ α β : Type}

def bind : Reading σ α → (α → Reading σ β) → Reading σ β
  | done a, f => f a
  | failed, _ => failed
  | read next, f => read fun s => bind (next s) f

instance : Monad (Reading σ) where
  pure := done
  bind := bind

/-- One reading. -/
def get (f : σ → α) : Reading σ α := read fun s => done (f s)

/-- What may be missing, for reasons outside the state. -/
def ofOption : Option α → Reading σ α
  | some a => done a
  | none => failed

/-- The results for the elements of a list, one after the other. -/
def collect (f : β → Reading σ (List α)) : List β → Reading σ (List α)
  | [] => done []
  | b :: bs => do
    let as ← f b
    let rest ← collect f bs
    return as ++ rest

/-- The outcome when every reading finds the state `s`. -/
def run (s : σ) : Reading σ α → Option α
  | done a => some a
  | failed => none
  | read next => run s (next s)

@[simp] theorem run_pure (s : σ) (a : α) : run s (pure a) = some a := rfl

@[simp] theorem run_done (s : σ) (a : α) : run s (done a) = some a := rfl

@[simp] theorem run_get (s : σ) (f : σ → α) : run s (get f) = some (f s) := rfl

@[simp] theorem run_ofOption (s : σ) (o : Option α) : run s (ofOption o) = o := by
  cases o <;> rfl

@[simp] theorem run_bind (s : σ) (x : Reading σ α) (f : α → Reading σ β) :
    run s (x >>= f) = (run s x).bind fun a => run s (f a) := by
  show run s (bind x f) = _
  induction x with
  | done a => rfl
  | failed => rfl
  | read next ih => exact ih s

/-- The results are there when those of every element are. -/
theorem isSome_run_collect {s : σ} {f : β → Reading σ (List α)} {bs : List β} :
    (run s (collect f bs)).isSome ↔ ∀ b ∈ bs, (run s (f b)).isSome := by
  induction bs with
  | nil => simp [collect]
  | cons b bs ih =>
    rw [List.forall_mem_cons, ← ih, collect, run_bind]
    cases run s (f b) with
    | none => simp
    | some as =>
      cases hrest : run s (collect f bs) with
      | none => simp [hrest]
      | some rest => simp [hrest]

/-- Every result is one of those of some element. -/
theorem mem_run_collect {s : σ} {f : β → Reading σ (List α)} {bs : List β} {as : List α}
    (h : run s (collect f bs) = some as) {a : α} :
    a ∈ as ↔ ∃ b ∈ bs, ∃ as', run s (f b) = some as' ∧ a ∈ as' := by
  induction bs generalizing as with
  | nil =>
    cases h
    simp
  | cons b bs ih =>
    simp only [collect, run_bind, Option.bind_eq_some_iff, run_pure, Option.some.injEq] at h
    obtain ⟨first, hfirst, rest, hrest, rfl⟩ := h
    simp [ih hrest, hfirst]

/-! ## What a computation reads

The state may change between two readings.  `Factors g` says that a computation reads of
every state no more than `g` leaves of it.  `Holds` says what its result is like, when
each state it reads is one that the world allows by then: worlds grow, and what a result
has been in one world it is in every later one. -/

section Reads

variable {ω : Type} [Preorder ω]

def Factors (g : σ → σ) : Reading σ α → Prop
  | done _ => True
  | failed => True
  | read next => ∀ s, next (g s) = next s ∧ Factors g (next s)

def Holds (P : ω → σ → Prop) (Q : ω → α → Prop) : ω → Reading σ α → Prop
  | w, done a => Q w a
  | _, failed => True
  | w, read next => ∀ w', w ≤ w' → ∀ s, P w' s → Holds P Q w' (next s)

variable {g : σ → σ} {P : ω → σ → Prop} {Q : ω → α → Prop} {Q' : ω → β → Prop} {w w' : ω}

theorem factors_get {f : σ → α} (h : ∀ s, f (g s) = f s) : Factors g (get f) :=
  fun s => ⟨congrArg done (h s), trivial⟩

theorem Factors.bind {x : Reading σ α} {f : α → Reading σ β} (hx : Factors g x)
    (hf : ∀ a, Factors g (f a)) : Factors g (x >>= f) := by
  show Factors g (Reading.bind x f)
  induction x with
  | done a => exact hf a
  | failed => trivial
  | read next ih => exact fun s => ⟨congrArg (Reading.bind · f) (hx s).1, ih s (hx s).2⟩

theorem factors_collect {f : β → Reading σ (List α)} (hf : ∀ b, Factors g (f b)) :
    ∀ bs, Factors g (collect f bs)
  | [] => trivial
  | b :: bs => (hf b).bind fun _ => (factors_collect hf bs).bind fun _ => trivial

/-- States that `g` leaves the same give the same result. -/
theorem Factors.run_eq {x : Reading σ α} (h : Factors g x) {s t : σ} (hg : g s = g t) :
    run s x = run t x := by
  induction x with
  | done a => rfl
  | failed => rfl
  | read next ih =>
    have hnext : next s = next t := by rw [← (h s).1, hg, (h t).1]
    rw [run, run, ← hnext]
    exact ih s (h s).2

theorem Holds.mono (hQ : ∀ {w w' : ω} {a : α}, w ≤ w' → Q w a → Q w' a) {x : Reading σ α}
    (h : Holds P Q w x) (hle : w ≤ w') : Holds P Q w' x := by
  cases x with
  | done a => exact hQ hle h
  | failed => trivial
  | read next => exact fun v hv s hs => h v (hle.trans hv) s hs

theorem holds_get {f : σ → α} (h : ∀ w', w ≤ w' → ∀ s, P w' s → Q w' (f s)) :
    Holds P Q w (get f) :=
  fun w' hle s hs => h w' hle s hs

theorem Holds.bind {x : Reading σ α} {f : α → Reading σ β} (hx : Holds P Q w x)
    (hf : ∀ w', w ≤ w' → ∀ a, Q w' a → Holds P Q' w' (f a)) : Holds P Q' w (x >>= f) := by
  show Holds P Q' w (Reading.bind x f)
  induction x generalizing w with
  | done a => exact hf w le_rfl a hx
  | failed => trivial
  | read next ih =>
    intro v hv s hs
    exact ih s (hx v hv s hs) fun u hu => hf u (hv.trans hu)

/-- A property of the elements of all the lists collected. -/
theorem holds_collect {q : ω → α → Prop} (hq : ∀ {w w' : ω} {a : α}, w ≤ w' → q w a → q w' a)
    {f : β → Reading σ (List α)}
    (hf : ∀ w', w ≤ w' → ∀ b, Holds P (fun w as => ∀ a ∈ as, q w a) w' (f b)) :
    ∀ bs, Holds P (fun w as => ∀ a ∈ as, q w a) w (collect f bs) := by
  intro bs
  induction bs generalizing w with
  | nil => exact fun a ha => by cases ha
  | cons b bs ih =>
    refine Holds.bind (hf w le_rfl b) fun v hv first hfirst => ?_
    refine Holds.bind (ih fun u hu => hf u (hv.trans hu)) fun u hu rest hrest => ?_
    exact List.forall_mem_append.mpr ⟨fun a ha => hq hu (hfirst a ha), hrest⟩

end Reads

end Reading
