/-
Computations with a state that end with a value or raise.

`outcome` runs one.  The rules of this file say what sequencing, `try … finally` and
suppression make of the outcomes of their parts; the state outlives an exception.
-/

/-- A computation on `σ` that may raise an `ε`. -/
abbrev Exceptional (σ ε α : Type) := ExceptT ε (StateM σ) α

namespace Exceptional

variable {σ ε α β : Type}

/-- How the computation ends, and the state it leaves. -/
def outcome (x : Exceptional σ ε α) (s : σ) : Except ε α × σ := x.run.run s

@[simp] theorem outcome_pure (a : α) (s : σ) :
    outcome (pure a : Exceptional σ ε α) s = (.ok a, s) := rfl

@[simp] theorem outcome_throw (e : ε) (s : σ) :
    outcome (throw e : Exceptional σ ε α) s = (.error e, s) := rfl

theorem outcome_ofExcept (r : Except ε α) (s : σ) :
    outcome (MonadExcept.ofExcept r : Exceptional σ ε α) s = (r, s) := by
  cases r <;> rfl

theorem outcome_bind_ok {x : Exceptional σ ε α} {f : α → Exceptional σ ε β} {s s' : σ} {a : α}
    (h : outcome x s = (.ok a, s')) : outcome (x >>= f) s = outcome (f a) s' := by
  simp only [outcome, ExceptT.run_bind, StateT.run_bind] at h ⊢
  rw [h]
  rfl

theorem outcome_bind_error {x : Exceptional σ ε α} {f : α → Exceptional σ ε β} {s s' : σ} {e : ε}
    (h : outcome x s = (.error e, s')) : outcome (x >>= f) s = (.error e, s') := by
  simp only [outcome, ExceptT.run_bind, StateT.run_bind] at h ⊢
  rw [h]
  rfl

theorem outcome_discard (x : Exceptional σ ε α) (s : σ) :
    outcome (discard x) s = ((outcome x s).1.map fun _ => (), (outcome x s).2) := by
  obtain ⟨r, s', hx⟩ : ∃ r s', outcome x s = (r, s') := ⟨_, _, rfl⟩
  have hdiscard : discard x = x >>= fun _ => pure () := rfl
  rw [hdiscard, hx]
  cases r with
  | ok a =>
    rw [outcome_bind_ok hx]
    rfl
  | error e =>
    rw [outcome_bind_error hx]
    rfl

/-- The finalizer runs whatever the body did, and what it raises replaces the body's
outcome. -/
theorem outcome_tryFinally (x : Exceptional σ ε α) (finalizer : Exceptional σ ε β) (s : σ) :
    outcome (tryFinally x finalizer) s =
      match outcome finalizer (outcome x s).2 with
      | (.ok _, s') => ((outcome x s).1, s')
      | (.error e, s') => (.error e, s') := by
  obtain ⟨r, s', hx⟩ : ∃ r s', outcome x s = (r, s') := ⟨_, _, rfl⟩
  obtain ⟨r', s'', hf⟩ : ∃ r' s'', outcome finalizer s' = (r', s'') := ⟨_, _, rfl⟩
  rw [hx]
  dsimp only
  rw [hf]
  simp only [outcome, tryFinally, tryFinally', ExceptT.run, ExceptT.mk, StateT.run, Functor.map,
    ExceptT.map, bind, StateT.bind, pure] at hx hf ⊢
  rw [hx]
  cases r <;> simp only [] <;> rw [hf] <;> cases r' <;> rfl

/-- `contextlib.suppress` -/
def suppress (p : ε → Bool) (x : Exceptional σ ε Unit) : Exceptional σ ε Unit :=
  tryCatch x fun e => if p e then pure () else throw e

theorem outcome_suppress (p : ε → Bool) (x : Exceptional σ ε Unit) (s : σ) :
    outcome (suppress p x) s =
      match outcome x s with
      | (.ok _, s') => (.ok (), s')
      | (.error e, s') => (if p e then .ok () else .error e, s') := by
  obtain ⟨r, s', hx⟩ : ∃ r s', outcome x s = (r, s') := ⟨_, _, rfl⟩
  rw [hx]
  simp only [outcome, suppress, tryCatch, tryCatchThe, MonadExceptOf.tryCatch, ExceptT.tryCatch,
    ExceptT.run, ExceptT.mk, StateT.run, bind, StateT.bind] at hx ⊢
  rw [hx]
  cases r with
  | ok => rfl
  | error e => cases h : p e <;> simp [h] <;> rfl

/-! ## Remote operations -/

/-- How a remote operation is answered: it is performed and the reply arrives, or the call
raises, with the operation performed or not. -/
inductive Reply (ε : Type) where
  | arrives
  | raises (performed : Bool) (e : ε)
deriving DecidableEq, Repr

def Reply.performed : Reply ε → Bool
  | arrives => true
  | raises performed _ => performed

def Reply.map {ε' : Type} (f : ε → ε') : Reply ε → Reply ε'
  | arrives => arrives
  | raises performed e => raises performed (f e)

@[simp] theorem Reply.performed_map {ε' : Type} (f : ε → ε') (reply : Reply ε) :
    (reply.map f).performed = reply.performed := by
  cases reply <;> rfl

/-- The call of an operation, which has a value and leaves a state. -/
def remote (reply : Reply ε) (operation : σ → α × σ) : Exceptional σ ε α := do
  let s ← get
  match reply with
  | .arrives =>
    set (operation s).2
    pure (operation s).1
  | .raises performed e =>
    set (if performed then (operation s).2 else s)
    throw e

theorem outcome_remote (reply : Reply ε) (operation : σ → α × σ) (s : σ) :
    outcome (remote reply operation) s =
      (match reply with
        | .arrives => .ok (operation s).1
        | .raises _ e => .error e,
        if reply.performed then (operation s).2 else s) := by
  cases reply with
  | arrives => rfl
  | raises performed e => cases performed <;> rfl

end Exceptional
