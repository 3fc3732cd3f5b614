/-
One key of a store whose values expire.

An entry is there until its expiry and gone from then on, whether or not the store has
removed it.  The commands are those that read the key, write it when it is free, count it
up, move its expiry, and delete it; each is given the time at which it takes effect.
-/
import Mathlib.Logic.Function.Basic
import Mathlib.Order.BoundedOrder.Basic
import Mathlib.Order.Lattice

/-- A stored value and the time at which it is gone. -/
structure Expiring (τ ν : Type) where
  value : ν
  expiry : τ
deriving DecidableEq

namespace Expiring

variable {τ ν : Type} [LinearOrder τ]

/-- What a reader finds. -/
def get (key : Option (Expiring τ ν)) (now : τ) : Option ν :=
  match key with
  | some e => if now < e.expiry then some e.value else none
  | none => none

/-- Write the key if it is free. -/
def setNX (key : Option (Expiring τ ν)) (now : τ) (value : ν) (expiry : τ) :
    Option (Expiring τ ν) :=
  match get key now with
  | some _ => key
  | none => some ⟨value, expiry⟩

/-- Move the expiry of a key that is there, whoever has written it. -/
def expire (key : Option (Expiring τ ν)) (now expiry : τ) : Option (Expiring τ ν) :=
  match get key now with
  | some value => some ⟨value, expiry⟩
  | none => key

/-- Delete the key if it holds the value. -/
def deleteIf [DecidableEq ν] (key : Option (Expiring τ ν)) (now : τ) (value : ν) :
    Option (Expiring τ ν) :=
  if get key now = some value then none else key

/-- Count up from what a reader finds.  A new counter has no expiry yet. -/
def incr [OrderTop τ] (key : Option (Expiring τ Nat)) (now : τ) : Expiring τ Nat :=
  match key with
  | some e => if now < e.expiry then ⟨e.value + 1, e.expiry⟩ else ⟨1, ⊤⟩
  | none => ⟨1, ⊤⟩

theorem get_eq_some {key : Option (Expiring τ ν)} {now : τ} {value : ν} :
    get key now = some value ↔ ∃ e, key = some e ∧ e.value = value ∧ now < e.expiry := by
  cases key with
  | none => simp [get]
  | some e =>
    by_cases h : now < e.expiry <;> simp [get, h]

theorem get_of_lt {e : Expiring τ ν} {now : τ} (h : now < e.expiry) :
    get (some e) now = some e.value := by
  simp [get, h]

/-- From its expiry on the key is free. -/
theorem get_of_le {key : Option (Expiring τ ν)} {now : τ} (h : ∀ e, key = some e → e.expiry ≤ now) :
    get key now = none := by
  cases key with
  | none => rfl
  | some e => simp [get, h e rfl]

theorem incr_of_lt [OrderTop τ] {e : Expiring τ Nat} {now : τ} (h : now < e.expiry) :
    incr (some e) now = ⟨e.value + 1, e.expiry⟩ := by
  simp [incr, h]

theorem expire_of_get {key : Option (Expiring τ ν)} {now expiry : τ} {value : ν}
    (h : get key now = some value) : expire key now expiry = some ⟨value, expiry⟩ := by
  simp [expire, h]

/-- An entry after a command is the old one or has the new expiry. -/
theorem expire_cases (key : Option (Expiring τ ν)) (now expiry : τ) :
    expire key now expiry = key ∨
      ∃ value, get key now = some value ∧ expire key now expiry = some ⟨value, expiry⟩ := by
  unfold expire
  split
  · rename_i value hvalue
    exact .inr ⟨value, hvalue, rfl⟩
  · exact .inl rfl

theorem setNX_of_free {key : Option (Expiring τ ν)} {now expiry : τ} {value : ν}
    (h : get key now = none) : setNX key now value expiry = some ⟨value, expiry⟩ := by
  simp [setNX, h]

theorem isSome_setNX {key : Option (Expiring τ ν)} {now expiry : τ} {value : ν} :
    (setNX key now value expiry).isSome := by
  unfold setNX
  split
  · rename_i v hv
    obtain ⟨e, rfl, -⟩ := get_eq_some.mp hv
    rfl
  · rfl

variable [DecidableEq ν]

/-- A holder's entry survives the delete of another value. -/
theorem deleteIf_of_ne {key : Option (Expiring τ ν)} {now : τ} {value v : ν}
    (h : get key now = some v) (hne : v ≠ value) : deleteIf key now value = key := by
  simp [deleteIf, h, hne]

theorem deleteIf_cases (key : Option (Expiring τ ν)) (now : τ) (value : ν) :
    deleteIf key now value = key ∨ deleteIf key now value = none := by
  unfold deleteIf
  split
  · exact .inr rfl
  · exact .inl rfl

end Expiring

/-! ## Some of the keys -/

namespace Keys

variable {κ ν : Type} (p : κ → Prop) [DecidablePred p]

/-- A store as one sees it who reads the keys that satisfy `p` only. -/
def part (store : κ → Option ν) : κ → Option ν := fun k => if p k then store k else none

variable {p} {store : κ → Option ν} {k : κ}

theorem part_apply (h : p k) : part p store k = store k := if_pos h

variable [DecidableEq κ]

theorem part_update (h : p k) (v : Option ν) :
    part p (Function.update store k v) = Function.update (part p store) k v := by
  funext l
  by_cases hl : l = k
  · subst hl
    simp [part, h]
  · simp [part, hl]

theorem part_update_other (h : ¬ p k) (v : Option ν) :
    part p (Function.update store k v) = part p store := by
  funext l
  by_cases hl : l = k
  · subst hl
    simp [part, h]
  · simp [part, hl]

/-- A key that is removed is removed from the part. -/
theorem part_remove :
    part p (Function.update store k none) = Function.update (part p store) k none := by
  by_cases h : p k
  · exact part_update h none
  · rw [part_update_other h, Function.update_eq_self_iff.mpr]
    exact (if_neg h).symm

end Keys
