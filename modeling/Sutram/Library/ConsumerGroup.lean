/-
A stream read through one consumer group.

Messages are appended and numbered in their order, and the oldest may be evicted.  The
readers of the group share one cursor: a read hands out messages that come after it and
are still there, and moves it past them, so that no message is handed out twice.
-/
import Mathlib.Data.List.Basic

namespace Streams

variable {α : Type}

/-! ## Up to the first of a kind -/

/-- The list up to and including the first element that satisfies `p`. -/
def through (p : α → Bool) : List α → List α
  | [] => []
  | a :: as => if p a then [a] else a :: through p as

section Through

variable {p : α → Bool} {xs ys : List α}

theorem through_append_of_any (h : xs.any p) (ys : List α) :
    through p (xs ++ ys) = through p xs := by
  induction xs with
  | nil => cases h
  | cons a as ih =>
    by_cases ha : p a
    · simp [through, ha]
    · have hrest : as.any p := by simpa [ha] using h
      simp [through, ha, ih hrest]

theorem through_append_of_none (h : ∀ x ∈ xs, p x = false) (ys : List α) :
    through p (xs ++ ys) = xs ++ through p ys := by
  induction xs with
  | nil => rfl
  | cons a as ih =>
    rw [List.forall_mem_cons] at h
    simp [through, h.1, ih h.2]

theorem through_of_none (h : ∀ x ∈ xs, p x = false) : through p xs = xs := by
  have happend := through_append_of_none h []
  simpa [through] using happend

theorem any_through (p : α → Bool) (xs : List α) : (through p xs).any p = xs.any p := by
  induction xs with
  | nil => rfl
  | cons a as ih =>
    by_cases ha : p a
    · simp [through, ha]
    · simp [through, ha, ih]

theorem forall_of_not_any (h : ¬ xs.any p) : ∀ x ∈ xs, p x = false := by
  simpa using h

/-- What lists agree on up to the first of a kind they agree on after more is appended. -/
theorem through_append_congr (h : through p xs = through p ys) (zs : List α) :
    through p (xs ++ zs) = through p (ys ++ zs) := by
  have hany : xs.any p = ys.any p := by rw [← any_through p xs, h, any_through]
  by_cases hx : xs.any p
  · have hy : ys.any p := by rwa [← hany]
    rw [through_append_of_any hx, through_append_of_any hy, h]
  · have hx' := forall_of_not_any hx
    have hy' := forall_of_not_any (by rwa [hany] at hx)
    rw [through_append_of_none hx', through_append_of_none hy', ← through_of_none hx', h,
      through_of_none hy']

/-- A part of which nothing comes before the cut can be left out. -/
theorem through_skip {bs : List α} (h : ∀ b ∈ bs, b ∉ through p (xs ++ (bs ++ ys))) :
    through p (xs ++ (bs ++ ys)) = through p (xs ++ ys) := by
  by_cases hx : xs.any p
  · rw [through_append_of_any hx, through_append_of_any hx]
  · cases bs with
    | nil => rfl
    | cons b bs =>
      have hcut : b ∈ through p (xs ++ (b :: bs ++ ys)) := by
        rw [through_append_of_none (forall_of_not_any hx), List.cons_append, through]
        split <;> simp
      exact absurd hcut (h b List.mem_cons_self)

end Through

/-! ## Messages -/

structure Message (α : Type) where
  id : Nat
  body : α
deriving DecidableEq, Repr

/-- The messages from number `k` on. -/
def after (k : Nat) (ms : List (Message α)) : List (Message α) := ms.filter fun m => k ≤ m.id

@[simp] theorem after_nil (k : Nat) : after k ([] : List (Message α)) = [] := rfl

@[simp] theorem after_append (k : Nat) (ms ns : List (Message α)) :
    after k (ms ++ ns) = after k ms ++ after k ns :=
  List.filter_append ..

theorem mem_after {k : Nat} {m : Message α} {ms : List (Message α)} :
    m ∈ after k ms ↔ m ∈ ms ∧ k ≤ m.id := by
  simp [after]

/-! ## The group -/

/-- A stream and the cursor of its group: the number of messages it is past. -/
structure Group (α : Type) where
  history : List α
  evicted : Nat
  cursor : Nat
  evicted_le : evicted ≤ history.length
  cursor_le : cursor ≤ history.length

namespace Group

/-- A stream without messages. -/
def empty : Group α := ⟨[], 0, 0, Nat.le_refl 0, Nat.le_refl 0⟩

def messages (g : Group α) : List (Message α) := g.history.mapIdx Message.mk

/-- The number of messages that are read or evicted. -/
def start (g : Group α) : Nat := max g.cursor g.evicted

def unread (g : Group α) : List (Message α) := g.messages.drop g.start

@[simp] theorem length_messages (g : Group α) : g.messages.length = g.history.length := by
  simp [messages]

theorem start_le (g : Group α) : g.start ≤ g.history.length :=
  Nat.max_le.mpr ⟨g.cursor_le, g.evicted_le⟩

theorem id_lt {g : Group α} {m : Message α} (h : m ∈ g.messages) : m.id < g.history.length := by
  obtain ⟨i, hi, rfl⟩ := List.mem_mapIdx.mp h
  exact hi

/-- A number that has been given is that of a message. -/
theorem exists_message {g : Group α} {i : Nat} (h : i < g.history.length) :
    ∃ m ∈ g.messages, m.id = i :=
  ⟨⟨i, g.history[i]⟩, List.mem_mapIdx.mpr ⟨i, h, rfl⟩, rfl⟩

/-- What is unread is still there and comes after the cursor. -/
theorem mem_unread {g : Group α} {m : Message α} :
    m ∈ g.unread ↔ m ∈ g.messages ∧ g.start ≤ m.id := by
  rw [unread, List.mem_drop_iff_getElem]
  constructor
  · rintro ⟨j, hj, rfl⟩
    refine ⟨List.getElem_mem _, ?_⟩
    simp [messages]
  · rintro ⟨hmem, hstart⟩
    obtain ⟨i, hi, rfl⟩ := List.mem_mapIdx.mp hmem
    simp only at hstart
    refine ⟨i - g.start, by rw [length_messages]; omega, ?_⟩
    simp [messages, Nat.add_sub_cancel' hstart]

/-- The messages so far come before the next one. -/
theorem after_length_eq_nil {g : Group α} {ms : List (Message α)} (h : ms ⊆ g.messages) :
    after g.history.length ms = [] := by
  rw [after, List.filter_eq_nil_iff]
  intro m hm
  have hid := id_lt (h hm)
  simpa using hid

/-! ### Reading -/

/-- The messages a read of at most `count` hands out. -/
def batch (g : Group α) (count : Nat) : List (Message α) := g.unread.take count

theorem length_batch_le (g : Group α) (count : Nat) :
    g.start + (g.batch count).length ≤ g.history.length := by
  have hlen : (g.batch count).length ≤ g.unread.length := List.length_take_le' _ _
  have hstart := g.start_le
  simp only [unread, List.length_drop, length_messages] at hlen
  omega

/-- The group after a read. -/
def read (g : Group α) (count : Nat) : Group α :=
  { g with cursor := g.start + (g.batch count).length, cursor_le := g.length_batch_le count }

@[simp] theorem read_messages (g : Group α) (count : Nat) :
    (g.read count).messages = g.messages := rfl

/-- A read hands out the front of what is unread. -/
theorem batch_append_unread (g : Group α) (count : Nat) :
    g.batch count ++ (g.read count).unread = g.unread := by
  have hstart : (g.read count).start = g.start + (g.batch count).length := by
    have hevicted : g.evicted ≤ g.start := Nat.le_max_right _ _
    simp only [start, read] at hevicted ⊢
    omega
  have hprefix : g.batch count <+: g.unread := List.take_prefix _ _
  rw [unread, hstart, read_messages, ← List.drop_drop]
  exact List.prefix_iff_eq_append.mp hprefix

/-! ### Appending and evicting -/

def append (g : Group α) (a : α) : Group α where
  history := g.history ++ [a]
  evicted := g.evicted
  cursor := g.cursor
  evicted_le := by
    have h := g.evicted_le
    rw [List.length_append]
    omega
  cursor_le := by
    have h := g.cursor_le
    rw [List.length_append]
    omega

theorem append_messages (g : Group α) (a : α) :
    (g.append a).messages = g.messages ++ [⟨g.history.length, a⟩] :=
  List.mapIdx_concat

theorem append_unread (g : Group α) (a : α) :
    (g.append a).unread = g.unread ++ [⟨g.history.length, a⟩] := by
  show (g.append a).messages.drop g.start = _
  rw [append_messages, List.drop_append_of_le_length]
  · rfl
  · rw [length_messages]
    exact g.start_le

/-- The first `n` messages are removed. -/
def evict (g : Group α) (n : Nat) : Group α :=
  { g with
    evicted := max g.evicted (min n g.history.length)
    evicted_le := Nat.max_le.mpr ⟨g.evicted_le, Nat.min_le_right _ _⟩ }

@[simp] theorem evict_messages (g : Group α) (n : Nat) : (g.evict n).messages = g.messages := rfl

theorem start_le_evict (g : Group α) (n : Nat) : g.start ≤ (g.evict n).start := by
  simp only [start, evict]
  omega

/-- The unread messages that an eviction removes. -/
def lost (g : Group α) (n : Nat) : List (Message α) :=
  g.unread.take ((g.evict n).start - g.start)

theorem lost_append_unread (g : Group α) (n : Nat) :
    g.lost n ++ (g.evict n).unread = g.unread := by
  have hle := g.start_le_evict n
  have hunread : (g.evict n).unread = g.unread.drop ((g.evict n).start - g.start) := by
    rw [unread, unread, evict_messages, List.drop_drop]
    congr 1
    omega
  rw [hunread, lost, List.take_append_drop]

/-! ### Where a group begins -/

/-- The cursor is past every message. -/
def toEnd (g : Group α) : Group α :=
  { g with cursor := g.history.length, cursor_le := Nat.le_refl _ }

@[simp] theorem toEnd_messages (g : Group α) : g.toEnd.messages = g.messages := rfl

theorem toEnd_unread (g : Group α) : g.toEnd.unread = [] := by
  have hstart : g.history.length ≤ g.toEnd.start := Nat.le_max_left _ _
  rw [unread, toEnd_messages, List.drop_eq_nil_iff, length_messages]
  exact hstart

end Group

end Streams
