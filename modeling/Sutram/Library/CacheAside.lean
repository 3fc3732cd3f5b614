/-
A cache in front of a computation.

A client looks up the key of its argument.  On a hit it decodes what is stored; on a miss
it has the value computed, stores it with a time to live and returns it.  Nothing keeps
clients apart: two may compute for one argument, and a value may be stored long after it
was computed.  Entries may vanish at any time, and others may write keys that are none of
the cache's.

What a client returns has been computed for an argument of the same key, by itself or by
one that stored it no longer than the time to live ago.
-/
import Sutram.Library.ExpiringKey

structure CacheAside (α κ ν σ : Type) where
  key : α → κ
  encode : ν → σ
  /-- `none` where it raises -/
  decode : σ → Option ν
  ttl : Nat
  /-- the keys that only the cache writes -/
  own : κ → Bool
  own_key : ∀ a, own (key a)

namespace CacheAside

/-- A value for an argument, and the time at which it was computed, stored or returned. -/
structure Entry (α ν : Type) where
  argument : α
  value : ν
  time : Nat
deriving DecidableEq

inductive Phase (α ν : Type) where
  | idle
  | missed (a : α)
  | computed (a : α) (v : ν)

structure State (α κ ν σ : Type) where
  now : Nat := 0
  store : κ → Option (Expiring Nat σ) := fun _ => none
  phases : Nat → Phase α ν := fun _ => .idle
  computed : List (Entry α ν) := []
  stored : List (Entry α ν) := []
  returned : List (Entry α ν) := []

inductive Action (α κ ν σ : Type) where
  | look (i : Nat) (a : α)
  | compute (i : Nat) (v : ν)
  | store (i : Nat)
  /-- The value is stored, and its client does not learn of it. -/
  | storeLost (i : Nat)
  | fail (i : Nat)
  | evict (k : κ)
  | write (k : κ) (e : Option (Expiring Nat σ))
  | wait (seconds : Nat)

variable {α κ ν σ : Type}

section Step

variable [DecidableEq κ] (c : CacheAside α κ ν σ)

namespace State

def goto (s : State α κ ν σ) (i : Nat) (phase : Phase α ν) : State α κ ν σ :=
  { s with phases := Function.update s.phases i phase }

def put (s : State α κ ν σ) (k : κ) (e : Option (Expiring Nat σ)) : State α κ ν σ :=
  { s with store := Function.update s.store k e }

end State

/-- The value is there from now on for the time to live. -/
def save (s : State α κ ν σ) (i : Nat) (a : α) (v : ν) : State α κ ν σ :=
  { (s.put (c.key a) (some ⟨c.encode v, s.now + c.ttl⟩)).goto i .idle with
    stored := s.stored ++ [⟨a, v, s.now⟩] }

def step (s : State α κ ν σ) : Action α κ ν σ → Option (State α κ ν σ)
  | .look i a =>
    match s.phases i, Expiring.get (s.store (c.key a)) s.now with
    | .idle, none => some (s.goto i (.missed a))
    | .idle, some text =>
      match c.decode text with
      | some v => some { s with returned := s.returned ++ [⟨a, v, s.now⟩] }
      | none => some s
    | _, _ => none
  | .compute i v =>
    match s.phases i with
    | .missed a =>
      some { s.goto i (.computed a v) with computed := s.computed ++ [⟨a, v, s.now⟩] }
    | _ => none
  | .store i =>
    match s.phases i with
    | .computed a v => some { save c s i a v with returned := s.returned ++ [⟨a, v, s.now⟩] }
    | _ => none
  | .storeLost i =>
    match s.phases i with
    | .computed a v => some (save c s i a v)
    | _ => none
  | .fail i => some (s.goto i .idle)
  | .evict k => some (s.put k none)
  | .write k e => if c.own k then none else some (s.put k e)
  | .wait seconds => some { s with now := s.now + seconds }

end Step

/-! ## What is stored -/

variable {c : CacheAside α κ ν σ} {s s' : State α κ ν σ}

/-- The value was computed for the argument at the time or before. -/
def Computed (s : State α κ ν σ) (a : α) (v : ν) (time : Nat) : Prop :=
  ∃ e ∈ s.computed, e.argument = a ∧ e.value = v ∧ e.time ≤ time

theorem Computed.mono {a : α} {v : ν} {time later : Nat} (h : Computed s a v time)
    (hcomputed : ∀ e ∈ s.computed, e ∈ s'.computed) (hle : time ≤ later) :
    Computed s' a v later := by
  obtain ⟨e, he, ha, hv, htime⟩ := h
  exact ⟨e, hcomputed e he, ha, hv, htime.trans hle⟩

/-- The value returned is one stored under its key, no longer than the time to live ago. -/
structure Justified (c : CacheAside α κ ν σ) (r e : Entry α ν) : Prop where
  key : c.key e.argument = c.key r.argument
  value : e.value = r.value ∨ c.decode (c.encode e.value) = some r.value
  after : e.time ≤ r.time
  before : r.time ≤ e.time + c.ttl

structure Sound (c : CacheAside α κ ν σ) (s : State α κ ν σ) : Prop where
  store : ∀ k e, s.store k = some e → c.own k → ∃ entry ∈ s.stored,
    c.key entry.argument = k ∧ e.value = c.encode entry.value ∧ e.expiry = entry.time + c.ttl
  stored : ∀ e ∈ s.stored, e.time ≤ s.now ∧ Computed s e.argument e.value e.time
  phases : ∀ i a v, s.phases i = .computed a v → Computed s a v s.now
  returned : ∀ r ∈ s.returned, ∃ e ∈ s.stored, Justified c r e

theorem sound_initial : Sound c {} :=
  ⟨nofun, List.forall_mem_nil _, nofun, List.forall_mem_nil _⟩

/-- A client moves to a phase in which it holds nothing new. -/
theorem Sound.goto (hI : Sound c s) {i : Nat} {phase : Phase α ν}
    (hphase : ∀ a v, phase = .computed a v → Computed s a v s.now) : Sound c (s.goto i phase) := by
  refine ⟨hI.store, hI.stored, fun j a v hj => ?_, hI.returned⟩
  by_cases hij : j = i
  · subst hij
    simp only [State.goto, Function.update_self] at hj
    exact hphase a v hj
  · simp only [State.goto, Function.update_of_ne hij] at hj
    exact hI.phases j a v hj

/-- One more value is returned. -/
theorem Sound.answer (hI : Sound c s) {r e : Entry α ν} (he : e ∈ s.stored)
    (h : Justified c r e) : Sound c { s with returned := s.returned ++ [r] } := by
  refine ⟨hI.store, hI.stored, hI.phases, fun r' hr' => ?_⟩
  rcases List.mem_append.mp hr' with hr' | hr'
  · exact hI.returned r' hr'
  · rw [List.mem_singleton.mp hr']
    exact ⟨e, he, h⟩

/-- Where keys and encoding lose nothing, what is returned for an argument has been computed
for it, and stored no longer than the time to live ago. -/
theorem Sound.exact (hI : Sound c s)
    (hkey : ∀ r ∈ s.returned, ∀ e ∈ s.stored, c.key e.argument = c.key r.argument →
      e.argument = r.argument)
    (hcode : ∀ e ∈ s.computed, c.decode (c.encode e.value) = some e.value) :
    ∀ r ∈ s.returned, ∃ e ∈ s.stored, e.argument = r.argument ∧ e.value = r.value ∧
      e.time ≤ r.time ∧ r.time ≤ e.time + c.ttl ∧ Computed s r.argument r.value e.time := by
  intro r hr
  obtain ⟨e, he, hjustified⟩ := hI.returned r hr
  have hcomputed := (hI.stored e he).2
  have hargument := hkey r hr e he hjustified.key
  have hvalue : e.value = r.value := by
    rcases hjustified.value with hvalue | hvalue
    · exact hvalue
    · obtain ⟨origin, horigin, -, hsame, -⟩ := hcomputed
      rw [← hsame, hcode origin horigin, hsame] at hvalue
      exact Option.some.inj hvalue
  rw [hargument, hvalue] at hcomputed
  exact ⟨e, he, hargument, hvalue, hjustified.after, hjustified.before, hcomputed⟩

variable [DecidableEq κ]

/-- A key that is not the cache's, or is removed. -/
theorem Sound.put (hI : Sound c s) {k : κ} {e : Option (Expiring Nat σ)}
    (hk : c.own k → e = none) : Sound c (s.put k e) := by
  refine ⟨fun l e' hl hown => ?_, hI.stored, hI.phases, hI.returned⟩
  by_cases hlk : l = k
  · subst hlk
    simp only [State.put, Function.update_self, hk hown] at hl
    cases hl
  · simp only [State.put, Function.update_of_ne hlk] at hl
    exact hI.store l e' hl hown

theorem Sound.save (hI : Sound c s) {i : Nat} {a : α} {v : ν}
    (hphase : s.phases i = .computed a v) : Sound c (save c s i a v) := by
  have hcomputed : Computed s a v s.now := hI.phases i a v hphase
  have hmem : ∀ e ∈ s.stored, e ∈ (CacheAside.save c s i a v).stored :=
    fun e he => List.mem_append_left _ he
  constructor
  · intro k e he hown
    by_cases hk : k = c.key a
    · subst hk
      simp only [CacheAside.save, State.goto, State.put, Function.update_self,
        Option.some.injEq] at he
      subst he
      exact ⟨⟨a, v, s.now⟩, List.mem_append_right _ List.mem_cons_self, rfl, rfl, rfl⟩
    · simp only [CacheAside.save, State.goto, State.put, Function.update_of_ne hk] at he
      obtain ⟨entry, hentry, h⟩ := hI.store k e he hown
      exact ⟨entry, hmem entry hentry, h⟩
  · intro e he
    rcases List.mem_append.mp he with he | he
    · exact hI.stored e he
    · rw [List.mem_singleton.mp he]
      exact ⟨Nat.le_refl _, hcomputed⟩
  · intro j b u hj
    by_cases hij : j = i
    · subst hij
      simp [CacheAside.save, State.goto, State.put] at hj
    · simp only [CacheAside.save, State.goto, State.put, Function.update_of_ne hij] at hj
      exact hI.phases j b u hj
  · intro r hr
    obtain ⟨e, he, hjustified⟩ := hI.returned r hr
    exact ⟨e, hmem e he, hjustified⟩

theorem sound_step {action : Action α κ ν σ} (hI : Sound c s) (h : step c s action = some s') :
    Sound c s' := by
  cases action with
  | look i a =>
    simp only [step] at h
    split at h
    · cases h
      exact hI.goto nofun
    · rename_i text _ hget
      split at h
      · rename_i v hdecode
        cases h
        obtain ⟨e, hstore, hvalue, hexpiry⟩ := Expiring.get_eq_some.mp hget
        obtain ⟨entry, hentry, hkey, hencoded, htime⟩ := hI.store _ _ hstore (c.own_key a)
        refine hI.answer hentry ⟨hkey, .inr ?_, (hI.stored entry hentry).1, ?_⟩
        · rw [← hencoded, hvalue, hdecode]
        · rw [← htime]
          exact hexpiry.le
      · cases h
        exact hI
    · cases h
  | compute i v =>
    simp only [step] at h
    split at h
    · rename_i a hphase
      cases h
      have hmore : ∀ e ∈ s.computed, e ∈ s.computed ++ [⟨a, v, s.now⟩] :=
        fun e he => List.mem_append_left _ he
      have hgrown : Sound c { s with computed := s.computed ++ [⟨a, v, s.now⟩] } :=
        ⟨hI.store, fun e he => ⟨(hI.stored e he).1, (hI.stored e he).2.mono hmore (Nat.le_refl _)⟩,
          fun j b u hj => (hI.phases j b u hj).mono hmore (Nat.le_refl _), hI.returned⟩
      refine hgrown.goto fun b u hphase' => ?_
      cases hphase'
      exact ⟨_, List.mem_append_right _ List.mem_cons_self, rfl, rfl, Nat.le_refl _⟩
    · cases h
  | store i =>
    simp only [step] at h
    split at h
    · rename_i a v hphase
      cases h
      exact (hI.save hphase).answer (e := ⟨a, v, s.now⟩)
        (List.mem_append_right _ List.mem_cons_self)
        ⟨rfl, .inl rfl, Nat.le_refl _, Nat.le_add_right _ _⟩
    · cases h
  | storeLost i =>
    simp only [step] at h
    split at h
    · rename_i a v hphase
      cases h
      exact hI.save hphase
    · cases h
  | fail i =>
    cases h
    exact hI.goto nofun
  | evict k =>
    cases h
    exact hI.put fun _ => rfl
  | write k e =>
    simp only [step] at h
    split at h <;> cases h
    rename_i hother
    exact hI.put fun hown => absurd hown hother
  | wait seconds =>
    cases h
    have hle : s.now ≤ s.now + seconds := Nat.le_add_right _ _
    exact ⟨hI.store, fun e he => ⟨(hI.stored e he).1.trans hle, (hI.stored e he).2⟩,
      fun i a v hi => (hI.phases i a v hi).mono (fun _ he => he) hle, hI.returned⟩

/-- Only a computation adds to what is computed. -/
theorem computed_of_step {action : Action α κ ν σ} (h : step c s action = some s') :
    s'.computed = s.computed ∨ ∃ i a v, action = .compute i v ∧ s.phases i = .missed a ∧
      s'.computed = s.computed ++ [⟨a, v, s.now⟩] := by
  cases action with
  | look i a =>
    simp only [step] at h
    split at h
    · cases h
      exact .inl rfl
    · split at h <;> cases h <;> exact .inl rfl
    · cases h
  | compute i v =>
    simp only [step] at h
    split at h
    · rename_i a hphase
      cases h
      exact .inr ⟨i, a, v, rfl, hphase, rfl⟩
    · cases h
  | store i | storeLost i =>
    simp only [step] at h
    split at h <;> cases h
    exact .inl rfl
  | fail i | evict k | wait seconds =>
    cases h
    exact .inl rfl
  | write k e =>
    simp only [step] at h
    split at h <;> cases h
    exact .inl rfl

/-- What has been returned stays on record. -/
theorem returned_of_step {action : Action α κ ν σ} (h : step c s action = some s') :
    s.returned ⊆ s'.returned := by
  have hgrow : ∀ r : Entry α ν, s.returned ⊆ s.returned ++ [r] :=
    fun r => List.subset_append_left _ _
  cases action with
  | look i a =>
    simp only [step] at h
    split at h
    · cases h
      exact List.Subset.refl _
    · split at h <;> cases h
      · exact hgrow _
      · exact List.Subset.refl _
    · cases h
  | compute i v | storeLost i =>
    simp only [step] at h
    split at h <;> cases h
    exact List.Subset.refl _
  | store i =>
    simp only [step] at h
    split at h <;> cases h
    exact hgrow _
  | fail i | evict k | wait seconds =>
    cases h
    exact List.Subset.refl _
  | write k e =>
    simp only [step] at h
    split at h <;> cases h
    exact List.Subset.refl _

end CacheAside
