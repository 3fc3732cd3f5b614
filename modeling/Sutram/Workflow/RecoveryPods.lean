/-
Recovery pods and the tasks they enqueue.

The queue of the service only counts tasks.  Here it is kept together with the calls of
`try_recover` that have enqueued a recovery task: which of those tasks still wait, which
of them a worker is running, and how many were enqueued since a worker died.

The lock may lapse under any holder.  The heartbeat that renews it ends with the first GET
or EXPIRE that fails, and the enqueue, which is no coroutine, keeps the loop from running it.
-/
import Sutram.Workflow.Recovery

namespace Sutram.Workflow

open Sutram.Core Runs

/-- `recovery` holds, for each recovery task in the queue, the number of the call of
`try_recover` that has enqueued it.  Calls are numbered as they take the lock, and
`trial` is the last one of each pod. -/
structure Queued where
  world : World
  recovery : List Nat := []
  origin : Nat → Option Nat := fun _ => none
  trial : Nat → Nat := fun _ => 0
  tries : Nat := 0
  /-- The recovery tasks enqueued since a worker died, while no worker has picked one up. -/
  since : Option Nat := none

/-- A worker picks up a recovery task, the key of the lock lapses whoever holds it, or the
service does anything else; `take` then is the pick-up of another task. -/
inductive QueueAction where
  | act (a : Action)
  | takeRecovery (i k : Nat)
  | lapse
deriving DecidableEq, Repr

namespace Queued

def initial (inputs : List (String × Json)) : Queued := { world := World.initial inputs }

/-- A pod's operation: it takes the lock, or it enqueues. -/
def afterPod (q : Queued) (p : Nat) (w : World) : Queued :=
  match q.world.pods p with
  | .stale =>
    if q.world.lock = none then
      { q with
        world := w
        tries := q.tries + 1
        trial := Function.update q.trial p (q.tries + 1) }
    else { q with world := w }
  | .enqueue =>
    { q with
      world := w
      recovery := q.recovery ++ [q.trial p]
      since := q.since.map (· + 1) }
  | _ => { q with world := w }

end Queued

def queueStep (cfg : Config) (q : Queued) : QueueAction → Option Queued
  | .takeRecovery i k =>
    match q.recovery[k]?, step cfg q.world (.take i) with
    | some call, some w => some { q with
        world := w
        recovery := q.recovery.eraseIdx k
        origin := Function.update q.origin i (some call)
        since := none }
    | _, _ => none
  | .act (.take i) =>
    match step cfg q.world (.take i) with
    | some w =>
      if q.recovery.length < q.world.tasks then
        some { q with world := w, origin := Function.update q.origin i none }
      else none
    | none => none
  | .act (.crash i) =>
    match step cfg q.world (.crash i) with
    | some w => some { q with world := w, since := some (q.since.getD 0) }
    | none => none
  | .act (.pod p) =>
    match step cfg q.world (.pod p) with
    | some w => some (q.afterPod p w)
    | none => none
  | .act a =>
    match step cfg q.world a with
    | some w => some { q with world := w }
    | none => none
  | .lapse =>
    if q.world.lock.isSome then some { q with world := { q.world with lock := none } } else none

/-! ## What recovery promises -/

/-- At most one task has been enqueued between a crash and the next pick-up. -/
def NoDuplicate (q : Queued) : Prop := ∀ n ∈ q.since, n ≤ 1

/-- The pod that holds the lock. -/
def World.podHolding (w : World) : Option Nat :=
  match w.lock with
  | some (.pod p) => some p
  | _ => none

/-- The call of `try_recover` that holds the lock. -/
def Queued.holding (q : Queued) : Option Nat := q.world.podHolding.map q.trial

/-- A worker is about to be refused the lock by the very call of `try_recover` that has
enqueued its task. -/
def Dropped (q : Queued) : QueueAction → Prop
  | .act (.run i) =>
    (q.world.workers i).pc = .acquire ∧ ∃ call ∈ q.holding, q.origin i = some call
  | _ => False

/-- The pod is between the SET of `try_recover` and its release. -/
def Pod.inside (x : Pod) : Prop := x = .enqueue ∨ x = .release

instance (x : Pod) : Decidable x.inside := inferInstanceAs (Decidable (_ ∨ _))

/-- No pod takes the lock while a task enqueued since the crash still waits, no worker
picks up a recovery task before the call that has enqueued it released the lock, and no
key lapses while its pod is inside `try_recover`. -/
def Orderly (q : Queued) : QueueAction → Prop
  | .act (.pod p) => q.world.pods p = .stale ∧ q.world.lock = none → ∀ n ∈ q.since, n = 0
  | .takeRecovery _ k => ∀ call ∈ q.holding, q.recovery[k]? ≠ some call
  | .lapse => ∀ p ∈ q.world.podHolding, ¬ (q.world.pods p).inside
  | _ => True

instance decidableNoDuplicate (q : Queued) : Decidable (NoDuplicate q) :=
  inferInstanceAs (Decidable (∀ n ∈ q.since, n ≤ 1))

instance decidableDropped (q : Queued) : ∀ a, Decidable (Dropped q a)
  | .act (.run _) => inferInstanceAs (Decidable (_ ∧ ∃ call ∈ q.holding, _))
  | .act (.take _) | .act (.fail _ _) | .act (.crash _) | .act (.request _ _) | .act (.flush _)
  | .act (.commit _) | .act (.enqueue _) | .act (.enqueueFails _) | .act (.abort _)
  | .act (.scan _) | .act (.pod _) | .act (.podCrash _) | .act .redeliver | .act .expire
  | .act .tick | .takeRecovery _ _ | .lapse => isFalse id

instance decidableOrderly (q : Queued) : ∀ a, Decidable (Orderly q a)
  | .act (.pod _) => inferInstanceAs (Decidable (_ ∧ _ → ∀ n ∈ q.since, n = 0))
  | .takeRecovery _ k =>
    inferInstanceAs (Decidable (∀ call ∈ q.holding, q.recovery[k]? ≠ some call))
  | .lapse => inferInstanceAs (Decidable (∀ p ∈ q.world.podHolding, ¬ (q.world.pods p).inside))
  | .act (.take _) | .act (.run _) | .act (.fail _ _) | .act (.crash _) | .act (.request _ _)
  | .act (.flush _) | .act (.commit _) | .act (.enqueue _) | .act (.enqueueFails _)
  | .act (.abort _) | .act (.scan _) | .act (.podCrash _) | .act .redeliver | .act .expire
  | .act .tick => isTrue trivial

/-! ## What a step can do -/

/-- The actions that touch nothing but the service. -/
def Action.isPlain : Action → Bool
  | .take _ | .crash _ | .pod _ => false
  | _ => true

inductive Queues (cfg : Config) (q : Queued) : QueueAction → Queued → Prop
  | takeRecovery {i k call : Nat} {w : World} (hcall : q.recovery[k]? = some call)
      (hstep : step cfg q.world (.take i) = some w) :
      Queues cfg q (.takeRecovery i k) { q with
        world := w
        recovery := q.recovery.eraseIdx k
        origin := Function.update q.origin i (some call)
        since := none }
  | take {i : Nat} {w : World} (hstep : step cfg q.world (.take i) = some w) :
      Queues cfg q (.act (.take i)) { q with
        world := w, origin := Function.update q.origin i none }
  | crash {i : Nat} {w : World} (hstep : step cfg q.world (.crash i) = some w) :
      Queues cfg q (.act (.crash i)) { q with world := w, since := some (q.since.getD 0) }
  | pod {p : Nat} {w : World} (hstep : step cfg q.world (.pod p) = some w) :
      Queues cfg q (.act (.pod p)) (q.afterPod p w)
  | plain {a : Action} {w : World} (ha : a.isPlain) (hstep : step cfg q.world a = some w) :
      Queues cfg q (.act a) { q with world := w }
  | lapse : Queues cfg q .lapse { q with world := { q.world with lock := none } }

theorem queueStep_queues {cfg : Config} {q q' : Queued} {a : QueueAction}
    (h : queueStep cfg q a = some q') : Queues cfg q a q' := by
  cases a with
  | takeRecovery i k =>
    simp only [queueStep] at h
    split at h
    · rename_i call w hcall hstep
      cases h
      exact .takeRecovery hcall hstep
    · cases h
  | lapse =>
    simp only [queueStep] at h
    split at h <;> cases h
    exact .lapse
  | act a =>
    cases a with
    | take i =>
      simp only [queueStep] at h
      split at h
      · split at h <;> cases h
        exact .take ‹_›
      · cases h
    | crash i =>
      simp only [queueStep] at h
      split at h <;> cases h
      exact .crash ‹_›
    | pod p =>
      simp only [queueStep] at h
      split at h <;> cases h
      exact .pod ‹_›
    | _ =>
      simp only [queueStep] at h
      split at h <;> cases h
      exact .plain rfl ‹_›

/-! ## The lock among pods -/

theorem podHolding_eq_some {w : World} {p : Nat} :
    w.podHolding = some p ↔ w.lock = some (.pod p) := by
  unfold World.podHolding
  split <;> simp_all

/-- A pod inside `try_recover` holds the lock. -/
def PodsLocked (w : World) : Prop := ∀ p, (w.pods p).inside → w.lock = some (.pod p)

/-- The actions that are not a pod's and not the expiry of the lock. -/
def Action.sparesPods : Action → Bool
  | .scan _ | .pod _ | .podCrash _ | .expire => false
  | _ => true

theorem ran_pods {cfg : Config} {w w' : World} {i : Nat} (h : Ran cfg w i w') :
    w'.pods = w.pods ∧ ∀ p, w'.lock = some (.pod p) ↔ w.lock = some (.pod p) := by
  cases h with
  | acquired hpc hlock => exact ⟨rfl, fun p => by simp [hlock]⟩
  | release hpc =>
    refine ⟨rfl, fun p => ?_⟩
    by_cases hown : w.lock = some (.worker i) <;> simp [hown]
  | _ => exact ⟨rfl, fun p => Iff.rfl⟩

theorem step_pods {cfg : Config} {w w' : World} {a : Action} (ha : a.sparesPods)
    (h : step cfg w a = some w') :
    w'.pods = w.pods ∧ ∀ p, w'.lock = some (.pod p) ↔ w.lock = some (.pod p) := by
  have hmoved := step_moved h
  cases a with
  | redeliver | tick =>
    cases h
    exact ⟨rfl, fun p => Iff.rfl⟩
  | scan | pod | podCrash | expire => cases ha
  | run =>
    cases hmoved with
    | run h => exact ran_pods h
    | bystander hnone _ => cases hnone
  | _ =>
    cases hmoved with
    | bystander hnone _ => cases hnone
    | _ => exact ⟨rfl, fun p => Iff.rfl⟩

/-- A step that puts no pod into `try_recover` and hands the lock to none. -/
structure PodsRest (w w' : World) : Prop where
  pods : ∀ p, (w'.pods p).inside → w'.pods p = w.pods p
  lock : ∀ p, w'.lock = some (.pod p) → w.lock = some (.pod p)
  locked : PodsLocked w → PodsLocked w'

theorem PodsRest.of_eq {w w' : World} (hpods : w'.pods = w.pods)
    (hlock : ∀ p, w'.lock = some (.pod p) ↔ w.lock = some (.pod p)) : PodsRest w w' := by
  refine ⟨fun p _ => by rw [hpods], fun p => (hlock p).mp, fun hI p hp => ?_⟩
  rw [hpods] at hp
  exact (hlock p).mpr (hI p hp)

/-- A pod that is set somewhere outside `try_recover`. -/
theorem PodsRest.setPod {w : World} {p : Nat} {x : Pod} (henqueue : x ≠ .enqueue)
    (hrelease : x ≠ .release) : PodsRest w (w.setPod p x) := by
  have hother : ∀ p', ((w.setPod p x).pods p').inside → p' ≠ p := by
    rintro p' hp' rfl
    simp [Pod.inside, henqueue, hrelease] at hp'
  refine ⟨fun p' hp' => by simp [hother p' hp'], fun p' => id, fun hI p' hp' => ?_⟩
  exact hI p' (by simpa [hother p' hp'] using hp')

/-- A key that lapses under none of the pods. -/
theorem PodsRest.lapse {w : World} (h : ∀ p ∈ w.podHolding, ¬ (w.pods p).inside) :
    PodsRest w { w with lock := none } := by
  refine ⟨fun p _ => rfl, by simp, fun hI p hp => ?_⟩
  exact absurd hp (h p (podHolding_eq_some.mpr (hI p hp)))

/-- A scan finds a pod idle, a dead pod leaves the lock to its TTL, and a key expires when
its holder is gone. -/
theorem step_podsRest {cfg : Config} {w w' : World} {a : Action} (ha : ∀ p, a ≠ .pod p)
    (h : step cfg w a = some w') : PodsRest w w' := by
  by_cases hspares : a.sparesPods
  · obtain ⟨hpods, hlock⟩ := step_pods hspares h
    exact .of_eq hpods hlock
  · cases a with
    | scan p =>
      simp only [step, scanPod] at h
      split at h
      · split at h <;> cases h
        · exact .setPod (by decide) (by decide)
        · exact .of_eq rfl fun p => Iff.rfl
      · cases h
    | podCrash p =>
      simp only [step, crashPod] at h
      split at h <;> cases h
      exact .setPod (by decide) (by decide)
    | expire =>
      simp only [step, expireLock] at h
      split at h
      · rename_i holder hlock
        split at h
        · cases h
        · rename_i hgone
          cases h
          refine .lapse fun p hp hinside => hgone ?_
          cases hlock.symm.trans (podHolding_eq_some.mp hp)
          simpa [holderInside, Pod.inside] using hinside
      · cases h
    | pod p => exact absurd rfl (ha p)
    | _ => exact absurd rfl hspares

/-! ## The invariant -/

/-- Call numbers are fresh, nobody runs a task of a call that holds the lock, and one task
at most is waiting or about to be enqueued since a crash. -/
structure Sole (q : Queued) : Prop where
  locked : PodsLocked q.world
  waiting : ∀ c ∈ q.recovery, c ≤ q.tries
  running : ∀ i c, q.origin i = some c → c ≤ q.tries
  trial : ∀ p, q.trial p ≤ q.tries
  apart : ∀ i c p, q.origin i = some c → q.world.lock = some (.pod p) → c ≠ q.trial p
  since : ∀ n ∈ q.since, n ≤ 1 ∧ ∀ p, q.world.pods p = .enqueue → n = 0

/-- The tasks stay as they are and the pods rest. -/
theorem Sole.rest {q : Queued} {w : World} {since : Option Nat} (hI : Sole q)
    (hrest : PodsRest q.world w)
    (hsince : ∀ n ∈ since, n = 0 ∨ n ∈ q.since) :
    Sole { q with world := w, since := since } := by
  refine ⟨hrest.locked hI.locked, hI.waiting, hI.running, hI.trial, ?_, ?_⟩
  · exact fun i c p hc hp => hI.apart i c p hc (hrest.lock p hp)
  · intro n hn
    rcases hsince n hn with rfl | hold
    · exact ⟨Nat.zero_le 1, fun _ _ => rfl⟩
    · obtain ⟨hle, henqueue⟩ := hI.since n hold
      exact ⟨hle, fun p hp => henqueue p (by rw [← hrest.pods p (.inl hp), hp])⟩

/-- A worker's pick-up. -/
theorem Sole.take {q : Queued} {w : World} {i : Nat} {recovery : List Nat} {task since : Option Nat}
    (hI : Sole q) (hrest : PodsRest q.world w) (hrecovery : ∀ c ∈ recovery, c ∈ q.recovery)
    (htask : ∀ c ∈ task, c ≤ q.tries ∧ ∀ p, q.world.lock = some (.pod p) → c ≠ q.trial p)
    (hsince : ∀ n ∈ since, n ∈ q.since) :
    Sole { q with
      world := w
      recovery := recovery
      origin := Function.update q.origin i task
      since := since } := by
  have hrunning : ∀ j c, Function.update q.origin i task j = some c →
      c ≤ q.tries ∧ ∀ p, q.world.lock = some (.pod p) → c ≠ q.trial p := by
    intro j c hc
    by_cases hj : j = i
    · subst hj
      rw [Function.update_self] at hc
      exact htask c hc
    · rw [Function.update_of_ne hj] at hc
      exact ⟨hI.running j c hc, fun p => hI.apart j c p hc⟩
  refine ⟨hrest.locked hI.locked, fun c hc => hI.waiting c (hrecovery c hc), ?_, hI.trial, ?_, ?_⟩
  · exact fun j c hc => (hrunning j c hc).1
  · exact fun j c p hc hp => (hrunning j c hc).2 p (hrest.lock p hp)
  · intro n hn
    obtain ⟨hle, henqueue⟩ := hI.since n (hsince n hn)
    exact ⟨hle, fun p hp => henqueue p (by rw [← hrest.pods p (.inl hp), hp])⟩

/-- Two pods inside `try_recover` are one. -/
theorem PodsLocked.unique {w : World} (hI : PodsLocked w) {p p' : Nat}
    (hp : (w.pods p).inside) (hp' : (w.pods p').inside) : p = p' := by
  have hlock := (hI p hp).symm.trans (hI p' hp')
  simpa using hlock

theorem Sole.acquire {q : Queued} {p : Nat} (hI : Sole q) (hfree : q.world.lock = none)
    (hsince : ∀ n ∈ q.since, n = 0) :
    Sole { q with
      world := { q.world.setPod p .enqueue with lock := some (.pod p) }
      tries := q.tries + 1
      trial := Function.update q.trial p (q.tries + 1) } := by
  refine ⟨fun p' hp' => ?_, fun c hc => ?_, fun i c hc => ?_, fun p' => ?_, ?_, fun n hn => ?_⟩
  · by_cases hpp : p' = p
    · rw [hpp]
    · have hheld := hI.locked p' (by simpa [hpp] using hp')
      rw [hfree] at hheld
      cases hheld
  · exact Nat.le_succ_of_le (hI.waiting c hc)
  · exact Nat.le_succ_of_le (hI.running i c hc)
  · by_cases hpp : p' = p
    · simp [hpp]
    · simpa [hpp] using Nat.le_succ_of_le (hI.trial p')
  · -- The call's number is new.
    intro i c p' hc hp'
    have hle := hI.running i c hc
    obtain rfl : p = p' := by simpa using hp'
    simp only [Function.update_self]
    omega
  · obtain rfl := hsince n hn
    exact ⟨Nat.zero_le 1, fun _ _ => rfl⟩

theorem Sole.enqueue {q : Queued} {p : Nat} (hI : Sole q) (hp : q.world.pods p = .enqueue) :
    Sole { q with
      world := World.setPod { q.world with tasks := q.world.tasks + 1 } p .release
      recovery := q.recovery ++ [q.trial p]
      since := q.since.map (· + 1) } := by
  refine ⟨fun p' hp' => ?_, fun c hc => ?_, hI.running, hI.trial, hI.apart, fun n hn => ?_⟩
  · by_cases hpp : p' = p
    · rw [hpp]
      exact hI.locked p (.inl hp)
    · exact hI.locked p' (by simpa [hpp] using hp')
  · rcases List.mem_append.mp hc with hold | hnew
    · exact hI.waiting c hold
    · obtain rfl : c = q.trial p := by simpa using hnew
      exact hI.trial p
  · obtain ⟨m, hm, rfl⟩ := Option.mem_map.mp hn
    obtain rfl := (hI.since m hm).2 p hp
    refine ⟨le_rfl, fun p' hp' => ?_⟩
    by_cases hpp : p' = p
    · simp [hpp] at hp'
    · exact absurd (hI.locked.unique (.inl (by simpa [hpp] using hp')) (.inl hp)) hpp

theorem Sole.pod {cfg : Config} {q : Queued} {p : Nat} {w : World} (hI : Sole q)
    (hG : Orderly q (.act (.pod p))) (h : step cfg q.world (.pod p) = some w) :
    Sole (q.afterPod p w) := by
  simp only [step] at h
  cases hp : q.world.pods p <;> simp only [runPod, hp] at h <;>
    simp only [Queued.afterPod, hp]
  case idle => cases h
  case stale =>
    cases hlock : q.world.lock with
    | none =>
      rw [hlock] at h
      cases h
      rw [if_pos rfl]
      exact hI.acquire hlock (hG ⟨hp, hlock⟩)
    | some holder =>
      rw [hlock] at h
      cases h
      rw [if_neg (by simp)]
      exact hI.rest (.setPod (by decide) (by decide)) fun n hn => .inr hn
  case enqueue =>
    cases h
    exact hI.enqueue hp
  case release =>
    cases h
    have hheld := hI.locked p (.inr hp)
    refine hI.rest ⟨(PodsRest.setPod (by decide) (by decide)).pods, ?_, fun hlocked p' hp' => ?_⟩
      fun n hn => .inr hn
    · simp [hheld]
    · by_cases hpp : p' = p
      · simp [hpp, Pod.inside] at hp'
      · exact absurd (hlocked.unique (by simpa [hpp] using hp') (.inr hp)) hpp

theorem sole_step {cfg : Config} {q q' : Queued} {a : QueueAction} (hI : Sole q)
    (hG : Orderly q a) (h : queueStep cfg q a = some q') : Sole q' := by
  cases queueStep_queues h with
  | @takeRecovery i k call w hcall hstep =>
    refine hI.take (step_podsRest (by simp) hstep) (fun c => List.mem_of_mem_eraseIdx) ?_ (by simp)
    intro c hc
    obtain rfl : call = c := by simpa using hc
    refine ⟨hI.waiting call (List.mem_of_getElem? hcall), fun p hp heq => ?_⟩
    refine hG (q.trial p) ?_ (by rw [hcall, heq])
    exact Option.mem_map_of_mem _ (podHolding_eq_some.mpr hp)
  | take hstep =>
    exact hI.take (step_podsRest (by simp) hstep) (fun c hc => hc) (by simp) fun n hn => hn
  | crash hstep =>
    refine hI.rest (step_podsRest (by simp) hstep) fun n hn => ?_
    cases hs : q.since with
    | none =>
      rw [hs] at hn
      exact .inl (by simpa using hn.symm)
    | some m =>
      rw [hs] at hn
      exact .inr (by simpa using hn)
  | pod hstep => exact hI.pod hG hstep
  | plain ha hstep =>
    refine hI.rest (step_podsRest ?_ hstep) fun n hn => .inr hn
    rintro p rfl
    cases ha
  | lapse => exact hI.rest (.lapse hG) fun n hn => .inr hn

theorem Sole.not_dropped {q : Queued} (hI : Sole q) (a : QueueAction) : ¬ Dropped q a := by
  intro h
  cases a with
  | act a =>
    cases a with
    | run i =>
      obtain ⟨-, call, hholding, horigin⟩ := h
      obtain ⟨p, hp, hcall⟩ := Option.mem_map.mp hholding
      exact hI.apart i call p horigin (podHolding_eq_some.mp hp) hcall.symm
    | _ => exact h
  | takeRecovery | lapse => exact h

theorem sole_initial (inputs : List (String × Json)) : Sole (Queued.initial inputs) := by
  refine ⟨?_, ?_, ?_, ?_, ?_, ?_⟩ <;>
    simp [Queued.initial, World.initial, PodsLocked, Pod.inside]

/-- When pods and workers keep to this order and no pod loses the lock inside `try_recover`,
no second task is enqueued before the first is picked up, and no recovery task is refused
the lock by the call that enqueued it. -/
theorem recovery_tasks_kept (cfg : Config) (inputs : List (String × Json))
    (as : List QueueAction)
    (hG : Along (queueStep cfg) (fun q a _ => Orderly q a) (Queued.initial inputs) as) :
    Along (queueStep cfg) (fun q a q' => NoDuplicate q' ∧ ¬ Dropped q a)
      (Queued.initial inputs) as := by
  refine along_of_invariant (I := Sole) (G := Orderly) (fun _ _ _ hI hG h => sole_step hI hG h) ?_
    (sole_initial inputs) hG
  exact fun q a q' hI hG h =>
    ⟨fun n hn => ((sole_step hI hG h).since n hn).1, hI.not_dropped a⟩

/-! ## Two pods, and a worker that is too early -/

/-- The worker dies behind its first commit, its lock expires and its heartbeat goes
stale. -/
def untilStale : List Action :=
  untilCrash ++ .crash 0 :: .expire :: List.replicate 301 .tick

/-- What the pods do next. -/
def crashedThen (as : List Action) : List QueueAction := (untilStale ++ as).map .act

/-- Both pods have read the stale row; the second one takes the lock that the first one
has released behind its enqueue. -/
def twoPods : List QueueAction :=
  crashedThen [.scan 0, .scan 1, .pod 0, .pod 0, .pod 0, .pod 1, .pod 1]

/-- A worker picks up the task and asks for the lock while the pod is still inside
`acquire`. -/
def earlyPickUp : List QueueAction :=
  crashedThen [.scan 0, .pod 0, .pod 0] ++
    [.takeRecovery 1 0, .act (.run 1), .act (.run 1)]

/-- The first pod's key lapses before it has enqueued; the second one takes it with no task
waiting, and both enqueue. -/
def starvedHeartbeat : List QueueAction :=
  crashedThen [.scan 0, .scan 1, .pod 0] ++
    [.lapse, .act (.pod 1), .act (.pod 0), .act (.pod 1)]

theorem recovery_duplicates_and_drops :
    (∀ as ∈ [twoPods, starvedHeartbeat],
      ¬ Along (queueStep oneStep) (fun _ _ q' => NoDuplicate q') (Queued.initial []) as ∧
      ∃ q, run (queueStep oneStep) (Queued.initial []) as = some q ∧ q.since = some 2 ∧
        q.recovery = [1, 2]) ∧
    ¬ Along (queueStep oneStep) (fun q a _ => ¬ Dropped q a) (Queued.initial []) earlyPickUp ∧
      ∃ q, run (queueStep oneStep) (Queued.initial []) earlyPickUp = some q ∧
        (q.world.workers 1).pc = .close .returned ∧ q.recovery = [] := by
  refine ⟨?_, by decide +kernel, exists_of_any (by decide +kernel)⟩
  simp only [List.forall_mem_cons]
  refine ⟨⟨by decide +kernel, ?_⟩, ⟨by decide +kernel, ?_⟩, List.forall_mem_nil _⟩
  · exact exists_of_any (by decide +kernel)
  · exact exists_of_any (by decide +kernel)

/-- The pod is done before the worker picks up its task. -/
def recoveredOnce : List QueueAction :=
  crashedThen [.scan 0, .scan 1, .pod 0, .pod 1, .pod 0, .pod 0] ++
    [.takeRecovery 1 0, .act (.run 1), .act (.run 1)]

theorem recovery_tasks_kept_once :
    (∃ q, run (queueStep oneStep) (Queued.initial []) recoveredOnce = some q ∧
      (q.world.workers 1).pc = .setup) ∧
    Along (queueStep oneStep) (fun q a q' => NoDuplicate q' ∧ ¬ Dropped q a)
      (Queued.initial []) recoveredOnce := by
  refine ⟨exists_of_any (by decide +kernel), ?_⟩
  exact recovery_tasks_kept oneStep [] _ (by decide +kernel)

end Sutram.Workflow
