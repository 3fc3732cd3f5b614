/-
The fixed-window rate limiter.

One counter in Redis for each tenant and each clock-aligned window of a minute.  The
script counts and sets the TTL in one step; the TTL runs from the first call of the
window, so the counter outlives its window whenever in it the first call has come.
-/
import Mathlib.Algebra.Order.Floor.Semiring
import Mathlib.Data.NNRat.Floor
import Mathlib.Data.List.Basic
import Mathlib.Order.WithBot
import Sutram.Library.ExpiringKey
import Sutram.Library.Quota
import Sutram.Library.Runs

namespace Sutram.Core

open Runs
open scoped NNRat

/-- What `check` raises. -/
structure RateLimitExceeded where
  tenantId : String
  limit : Nat
deriving DecidableEq, Repr

def RateLimitExceeded.message (e : RateLimitExceeded) : String :=
  "Rate limit of " ++ toString e.limit ++ " req/min exceeded for tenant " ++ e.tenantId

/-- A counter, and when it is gone; `⊤` is a key without a TTL. -/
abbrev Counter := Option (Expiring (WithTop ℚ≥0) Nat)

abbrev Redis := String → Counter

/-- `_INCR_WITH_TTL_SCRIPT` on its key: the count returned and the counter left. -/
def incrWithTtlScript (key : Counter) (now ttl : ℚ≥0) : Nat × Counter :=
  let counter := Expiring.incr key (now : WithTop ℚ≥0)
  let count := counter.value
  (count, if count = 1 then Expiring.expire (some counter) now ((now + ttl : ℚ≥0) : WithTop ℚ≥0)
    else some counter)

namespace RateLimiter

def windowSeconds : Nat := 60

def ttlSeconds : ℚ≥0 := 120

/-- `int(time.time()) // _WINDOW_SECONDS` -/
def window (now : ℚ≥0) : Nat := ⌊now⌋₊ / windowSeconds

def key (tenantId : String) (window : Nat) : String :=
  "rate:" ++ tenantId ++ ":" ++ toString window

def check (requestsPerMinute : Nat) (redis : Redis) (now : ℚ≥0) (tenantId : String) :
    Except RateLimitExceeded Unit × Redis :=
  let key := key tenantId (window now)
  let (count, counter) := incrWithTtlScript (redis key) now ttlSeconds
  (if requestsPerMinute < count then .error ⟨tenantId, requestsPerMinute⟩ else .ok (),
    Function.update redis key counter)

/-! ## The pods -/

structure Call where
  tenantId : String
  time : ℚ≥0
deriving DecidableEq

/-- What a call counts towards: its tenant's requests of its window. -/
def Call.slot (c : Call) : String × Nat := (c.tenantId, window c.time)

/-- Redis and the clock it shares with the pods, and the calls there have been, each with
whether it was admitted. -/
structure World where
  redis : Redis := fun _ => none
  clock : ℚ≥0
  answers : List (Call × Bool) := []

inductive Action where
  | wait (d : ℚ≥0)
  | check (pod : Nat) (tenantId : String)
  /-- Redis removes a key whose TTL has passed; a reader misses nothing by it. -/
  | evict (key : String)
deriving DecidableEq

/-- The pods hold nothing between two calls. -/
def step (limit : Nat) (w : World) : Action → Option World
  | .wait d => some { w with clock := w.clock + d }
  | .check _ tenantId =>
    let (result, redis) := check limit w.redis w.clock tenantId
    some { w with
      redis := redis
      answers := w.answers ++ [(⟨tenantId, w.clock⟩, result.isOk)] }
  | .evict key =>
    if Expiring.get (w.redis key) w.clock = none then
      some { w with redis := Function.update w.redis key none }
    else some w

/-- The actions of a run in which one tenant is alone. -/
def Action.concerns (tenantId : String) : Action → Bool
  | .check _ t => t = tenantId
  | _ => true

/-! ## Keys -/

/-- What stands behind the last separator can be read off a text. -/
theorem split_last {c : Char} {xs ys zs ws : List Char} (hz : c ∉ zs) (hw : c ∉ ws)
    (h : xs ++ c :: zs = ys ++ c :: ws) : xs = ys ∧ zs = ws := by
  rcases List.append_eq_append_iff.mp h with ⟨m, rfl, hm⟩ | ⟨m, rfl, hm⟩
  · cases m with
    | nil => simpa using hm
    | cons d m =>
      obtain ⟨rfl, rfl⟩ : c = d ∧ zs = m ++ c :: ws := by simpa using hm
      exact absurd (by simp) hz
  · cases m with
    | nil => simpa [eq_comm] using hm
    | cons d m =>
      obtain ⟨rfl, rfl⟩ : c = d ∧ ws = m ++ c :: zs := by simpa using hm
      exact absurd (by simp) hw

theorem colon_not_mem_toString (n : Nat) : ':' ∉ (toString n).toList := by
  intro h
  have hdigit : Char.isDigit ':' :=
    Nat.isDigit_of_mem_toDigits (by omega) (by omega) (Nat.toList_repr ▸ h)
  exact absurd hdigit (by decide)

/-- Each slot has a key of its own, whatever the tenant ids contain. -/
theorem key_injective {t t' : String} {n n' : Nat} (h : key t n = key t' n') :
    t = t' ∧ n = n' := by
  have hlist := congrArg String.toList h
  simp only [key, String.toList_append, List.append_assoc] at hlist
  have hcons : t.toList ++ ':' :: (toString n).toList = t'.toList ++ ':' :: (toString n').toList :=
    List.append_cancel_left hlist
  obtain ⟨ht, hn⟩ := split_last (colon_not_mem_toString n) (colon_not_mem_toString n') hcons
  refine ⟨String.toList_inj.mp ht, ?_⟩
  have hdigits : Nat.toDigits 10 n = Nat.toDigits 10 n' :=
    Nat.toList_repr.symm.trans (hn.trans Nat.toList_repr)
  have hvalue := congrArg (fun ds => Nat.ofDigitChars 10 ds 0) hdigits
  simpa using hvalue

/-! ## Windows -/

/-- The time at which a window is over. -/
def windowEnd (n : Nat) : ℚ≥0 := ((windowSeconds * (n + 1) : Nat) : ℚ≥0)

theorem lt_windowEnd (now : ℚ≥0) : now < windowEnd (window now) := by
  have hfloor : ⌊now⌋₊ < windowSeconds * (window now + 1) := by
    unfold window windowSeconds
    omega
  exact (Nat.floor_lt' (by unfold windowSeconds; omega)).mp hfloor

theorem windowEnd_le (now : ℚ≥0) : windowEnd (window now) ≤ now + ttlSeconds := by
  have hfloor : windowSeconds * (window now + 1) ≤ ⌊now⌋₊ + 120 := by
    unfold window windowSeconds
    omega
  calc windowEnd (window now) ≤ ((⌊now⌋₊ + 120 : Nat) : ℚ≥0) := Nat.cast_le.mpr hfloor
    _ = (⌊now⌋₊ : ℚ≥0) + ttlSeconds := by push_cast; rfl
    _ ≤ now + ttlSeconds := by gcongr; exact Nat.floor_le zero_le

/-- Sixty seconds meet two windows at most. -/
theorem window_of_within {a now : ℚ≥0} (h : a ≤ now) (h' : now ≤ a + 60) :
    window now = window a ∨ window now = window a + 1 := by
  have hlow : ⌊a⌋₊ ≤ ⌊now⌋₊ := Nat.floor_le_floor h
  have hhigh : ⌊now⌋₊ ≤ ⌊a⌋₊ + 60 := by
    have := Nat.floor_le_floor h'
    rwa [Nat.floor_add_ofNat zero_le] at this
  unfold window windowSeconds
  omega

/-! ## The counters -/

/-- The counters against the calls there have been.  `counted` speaks of the windows that
are not over: the key of an earlier one may be gone. -/
structure Counted (limit : Nat) (w : World) : Prop where
  decided : w.answers = Quota.decisions Call.slot limit (w.answers.map Prod.fst)
  counted : ∀ tenantId n, w.clock < windowEnd n →
    let k := Quota.asked Call.slot (tenantId, n) (w.answers.map Prod.fst)
    (w.redis (key tenantId n)).map Expiring.value = if k = 0 then none else some k
  outlives : ∀ tenantId n e, w.redis (key tenantId n) = some e →
    (windowEnd n : WithTop ℚ≥0) ≤ e.expiry

theorem counted_initial (limit : Nat) (clock : ℚ≥0) : Counted limit { clock := clock } :=
  ⟨rfl, fun _ _ _ => rfl, fun _ _ _ h => by cases h⟩

/-- The counter of a window that is not over has its TTL before it. -/
theorem Counted.live {limit : Nat} {w : World} (hI : Counted limit w) {tenantId : String}
    {n : Nat} (hn : w.clock < windowEnd n) {e : Expiring (WithTop ℚ≥0) Nat}
    (he : w.redis (key tenantId n) = some e) : (w.clock : WithTop ℚ≥0) < e.expiry :=
  lt_of_lt_of_le (WithTop.coe_lt_coe.mpr hn) (hI.outlives tenantId n e he)

/-- What a reader finds at the key of a window that is not over. -/
theorem get_of_counted {limit : Nat} {w : World} (hI : Counted limit w) (tenantId : String)
    {n : Nat} (hn : w.clock < windowEnd n) :
    let k := Quota.asked Call.slot (tenantId, n) (w.answers.map Prod.fst)
    Expiring.get (w.redis (key tenantId n)) w.clock = if k = 0 then none else some k := by
  intro k
  have hcount := hI.counted tenantId n hn
  cases he : w.redis (key tenantId n) with
  | none => simpa [he, Expiring.get] using hcount
  | some e =>
    rw [Expiring.get_of_lt (hI.live hn he)]
    simpa [he] using hcount

/-- What the script returns and leaves, on the counter of the current window. -/
theorem script_of_counted {counter : Counter} {now : ℚ≥0} {k : Nat}
    (hcount : counter.map Expiring.value = if k = 0 then none else some k)
    (hlive : ∀ e, counter = some e → (now : WithTop ℚ≥0) < e.expiry) :
    ∃ expiry, incrWithTtlScript counter now ttlSeconds = (k + 1, some ⟨k + 1, expiry⟩) ∧
      (k = 0 ∧ expiry = ((now + ttlSeconds : ℚ≥0) : WithTop ℚ≥0) ∨
        ∃ e, counter = some e ∧ expiry = e.expiry) := by
  by_cases hk : k = 0
  · subst hk
    obtain rfl : counter = none := by simpa using hcount
    refine ⟨_, ?_, .inl ⟨rfl, rfl⟩⟩
    simp [incrWithTtlScript, Expiring.incr, Expiring.expire, Expiring.get]
  · rw [if_neg hk] at hcount
    obtain ⟨e, rfl, hvalue⟩ := Option.map_eq_some_iff.mp hcount
    refine ⟨e.expiry, ?_, .inr ⟨e, rfl, rfl⟩⟩
    simp [incrWithTtlScript, Expiring.incr_of_lt (hlive e rfl), hvalue, hk]

/-- A call is the next of its slot, and its counter outlives the window. -/
theorem check_of_counted {limit : Nat} {w : World} (hI : Counted limit w) (tenantId : String) :
    ∃ expiry, (windowEnd (window w.clock) : WithTop ℚ≥0) ≤ expiry ∧
      let k := Quota.asked Call.slot (tenantId, window w.clock) (w.answers.map Prod.fst)
      check limit w.redis w.clock tenantId =
        (if limit < k + 1 then .error ⟨tenantId, limit⟩ else .ok (),
          Function.update w.redis (key tenantId (window w.clock)) (some ⟨k + 1, expiry⟩)) := by
  have hnow := lt_windowEnd w.clock
  obtain ⟨expiry, hscript, hexpiry⟩ :=
    script_of_counted (hI.counted tenantId (window w.clock) hnow) fun e he => hI.live hnow he
  refine ⟨expiry, ?_, by simp [check, hscript]⟩
  rcases hexpiry with ⟨-, rfl⟩ | ⟨e, he, rfl⟩
  · exact WithTop.coe_le_coe.mpr (windowEnd_le w.clock)
  · exact hI.outlives tenantId _ e he

theorem counted_check {limit : Nat} {w w' : World} {pod : Nat} {tenantId : String}
    (hI : Counted limit w) (h : step limit w (.check pod tenantId) = some w') :
    Counted limit w' := by
  obtain ⟨expiry, houtlives, hcheck⟩ := check_of_counted hI tenantId
  have hdecided := hI.decided
  simp only [step, hcheck, Option.some.injEq] at h
  subst h
  have hslot : Call.slot ⟨tenantId, w.clock⟩ = (tenantId, window w.clock) := rfl
  generalize hcalls : w.answers.map Prod.fst = calls at hdecided
  refine ⟨?_, fun t n hn => ?_, fun t n e he => ?_⟩
  · simp only [List.map_append, List.map_singleton, hcalls]
    rw [Quota.decisions_concat, ← hdecided, hslot]
    split <;> rename_i hlimit
    · simp [Except.isOk, Except.toBool]
      omega
    · simp [Except.isOk, Except.toBool]
      omega
  · have hcount := hI.counted t n hn
    simp only [List.map_append, List.map_singleton, hcalls, Quota.asked_concat, hslot] at hcount ⊢
    by_cases hsame : (tenantId, window w.clock) = (t, n)
    · cases hsame
      simp
    · have hkey : key t n ≠ key tenantId (window w.clock) := by
        intro heq
        obtain ⟨rfl, rfl⟩ := key_injective heq
        exact hsame rfl
      simpa [hkey, hsame] using hcount
  · by_cases hkey : key t n = key tenantId (window w.clock)
    · obtain ⟨rfl, rfl⟩ := key_injective hkey
      simp only [Function.update_self, Option.some.injEq] at he
      subst he
      exact houtlives
    · exact hI.outlives t n e (by simpa [hkey] using he)

theorem counted_step {limit : Nat} {w w' : World} {a : Action} (hI : Counted limit w)
    (h : step limit w a = some w') : Counted limit w' := by
  cases a with
  | wait d =>
    cases h
    exact ⟨hI.decided, fun t n hn => hI.counted t n (lt_of_le_of_lt le_self_add hn), hI.outlives⟩
  | check pod tenantId => exact counted_check hI h
  | evict k =>
    simp only [step] at h
    split at h <;> cases h
    · rename_i hgone
      refine ⟨hI.decided, fun t n hn => ?_, fun t n e he => ?_⟩
      · -- A reader finds nothing at the key, so there have been no calls of the slot.
        by_cases hkey : key t n = k
        · have hget := get_of_counted hI t hn
          rw [hkey, hgone] at hget
          simpa [hkey] using hget
        · simpa [hkey] using hI.counted t n hn
      · by_cases hkey : key t n = k
        · simp [hkey] at he
        · exact hI.outlives t n e (by simpa [hkey] using he)
    · exact hI

/-! ## The run -/

/-- The calls of a run, each at the time the clock shows by then. -/
def calls : ℚ≥0 → List Action → List Call
  | _, [] => []
  | clock, .wait d :: as => calls (clock + d) as
  | clock, .check _ tenantId :: as => ⟨tenantId, clock⟩ :: calls clock as
  | clock, .evict _ :: as => calls clock as

theorem step_calls (limit : Nat) (w : World) (a : Action) :
    ∃ w', step limit w a = some w' ∧
      ∀ as, w'.answers.map Prod.fst ++ calls w'.clock as =
        w.answers.map Prod.fst ++ calls w.clock (a :: as) := by
  cases a with
  | wait d => exact ⟨_, rfl, fun as => rfl⟩
  | check pod tenantId => exact ⟨_, rfl, fun as => by simp [calls]⟩
  | evict k =>
    simp only [step]
    split
    · exact ⟨_, rfl, fun as => rfl⟩
    · exact ⟨w, rfl, fun as => rfl⟩

/-- Every run goes on to its end and answers the calls as the quota of each slot does. -/
theorem run_decisions (limit : Nat) (start : ℚ≥0) (as : List Action) :
    ∃ w, run (step limit) { clock := start } as = some w ∧ Counted limit w ∧
      w.answers = Quota.decisions Call.slot limit (calls start as) := by
  have hrun : ∀ (as : List Action) (w : World), Counted limit w →
      ∃ u, run (step limit) w as = some u ∧ Counted limit u ∧
        u.answers.map Prod.fst = w.answers.map Prod.fst ++ calls w.clock as := by
    intro as
    induction as with
    | nil => exact fun w hI => ⟨w, rfl, hI, by simp [calls]⟩
    | cons a as ih =>
      intro w hI
      obtain ⟨w', hstep, hcalls⟩ := step_calls limit w a
      obtain ⟨u, hu, hIu, hall⟩ := ih w' (counted_step hI hstep)
      exact ⟨u, by rw [run_cons_some hstep, hu], hIu, by rw [hall, hcalls]⟩
  obtain ⟨w, hw, hI, hcalls⟩ := hrun as { clock := start } (counted_initial limit start)
  refine ⟨w, hw, hI, ?_⟩
  rw [hI.decided, hcalls]
  rfl

theorem calls_filter (clock : ℚ≥0) (tenantId : String) (as : List Action) :
    calls clock (as.filter (Action.concerns tenantId)) =
      (calls clock as).filter fun c => c.tenantId = tenantId := by
  induction as generalizing clock with
  | nil => rfl
  | cons a as ih =>
    cases a with
    | wait d =>
      rw [List.filter_cons_of_pos rfl]
      exact ih (clock + d)
    | evict k =>
      rw [List.filter_cons_of_pos rfl]
      exact ih clock
    | check pod t =>
      by_cases ht : t = tenantId
      · simp [calls, Action.concerns, ht, ih]
      · simp [calls, Action.concerns, ht, ih]

/-- Of the calls of one tenant in one window the first `limit` are admitted, and of those
within sixty seconds at most twice as many.  The calls of the others do not matter, and
until its window is over each counter is there with the calls there have been. -/
theorem fixed_window (limit : Nat) (start : ℚ≥0) (as : List Action) :
    ∃ w, run (step limit) { clock := start } as = some w ∧
      (∀ i, w.answers[i]? = (calls start as)[i]?.map fun c =>
        (c, decide (((calls start as).take i).countP
          (fun d => d.tenantId = c.tenantId ∧ window d.time = window c.time) < limit))) ∧
      (∀ tenantId a, (w.answers.countP fun e =>
        e.2 ∧ e.1.tenantId = tenantId ∧ a ≤ e.1.time ∧ e.1.time ≤ a + 60) ≤ 2 * limit) ∧
      (∀ tenantId, ∃ u,
        run (step limit) { clock := start } (as.filter (Action.concerns tenantId)) = some u ∧
          u.answers = w.answers.filter fun e => e.1.tenantId = tenantId) ∧
      ∀ tenantId n,
        (∀ e, w.redis (key tenantId n) = some e → (windowEnd n : WithTop ℚ≥0) ≤ e.expiry) ∧
        (w.clock < windowEnd n →
          let k := (calls start as).countP fun d => d.tenantId = tenantId ∧ window d.time = n
          Expiring.get (w.redis (key tenantId n)) w.clock = if k = 0 then none else some k) := by
  obtain ⟨w, hrun, hI, hdecisions⟩ := run_decisions limit start as
  have hslot (d : Call) (t : String) (n : Nat) :
      d.slot = (t, n) ↔ d.tenantId = t ∧ window d.time = n := Prod.mk.injEq _ _ _ _ ▸ Iff.rfl
  refine ⟨w, hrun, fun i => ?_, fun tenantId a => ?_, fun tenantId => ?_, fun tenantId n => ?_⟩
  · rw [hdecisions, Quota.decisions_getElem?]
    simp only [Quota.asked, Call.slot, Prod.mk.injEq]
  · rw [hdecisions]
    refine Quota.countP_le_two_classes (tenantId, window a) (tenantId, window a + 1) _
      fun e _ he => ?_
    obtain ⟨hgranted, htenant, hfrom, hto⟩ := he
    refine ⟨hgranted, ?_⟩
    rw [hslot, hslot]
    exact (window_of_within hfrom hto).imp (⟨htenant, ·⟩) (⟨htenant, ·⟩)
  · obtain ⟨u, hu, -, hfiltered⟩ := run_decisions limit start (as.filter (Action.concerns tenantId))
    refine ⟨u, hu, ?_⟩
    rw [hfiltered, calls_filter, hdecisions]
    refine (Quota.filter_decisions (p := fun c : Call => c.tenantId = tenantId)
      (fun c d hcd => ?_) _).symm
    rw [show c.tenantId = d.tenantId from congrArg Prod.fst hcd]
  · refine ⟨hI.outlives tenantId n, fun hn => ?_⟩
    have hget := get_of_counted hI tenantId hn
    rw [hdecisions, Quota.decisions_requests] at hget
    simpa only [Quota.asked, Call.slot, Prod.mk.injEq] using hget

/-- Two calls on either side of a boundary, a second after each other, with a limit of one. -/
example : (run (step 1) { clock := 59 } [.check 0 "a", .wait 1, .check 1 "a", .check 0 "a",
    .check 1 "a:0"]).map (fun w => w.answers.map Prod.snd) = some [true, true, false, true] := by
  decide +kernel

end RateLimiter

end Sutram.Core
