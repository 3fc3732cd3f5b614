/-
The Redis lock.

Every call of `acquire` on one key is a client with a token of its own, numbered in the
order of the calls.  A client sets the key, holds it with a heartbeat that reads the key
and then extends it, and ends by deleting the key if it still holds its token.  The
heartbeat's two commands are two actions, and an extension whose sender has meanwhile
left or died can still take effect.
-/
import Mathlib.Algebra.Order.Field.Rat
import Mathlib.Logic.Function.Basic
import Mathlib.Tactic.Linarith
import Mathlib.Tactic.Ring
import Sutram.Library.ExpiringKey
import Sutram.Library.Ghost

namespace Sutram.Core.RedisLock

open Runs

/-- Where a call of `acquire` is.  A granted client has set the key and waits for the
reply; a leaving one has stopped its heartbeat and still has to release. -/
inductive Phase where
  | granted | inside | leaving | gone
deriving DecidableEq, Repr

/-- The heartbeat task: asleep, between its GET and its EXPIRE, returned because the
token was not its own, or ended by an exception. -/
inductive Heartbeat where
  | asleep | sending | returned | failed
deriving DecidableEq, Repr

/-- `renewed` is the time at which the client's last SET or EXPIRE took effect, and
`stray` an EXPIRE that its heartbeat has sent and not lived to see answered. -/
structure Client where
  phase : Phase := .gone
  heartbeat : Heartbeat := .asleep
  renewed : ℚ := 0
  stray : Bool := false

structure State where
  now : ℚ := 0
  key : Option (Expiring ℚ Nat) := none
  calls : Nat := 0
  clients : Nat → Client := fun _ => {}

namespace State

def set (s : State) (c : Nat) (k : Client) : State :=
  { s with clients := Function.update s.clients c k }

/-- The token a command reads now. -/
def token (s : State) : Option Nat := Expiring.get s.key s.now

end State

/-- The pause between two renewals. -/
def interval (ttlSeconds : Nat) : ℚ := max (ttlSeconds / 2) 1

/-- A client that has the lock or is about to enter its body. -/
def Client.isLive (k : Client) : Bool := k.phase = .granted ∨ k.phase = .inside

/-- The client's heartbeat is cut off, with its EXPIRE perhaps under way. -/
def Client.cut (k : Client) (phase : Phase) : Client :=
  { k with phase, stray := k.stray || k.heartbeat = .sending }

inductive Action where
  /-- A call's SET NX EX takes effect. -/
  | acquire
  /-- The reply arrives and the body begins. -/
  | enter (c : Nat)
  | get (c : Nat)
  | expire (c : Nat)
  /-- The heartbeat's command raises. -/
  | heartbeatFails (c : Nat)
  /-- The body ends, normally or not. -/
  | leave (c : Nat)
  | release (c : Nat)
  | crash (c : Nat)
  | strayExpire (c : Nat)
  | wait (seconds : ℚ)
deriving DecidableEq

variable (ttlSeconds : Nat)

def acquire (s : State) : State :=
  match s.token with
  | some _ => { s with calls := s.calls + 1 }
  | none => { s.set s.calls { phase := .granted, renewed := s.now } with
      key := Expiring.setNX s.key s.now s.calls (s.now + ttlSeconds)
      calls := s.calls + 1 }

def enter (s : State) (c : Nat) : Option State :=
  let k := s.clients c
  if k.phase = .granted then some (s.set c { k with phase := .inside }) else none

/-- The heartbeat wakes no earlier than an interval after the last renewal. -/
def get (s : State) (c : Nat) : Option State :=
  let k := s.clients c
  if k.phase = .inside ∧ k.heartbeat = .asleep ∧ k.renewed + interval ttlSeconds ≤ s.now then
    some (s.set c { k with
      heartbeat := if s.token = some c then .sending else .returned })
  else none

/-- EXPIRE names the key and not the token. -/
def expire (s : State) (c : Nat) : Option State :=
  let k := s.clients c
  if k.phase = .inside ∧ k.heartbeat = .sending then
    some { s.set c { k with heartbeat := .asleep, renewed := s.now } with
      key := Expiring.expire s.key s.now (s.now + ttlSeconds) }
  else none

def heartbeatFails (s : State) (c : Nat) : Option State :=
  let k := s.clients c
  if k.phase = .inside ∧ (k.heartbeat = .asleep ∨ k.heartbeat = .sending) then
    some (s.set c { k.cut .inside with heartbeat := .failed })
  else none

/-- The exception of a failed heartbeat is raised again where it is awaited, before the
release. -/
def leave (s : State) (c : Nat) : Option State :=
  let k := s.clients c
  if k.phase = .inside then
    some (s.set c (k.cut (if k.heartbeat = .failed then .gone else .leaving)))
  else none

/-- The release script compares the token and deletes in one step. -/
def release (s : State) (c : Nat) : Option State :=
  let k := s.clients c
  if k.phase = .leaving then
    some { s.set c { k with phase := .gone } with key := Expiring.deleteIf s.key s.now c }
  else none

def crash (s : State) (c : Nat) : Option State :=
  let k := s.clients c
  if k.phase = .gone then none else some (s.set c (k.cut .gone))

def strayExpire (s : State) (c : Nat) : Option State :=
  let k := s.clients c
  if k.stray then
    some { s.set c { k with stray := false } with
      key := Expiring.expire s.key s.now (s.now + ttlSeconds) }
  else none

def step (s : State) : Action → Option State
  | .acquire => some (acquire ttlSeconds s)
  | .enter c => enter s c
  | .get c => get ttlSeconds s c
  | .expire c => expire ttlSeconds s c
  | .heartbeatFails c => heartbeatFails s c
  | .leave c => leave s c
  | .release c => release s c
  | .crash c => crash s c
  | .strayExpire c => strayExpire ttlSeconds s c
  | .wait seconds => if 0 < seconds then some { s with now := s.now + seconds } else none

/-! ## What the lock promises -/

/-- Each live holder's renewal takes effect less than half a TTL after it is due: the
time for it has not run out.  A renewal is due one interval after the holder's last SET or
EXPIRE took effect.  A client whose SET is granted and which is not inside yet counts as a
live holder. -/
def Punctual (s : State) : Prop :=
  ∀ c < s.calls, (s.clients c).isLive →
    s.now < (s.clients c).renewed + interval ttlSeconds + ttlSeconds / 2

instance (s : State) : Decidable (Punctual ttlSeconds s) :=
  inferInstanceAs (Decidable (∀ c < s.calls, _))

/-- The time of the last SET or EXPIRE that took effect on the key. -/
def noteTouch (s : State) (_ : Action) (s' : State) (touched : ℚ) : ℚ :=
  if s'.key ≠ s.key ∧ s'.key.isSome then s'.now else touched

def timedStep : Ghosted State ℚ → Action → Option (Ghosted State ℚ) :=
  ghostStep (step ttlSeconds) noteTouch

structure Safe (s : Ghosted State ℚ) : Prop where
  mutex : ∀ c d, (s.state.clients c).phase = .inside → (s.state.clients d).phase = .inside → c = d
  kept : ∀ c, (s.state.clients c).phase = .inside → s.state.token = some c
  freed : s.ghost + ttlSeconds ≤ s.state.now → s.state.token = none

/-! ## The invariant -/

variable {ttlSeconds}

/-- A live client's token is stored and outlives the time its renewal has. -/
structure Held (ttlSeconds : Nat) (s : Ghosted State ℚ) : Prop where
  unused : ∀ c, s.state.calls ≤ c → (s.state.clients c).isLive = false
  holder : ∀ c, (s.state.clients c).isLive → ∃ e, s.state.key = some e ∧ e.value = c ∧
    (s.state.clients c).renewed + ttlSeconds ≤ e.expiry
  renewed : ∀ c, (s.state.clients c).isLive → (s.state.clients c).renewed ≤ s.state.now
  time : ∀ c, (s.state.clients c).isLive →
    s.state.now < (s.state.clients c).renewed + ttlSeconds
  touched : ∀ e, s.state.key = some e → e.expiry ≤ s.ghost + ttlSeconds

theorem Held.token {s : Ghosted State ℚ} (hI : Held ttlSeconds s) {c : Nat}
    (hc : (s.state.clients c).isLive) : s.state.token = some c := by
  obtain ⟨e, hkey, hvalue, hexpiry⟩ := hI.holder c hc
  exact Expiring.get_eq_some.mpr ⟨e, hkey, hvalue, (hI.time c hc).trans_le hexpiry⟩

/-- Two live clients are one. -/
theorem Held.unique {s : Ghosted State ℚ} (hI : Held ttlSeconds s) {c d : Nat}
    (hc : (s.state.clients c).isLive) (hd : (s.state.clients d).isLive) : c = d := by
  have hsame := (hI.token hc).symm.trans (hI.token hd)
  simpa using hsame

theorem isLive_of_inside {k : Client} (h : k.phase = .inside) : k.isLive := by
  simp [Client.isLive, h]

theorem Held.safe {s : Ghosted State ℚ} (hI : Held ttlSeconds s) : Safe ttlSeconds s := by
  refine ⟨fun c d hc hd => ?_, fun c hc => hI.token (isLive_of_inside hc), fun hfree => ?_⟩
  · exact hI.unique (isLive_of_inside hc) (isLive_of_inside hd)
  · exact Expiring.get_of_le fun e he => (hI.touched e he).trans hfree

/-- With a TTL of two seconds or more the renewal is due after half of it, and has the
other half to take effect. -/
theorem interval_add {ttlSeconds : Nat} (h : 2 ≤ ttlSeconds) :
    interval ttlSeconds + ttlSeconds / 2 = ttlSeconds := by
  have hhalf : (1 : ℚ) ≤ ttlSeconds / 2 := by
    have hcast : (2 : ℚ) ≤ ttlSeconds := by exact_mod_cast h
    linarith
  rw [interval, max_eq_left hhalf]
  ring

/-! ## What one step does -/

/-- A client that moves had not left or has an EXPIRE under way, and none comes to life. -/
structure Client.Moves (k k' : Client) : Prop where
  active : k.phase ≠ .gone ∨ k.stray
  gone : k.phase = .gone → k'.phase = .gone
  live : k'.isLive → k.isLive

/-- The client of an action that leaves the key and the clock. -/
def Action.mover : Action → Option Nat
  | enter c | get c | heartbeatFails c | leave c | crash c => some c
  | _ => none

/-- The sender of an EXPIRE that takes effect. -/
def Action.expirer : Action → Option Nat
  | expire c | strayExpire c => some c
  | _ => none

theorem Client.Moves.of_inside {k k' : Client} (h : k.phase = .inside) : k.Moves k' :=
  ⟨.inl (by simp [h]), fun hgone => by simp [h] at hgone, fun _ => isLive_of_inside h⟩

theorem step_mover {s s' : State} {a : Action} {c : Nat} (h : step ttlSeconds s a = some s')
    (ha : a.mover = some c) :
    ∃ k, s' = s.set c k ∧ (s.clients c).Moves k ∧ k.renewed = (s.clients c).renewed := by
  cases a with
  | enter d =>
    cases ha
    simp only [step, enter] at h
    split at h
    · rename_i hgranted
      refine ⟨_, (Option.some.inj h).symm, ⟨.inl ?_, fun hgone => ?_, fun _ => ?_⟩, rfl⟩
      · simp [hgranted]
      · simp [hgranted] at hgone
      · simp [Client.isLive, hgranted]
    · cases h
  | get d =>
    cases ha
    simp only [step, get] at h
    split at h
    · rename_i hinside
      exact ⟨_, (Option.some.inj h).symm, .of_inside hinside.1, rfl⟩
    · cases h
  | heartbeatFails d =>
    cases ha
    simp only [step, heartbeatFails] at h
    split at h
    · rename_i hinside
      exact ⟨_, (Option.some.inj h).symm, .of_inside hinside.1, rfl⟩
    · cases h
  | leave d =>
    cases ha
    simp only [step, leave] at h
    split at h
    · rename_i hinside
      exact ⟨_, (Option.some.inj h).symm, .of_inside hinside, rfl⟩
    · cases h
  | crash d =>
    cases ha
    simp only [step, crash] at h
    split at h
    · cases h
    · rename_i halive
      refine ⟨_, (Option.some.inj h).symm, ⟨.inl halive, fun _ => rfl, fun hk => ?_⟩, rfl⟩
      simp [Client.cut, Client.isLive] at hk
  | _ => cases ha

theorem step_expirer {s s' : State} {a : Action} {c : Nat} (h : step ttlSeconds s a = some s')
    (ha : a.expirer = some c) :
    ∃ k, s' = { s.set c k with key := Expiring.expire s.key s.now (s.now + ttlSeconds) } ∧
      (s.clients c).Moves k ∧ (k.renewed = (s.clients c).renewed ∨ k.renewed = s.now) := by
  cases a with
  | expire d =>
    cases ha
    simp only [step, expire] at h
    split at h
    · rename_i hinside
      exact ⟨_, (Option.some.inj h).symm, .of_inside hinside.1, .inr rfl⟩
    · cases h
  | strayExpire d =>
    cases ha
    simp only [step, strayExpire] at h
    split at h
    · rename_i hstray
      exact ⟨_, (Option.some.inj h).symm, ⟨.inr hstray, id, id⟩, .inl rfl⟩
    · cases h
  | _ => cases ha

theorem release_eq_some {s s' : State} {c : Nat} (h : release s c = some s') :
    (s.clients c).phase = .leaving ∧
      s' = { s.set c { s.clients c with phase := .gone } with
        key := Expiring.deleteIf s.key s.now c } := by
  simp only [release] at h
  split at h
  · exact ⟨‹_›, (Option.some.inj h).symm⟩
  · cases h

theorem step_wait {s s' : State} {seconds : ℚ}
    (h : step ttlSeconds s (.wait seconds) = some s') :
    0 < seconds ∧ s' = { s with now := s.now + seconds } := by
  simp only [step] at h
  split at h
  · exact ⟨‹_›, (Option.some.inj h).symm⟩
  · cases h

/-! ## One step -/

/-- A step that leaves the key and the clock, and makes nobody live who was not. -/
theorem Held.drop {s s' : Ghosted State ℚ} (hI : Held ttlSeconds s)
    (hnow : s'.state.now = s.state.now) (hkey : s'.state.key = s.state.key)
    (hghost : s'.ghost = s.ghost) (hcalls : s.state.calls ≤ s'.state.calls)
    (hlive : ∀ c, (s'.state.clients c).isLive →
      (s.state.clients c).isLive ∧ (s'.state.clients c).renewed = (s.state.clients c).renewed) :
    Held ttlSeconds s' := by
  refine ⟨fun c hc => ?_, fun c hc => ?_, fun c hc => ?_, fun c hc => ?_, ?_⟩
  · by_contra hlive'
    have hold := (hlive c (by simpa using hlive')).1
    rw [hI.unused c (hcalls.trans hc)] at hold
    cases hold
  · obtain ⟨hold, hsame⟩ := hlive c hc
    rw [hkey, hsame]
    exact hI.holder c hold
  · obtain ⟨hold, hsame⟩ := hlive c hc
    rw [hnow, hsame]
    exact hI.renewed c hold
  · obtain ⟨hold, hsame⟩ := hlive c hc
    rw [hnow, hsame]
    exact hI.time c hold
  · rw [hkey, hghost]
    exact hI.touched

theorem noteTouch_of_eq {s s' : State} (a : Action) (touched : ℚ) (h : s'.key = s.key) :
    noteTouch s a s' touched = touched := by
  simp [noteTouch, h]

/-- Nothing is stored for longer than a TTL after the last SET or EXPIRE. -/
theorem Held.touched_of {s s' : Ghosted State ℚ} {a : Action} (hI : Held ttlSeconds s)
    (hghost : s'.ghost = noteTouch s.state a s'.state s.ghost)
    (hkey : ∀ e, s'.state.key = some e → s'.state.key ≠ s.state.key →
      e.expiry ≤ s'.state.now + ttlSeconds) {e : Expiring ℚ Nat}
    (he : s'.state.key = some e) : e.expiry ≤ s'.ghost + ttlSeconds := by
  by_cases hsame : s'.state.key = s.state.key
  · rw [hghost, noteTouch_of_eq a _ hsame]
    exact hI.touched e (by rw [← hsame, he])
  · rw [hghost, noteTouch, if_pos ⟨hsame, by simp [he]⟩]
    exact hkey e he hsame

/-- An EXPIRE, whoever has sent it, finds the key of the live client. -/
theorem Held.extend {s s' : Ghosted State ℚ} {a : Action} (hI : Held ttlSeconds s)
    (hghost : s'.ghost = noteTouch s.state a s'.state s.ghost)
    (hnow : s'.state.now = s.state.now) (hcalls : s'.state.calls = s.state.calls)
    (hkey : s'.state.key =
      Expiring.expire s.state.key s.state.now (s.state.now + ttlSeconds))
    (hlive : ∀ c, (s'.state.clients c).isLive → (s.state.clients c).isLive ∧
      ((s'.state.clients c).renewed = (s.state.clients c).renewed ∨
        (s'.state.clients c).renewed = s.state.now)) : Held ttlSeconds s' := by
  have hrenewed : ∀ c, (s'.state.clients c).isLive →
      (s.state.clients c).renewed ≤ (s'.state.clients c).renewed ∧
        (s'.state.clients c).renewed ≤ s.state.now := by
    intro c hc
    obtain ⟨hold, hsame | hsame⟩ := hlive c hc
    · rw [hsame]
      exact ⟨le_rfl, hI.renewed c hold⟩
    · rw [hsame]
      exact ⟨hI.renewed c hold, le_rfl⟩
  refine ⟨fun c hc => ?_, fun c hc => ?_, fun c hc => ?_, fun c hc => ?_, fun e he => ?_⟩
  · by_contra hlive'
    have hold := (hlive c (by simpa using hlive')).1
    rw [hI.unused c (by rwa [← hcalls])] at hold
    cases hold
  · have htoken : Expiring.get s.state.key s.state.now = some c := hI.token (hlive c hc).1
    rw [hkey, Expiring.expire_of_get htoken]
    refine ⟨_, rfl, rfl, ?_⟩
    have hle := (hrenewed c hc).2
    show (s'.state.clients c).renewed + ttlSeconds ≤ s.state.now + ttlSeconds
    linarith
  · rw [hnow]
    exact (hrenewed c hc).2
  · rw [hnow]
    have htime := hI.time c (hlive c hc).1
    have hle := (hrenewed c hc).1
    linarith
  · refine hI.touched_of hghost (fun e he hne => ?_) he
    rw [hkey] at he hne
    rcases Expiring.expire_cases s.state.key s.state.now (s.state.now + ttlSeconds) with
      hsame | ⟨value, -, hnew⟩
    · exact absurd hsame hne
    · rw [hnew] at he
      cases he
      rw [hnow]

/-- A client of the new state is the one that moves or as it was. -/
theorem set_clients (s : State) (c d : Nat) (k : Client) :
    ((s.set c k).clients d) = if d = c then k else s.clients d := by
  by_cases h : d = c
  · subst h
    simp [State.set]
  · simp [State.set, h]

/-- The clients that stay live when one of them moves. -/
theorem live_of_set {s : State} {c : Nat} {k : Client}
    (hk : k.isLive → (s.clients c).isLive ∧ k.renewed = (s.clients c).renewed) (d : Nat)
    (hd : ((s.set c k).clients d).isLive) :
    (s.clients d).isLive ∧ ((s.set c k).clients d).renewed = (s.clients d).renewed := by
  rw [set_clients] at hd ⊢
  by_cases h : d = c
  · subst h
    rw [if_pos rfl] at hd ⊢
    exact hk hd
  · rw [if_neg h] at hd ⊢
    exact ⟨hd, rfl⟩

/-- A client that waits, sends, stops or goes. -/
theorem Held.client {s s' : Ghosted State ℚ} {a : Action} {c : Nat} {k : Client}
    (hI : Held ttlSeconds s) (hs' : s'.state = s.state.set c k)
    (hghost : s'.ghost = noteTouch s.state a s'.state s.ghost)
    (hk : k.isLive → (s.state.clients c).isLive ∧ k.renewed = (s.state.clients c).renewed) :
    Held ttlSeconds s' := by
  have hkey : s'.state.key = s.state.key := by
    rw [hs']
    rfl
  refine hI.drop (by rw [hs']; rfl) hkey ?_ (by rw [hs']; rfl) fun d hd => ?_
  · rw [hghost, noteTouch_of_eq a _ hkey]
  · rw [hs'] at hd ⊢
    exact live_of_set hk d hd

/-- A granted SET is of a free key, and then nobody was live. -/
theorem Held.acquire {s s' : Ghosted State ℚ} (hI : Held ttlSeconds s) (hpos : 0 < ttlSeconds)
    (hs' : s'.state = RedisLock.acquire ttlSeconds s.state)
    (hghost : s'.ghost = noteTouch s.state .acquire s'.state s.ghost) :
    Held ttlSeconds s' := by
  unfold RedisLock.acquire at hs'
  split at hs'
  · have hkey : s'.state.key = s.state.key := by rw [hs']
    refine hI.drop (by rw [hs']) hkey ?_ (by rw [hs']; exact Nat.le_succ _) fun c hc => ?_
    · rw [hghost, noteTouch_of_eq _ _ hkey]
    · rw [hs'] at hc ⊢
      exact ⟨hc, rfl⟩
  · rename_i hfree
    have hnone : ∀ c, (s.state.clients c).isLive = false := by
      intro c
      by_contra hc
      rw [hI.token (by simpa using hc)] at hfree
      cases hfree
    have hkey : s'.state.key = some ⟨s.state.calls, s.state.now + ttlSeconds⟩ := by
      rw [hs']
      exact Expiring.setNX_of_free hfree
    have hnow : s'.state.now = s.state.now := by rw [hs']; rfl
    have hclients : ∀ c, s'.state.clients c =
        if c = s.state.calls then { phase := .granted, renewed := s.state.now }
        else s.state.clients c := by
      intro c
      rw [hs']
      exact set_clients s.state s.state.calls c _
    -- The new client is the live one.
    have honly : ∀ c, (s'.state.clients c).isLive → c = s.state.calls := by
      intro c hc
      by_contra hne
      rw [hclients, if_neg hne, hnone c] at hc
      cases hc
    have hcast : (0 : ℚ) < ttlSeconds := by exact_mod_cast hpos
    refine ⟨fun c hc => ?_, fun c hc => ?_, fun c hc => ?_, fun c hc => ?_, fun e he => ?_⟩
    · by_contra hlive
      have heq := honly c (by simpa using hlive)
      rw [hs', heq] at hc
      exact absurd hc (Nat.not_succ_le_self _)
    · obtain rfl := honly c hc
      rw [hkey, hclients, if_pos rfl]
      exact ⟨_, rfl, rfl, le_rfl⟩
    · obtain rfl := honly c hc
      rw [hnow, hclients, if_pos rfl]
    · obtain rfl := honly c hc
      rw [hnow, hclients, if_pos rfl]
      show s.state.now < s.state.now + ttlSeconds
      linarith
    · refine hI.touched_of hghost (fun e he _ => ?_) he
      rw [hkey] at he
      cases he
      rw [hnow]

theorem Held.wait {s s' : Ghosted State ℚ} {seconds : ℚ} (hI : Held ttlSeconds s)
    (httl : 2 ≤ ttlSeconds) (hpos : 0 < seconds)
    (hs' : s'.state = { s.state with now := s.state.now + seconds })
    (hghost : s'.ghost = noteTouch s.state (.wait seconds) s'.state s.ghost)
    (hpunctual : Punctual ttlSeconds s'.state) : Held ttlSeconds s' := by
  have hkey : s'.state.key = s.state.key := by rw [hs']
  have hclients : s'.state.clients = s.state.clients := by rw [hs']
  have hcalls : s'.state.calls = s.state.calls := by rw [hs']
  have hnow : s'.state.now = s.state.now + seconds := by rw [hs']
  have hunused : ∀ c, s'.state.calls ≤ c → (s'.state.clients c).isLive = false := by
    rw [hclients, hcalls]
    exact hI.unused
  refine ⟨hunused, fun c hc => ?_, fun c hc => ?_, fun c hc => ?_, fun e he => ?_⟩
  · rw [hkey, hclients]
    exact hI.holder c (by rwa [← hclients])
  · have hold := hI.renewed c (by rwa [← hclients])
    rw [hclients, hnow]
    linarith
  · have hlt : c < s'.state.calls := by
      by_contra hge
      rw [hunused c (Nat.le_of_not_lt hge)] at hc
      cases hc
    have hdue := hpunctual c hlt hc
    rwa [add_assoc, interval_add httl] at hdue
  · rw [hghost, noteTouch_of_eq _ _ hkey]
    exact hI.touched e (by rw [← hkey, he])

theorem Held.release {s s' : Ghosted State ℚ} {c : Nat} (hI : Held ttlSeconds s)
    (h : RedisLock.release s.state c = some s'.state)
    (hghost : s'.ghost = noteTouch s.state (.release c) s'.state s.ghost) :
    Held ttlSeconds s' := by
  obtain ⟨hleaving, hs'⟩ := release_eq_some h
  have hdead : (s.state.clients c).isLive = false := by simp [Client.isLive, hleaving]
  by_cases hlive : ∃ d, (s.state.clients d).isLive
  · obtain ⟨d, hd⟩ := hlive
    have hne : d ≠ c := by
      rintro rfl
      rw [hd] at hdead
      cases hdead
    have hkey : s'.state.key = s.state.key := by
      rw [hs']
      exact Expiring.deleteIf_of_ne (hI.token hd) hne
    refine hI.drop (by rw [hs']; rfl) hkey ?_ (by rw [hs']; rfl) fun d hd => ?_
    · rw [hghost, noteTouch_of_eq _ _ hkey]
    · rw [hs'] at hd ⊢
      exact live_of_set (by simp [Client.isLive]) d hd
  · have hnone : ∀ d, (s'.state.clients d).isLive = false := by
      intro d
      by_contra hd
      have hd' :
          ((s.state.set c { s.state.clients c with phase := .gone }).clients d).isLive := by
        rw [hs'] at hd
        simpa using hd
      exact hlive ⟨d, (live_of_set (by simp [Client.isLive]) d hd').1⟩
    refine ⟨fun d _ => hnone d, fun d hd => ?_, fun d hd => ?_, fun d hd => ?_, fun e he => ?_⟩
    · rw [hnone d] at hd
      cases hd
    · rw [hnone d] at hd
      cases hd
    · rw [hnone d] at hd
      cases hd
    · refine hI.touched_of hghost (fun e he hne => ?_) he
      rw [hs'] at he hne
      rcases Expiring.deleteIf_cases s.state.key s.state.now c with hsame | hgone
      · exact absurd hsame hne
      · rw [hgone] at he
        cases he

theorem held_step {s s' : Ghosted State ℚ} {a : Action} (hI : Held ttlSeconds s)
    (httl : 2 ≤ ttlSeconds) (h : timedStep ttlSeconds s a = some s')
    (hpunctual : Punctual ttlSeconds s'.state) : Held ttlSeconds s' := by
  obtain ⟨hstep, hghost⟩ := ghostStep_eq_some h
  cases a with
  | acquire => exact hI.acquire (by omega) (Option.some.inj hstep).symm hghost
  | enter c | get c | heartbeatFails c | leave c | crash c =>
    obtain ⟨k, hs', hmoves, hsame⟩ := step_mover hstep rfl
    exact hI.client hs' hghost fun hk => ⟨hmoves.live hk, hsame⟩
  | expire c | strayExpire c =>
    obtain ⟨k, hs', hmoves, hrenewed⟩ := step_expirer hstep rfl
    refine hI.extend hghost (by rw [hs']; rfl) (by rw [hs']; rfl) (by rw [hs']) fun d hd => ?_
    rw [hs'] at hd ⊢
    simp only [set_clients] at hd ⊢
    by_cases hdc : d = c
    · subst hdc
      rw [if_pos rfl] at hd ⊢
      exact ⟨hmoves.live hd, hrenewed⟩
    · rw [if_neg hdc] at hd ⊢
      exact ⟨hd, .inl rfl⟩
  | release c => exact hI.release hstep hghost
  | wait seconds =>
    obtain ⟨hpos, hs'⟩ := step_wait hstep
    exact hI.wait httl hpos hs' hghost hpunctual

theorem held_initial : Held ttlSeconds ⟨{}, 0⟩ := by
  refine ⟨fun c _ => rfl, ?_, ?_, ?_, ?_⟩ <;> simp [Client.isLive]

/-- With a TTL of two seconds or more, in every run in which the live holders' renewals
take effect in time, at most one client is inside, its key is there, and the key is
free once a TTL has passed since the last SET or EXPIRE. -/
theorem lock_safe (ttlSeconds : Nat) (httl : 2 ≤ ttlSeconds) (as : List Action)
    (hpunctual : Along (step ttlSeconds) (fun _ _ s => Punctual ttlSeconds s) {} as) :
    Along (timedStep ttlSeconds) (fun _ _ s => Safe ttlSeconds s) ⟨{}, 0⟩ as := by
  have htimed : Along (timedStep ttlSeconds) (fun _ _ s => Punctual ttlSeconds s.state)
      ⟨{}, 0⟩ as :=
    (along_ghost_iff (R := fun _ _ s => Punctual ttlSeconds s)).mpr hpunctual
  refine along_imp (I := Held ttlSeconds) ?_ ?_ held_initial htimed
  · exact fun _ _ _ hI h hp => held_step hI httl h hp
  · exact fun _ _ _ hI h hp => (held_step hI httl h hp).safe

/-- The first client renews once and leaves with an extension on its way, which reaches
the key of the second; the second dies and the key runs out. -/
def renewAndCrash : List Action :=
  [.acquire, .enter 0, .acquire, .wait 15, .get 0, .wait 10, .expire 0, .wait 15, .get 0,
    .leave 0, .release 0, .acquire, .enter 2, .wait 5, .strayExpire 0, .crash 2, .wait 30,
    .acquire, .enter 3]

theorem lock_safe_thirty :
    (run (step 30) {} renewAndCrash).isSome ∧
      Along (timedStep 30) (fun _ _ s => Safe 30 s) ⟨{}, 0⟩ renewAndCrash :=
  ⟨by decide +kernel, lock_safe 30 (by decide) renewAndCrash (by decide +kernel)⟩

end Sutram.Core.RedisLock
