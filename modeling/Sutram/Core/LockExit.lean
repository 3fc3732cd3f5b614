/-
How `RedisLock.acquire` ends.

The body has ended when the heartbeat is cancelled and awaited, and the release comes
after that.  `await` raises what the heartbeat's task raised; only a cancellation is
suppressed.
-/
import Sutram.Core.RedisLock
import Sutram.Library.Exceptional

namespace Sutram.Core.LockExit

open Exceptional

variable {ε α : Type}

/-- What a Redis call or a body may raise. -/
inductive Exn (ε : Type) where
  | cancelledError
  | lockAcquisitionError (message : String)
  | other (e : ε)
deriving DecidableEq, Repr

/-! ## The heartbeat's task -/

/-- Where the heartbeat's task is.  A cancelled task has failed with a CancelledError. -/
inductive Heartbeat (ε : Type) where
  | sleeping
  | getting
  | extending
  | finished
  | failed (e : Exn ε)
deriving DecidableEq, Repr

/-- What the task waits for. -/
inductive Reply (ε : Type) where
  | slept
  | got (current : Except (Exn ε) (Option String))
  | extended (reply : Except (Exn ε) Unit)

/-- `_renew_heartbeat` up to its next `await`. -/
def renewHeartbeat (token : String) : Heartbeat ε → Reply ε → Heartbeat ε
  | .sleeping, .slept => .getting
  | .getting, .got (.ok none) => .finished
  | .getting, .got (.ok (some current)) => if current = token then .extending else .finished
  | .getting, .got (.error e) => .failed e
  | .extending, .extended (.ok ()) => .sleeping
  | .extending, .extended (.error e) => .failed e
  | heartbeat, _ => heartbeat

/-- `Task.cancel`: a task that is done stays as it is. -/
def Heartbeat.cancel : Heartbeat ε → Heartbeat ε
  | sleeping | getting | extending => failed .cancelledError
  | finished => finished
  | failed e => failed e

/-! ## A call of `acquire` -/

inductive Command where
  | setNX (key token : String) (ttlSeconds : Nat)
  /-- the release script -/
  | eval (key token : String)
deriving DecidableEq, Repr

/-- The commands sent so far, and what Redis is going to answer. -/
structure Session (ε : Type) where
  heartbeat : Heartbeat ε := .finished
  commands : List Command := []
  setReply : Except (Exn ε) Bool := .ok true
  evalReply : Except (Exn ε) Int := .ok 1

/-- A coroutine of the caller's task. -/
abbrev Coroutine (ε α : Type) := Exceptional (Session ε) (Exn ε) α

def send (command : Command) : Coroutine ε Unit :=
  modify fun s => { s with commands := s.commands ++ [command] }

def setNX (key token : String) (ttlSeconds : Nat) : Coroutine ε Bool := do
  send (.setNX key token ttlSeconds)
  MonadExcept.ofExcept (← get).setReply

def eval (key token : String) : Coroutine ε Int := do
  send (.eval key token)
  MonadExcept.ofExcept (← get).evalReply

def createTask : Coroutine ε Unit := modify fun s => { s with heartbeat := .sleeping }

def cancelTask : Coroutine ε Unit := modify fun s => { s with heartbeat := s.heartbeat.cancel }

/-- `await heartbeat_task`.  It is done by now, for it has been cancelled. -/
def awaitTask : Coroutine ε Unit := do
  match (← get).heartbeat with
  | .failed e => throw e
  | _ => pure ()

def isCancelledError : Exn ε → Bool
  | .cancelledError => true
  | _ => false

/-- The `finally` block. -/
def leave (key token : String) : Coroutine ε Unit := do
  cancelTask
  suppress isCancelledError awaitTask
  discard (eval key token)

def acquire (key token : String) (ttlSeconds : Nat) (body : String → Coroutine ε α) :
    Coroutine ε α := do
  let acquired ← setNX key token ttlSeconds
  unless acquired do
    throw (.lockAcquisitionError ("Could not acquire lock: " ++ key))
  createTask
  tryFinally (body token) (leave key token)

/-! ## The exit -/

section Exit

variable {key token : String} {ttlSeconds : Nat} {body : String → Coroutine ε α}
  {s : Session ε}

/-- The exception that awaiting the cancelled task lets through. -/
def Heartbeat.escapes : Heartbeat ε → Option (Exn ε)
  | failed .cancelledError => none
  | failed e => some e
  | _ => none

/-- The commands of a session with one more. -/
def Session.sent (s : Session ε) (command : Command) : Session ε :=
  { s with commands := s.commands ++ [command] }

theorem outcome_setNX :
    outcome (setNX key token ttlSeconds) s =
      (s.setReply, s.sent (.setNX key token ttlSeconds)) := by
  obtain ⟨heartbeat, commands, setReply, evalReply⟩ := s
  cases setReply <;> rfl

theorem outcome_eval :
    outcome (eval key token) s = (s.evalReply, s.sent (.eval key token)) := by
  obtain ⟨heartbeat, commands, setReply, evalReply⟩ := s
  cases evalReply <;> rfl

theorem outcome_awaitTask (s : Session ε) :
    outcome awaitTask s =
      (match s.heartbeat with
        | .failed e => .error e
        | _ => .ok (), s) := by
  obtain ⟨heartbeat, commands, setReply, evalReply⟩ := s
  cases heartbeat <;> rfl

/-- Awaiting the cancelled task raises what escapes, and nothing else. -/
theorem outcome_await :
    outcome (suppress isCancelledError awaitTask) { s with heartbeat := s.heartbeat.cancel } =
      (match s.heartbeat.escapes with
        | some e => .error e
        | none => .ok (), { s with heartbeat := s.heartbeat.cancel }) := by
  rw [outcome_suppress, outcome_awaitTask]
  cases s.heartbeat with
  | failed e => cases e <;> rfl
  | _ => rfl

theorem outcome_leave (key token : String) (s : Session ε) :
    outcome (leave key token) s =
      match s.heartbeat.escapes with
      | some e => (.error e, { s with heartbeat := s.heartbeat.cancel })
      | none => (s.evalReply.map fun _ => (),
          Session.sent { s with heartbeat := s.heartbeat.cancel } (.eval key token)) := by
  have hcancel : outcome cancelTask s = (.ok (), { s with heartbeat := s.heartbeat.cancel }) := rfl
  have hawait := outcome_await (s := s)
  unfold leave
  rw [outcome_bind_ok hcancel]
  cases hescapes : s.heartbeat.escapes with
  | some e =>
    rw [hescapes] at hawait
    rw [outcome_bind_error hawait]
  | none =>
    rw [hescapes] at hawait
    rw [outcome_bind_ok hawait, outcome_discard, outcome_eval]

theorem escapes_eq_none {heartbeat : Heartbeat ε} :
    heartbeat.escapes = none ↔ ∀ e, heartbeat = .failed e → e = .cancelledError := by
  cases heartbeat with
  | failed e => cases e <;> simp [Heartbeat.escapes]
  | _ => simp [Heartbeat.escapes]

/-- Where the body begins. -/
def Session.entered (s : Session ε) (key token : String) (ttlSeconds : Nat) : Session ε :=
  { s.sent (.setNX key token ttlSeconds) with heartbeat := .sleeping }

/-- A granted call: the body, and the `finally` block on what it leaves. -/
theorem outcome_acquire (hset : s.setReply = .ok true) :
    outcome (acquire key token ttlSeconds body) s =
      outcome (tryFinally (body token) (leave key token)) (s.entered key token ttlSeconds) := by
  unfold acquire
  rw [outcome_bind_ok (outcome_setNX.trans (by rw [hset]))]
  rfl

end Exit

/-! ## The heartbeat's way to the exit -/

/-- The heartbeat goes on while the body waits. -/
def pass (token : String) (reply : Reply ε) : Coroutine ε Unit :=
  modify fun s => { s with heartbeat := renewHeartbeat token s.heartbeat reply }

/-- The exception a reply raises. -/
def Reply.raised : Reply ε → Option (Exn ε)
  | got (.error e) | extended (.error e) => some e
  | _ => none

theorem renewHeartbeat_failed {token : String} {heartbeat : Heartbeat ε} {reply : Reply ε}
    {e : Exn ε} (h : renewHeartbeat token heartbeat reply = .failed e) :
    heartbeat = .failed e ∨ reply.raised = some e := by
  unfold renewHeartbeat at h
  split at h
  · cases h
  · cases h
  · split at h <;> cases h
  · cases h
    exact .inr rfl
  · cases h
  · cases h
    exact .inr rfl
  · exact .inl h

/-- A heartbeat ends with no exception but one that Redis has answered it with. -/
theorem raised_of_failed {token : String} {replies : List (Reply ε)} {e : Exn ε}
    {heartbeat : Heartbeat ε} (hstart : heartbeat ≠ .failed e)
    (h : replies.foldl (renewHeartbeat token) heartbeat = .failed e) :
    ∃ reply ∈ replies, reply.raised = some e := by
  induction replies generalizing heartbeat with
  | nil => exact absurd h hstart
  | cons reply replies ih =>
    by_cases hnow : renewHeartbeat token heartbeat reply = .failed e
    · refine ⟨reply, List.mem_cons_self .., ?_⟩
      exact (renewHeartbeat_failed hnow).resolve_left hstart
    · obtain ⟨later, hlater, hraised⟩ := ih hnow h
      exact ⟨later, List.mem_cons_of_mem _ hlater, hraised⟩

/-- The heartbeat as the clients of one key see it. -/
def Heartbeat.seen : Heartbeat ε → RedisLock.Heartbeat
  | sleeping | getting => .asleep
  | extending => .sending
  | finished => .returned
  | failed _ => .failed

theorem seen_got (token : String) (current : Option String) :
    (renewHeartbeat token (.getting : Heartbeat ε) (.got (.ok current))).seen =
      if current = some token then .sending else .returned := by
  cases current with
  | none => rfl
  | some current => by_cases h : current = token <;> simp [renewHeartbeat, h, Heartbeat.seen]

/-- The client goes on to its release exactly when the `finally` block sends it. -/
theorem leaving_iff_sent {s : RedisLock.State} {c : Nat} {session : Session ε} (key : String)
    (hinside : (s.clients c).phase = .inside)
    (hseen : (s.clients c).heartbeat = session.heartbeat.seen)
    (hrunning : session.heartbeat ≠ .failed .cancelledError) :
    (∃ s', RedisLock.leave s c = some s' ∧ (s'.clients c).phase = .leaving) ↔
      (outcome (leave key (toString c)) session).2.commands =
        session.commands ++ [.eval key (toString c)] := by
  have hleave := outcome_leave key (toString c) session
  have hstep : RedisLock.leave s c = some (s.set c
      ((s.clients c).cut (if session.heartbeat.seen = .failed then .gone else .leaving))) := by
    simp only [RedisLock.leave, hinside, hseen, if_true]
  rw [hstep, hleave]
  have hphase : ∀ phase, (∃ s', some (s.set c ((s.clients c).cut phase)) = some s' ∧
      (s'.clients c).phase = .leaving) ↔ phase = .leaving := by
    intro phase
    simp [RedisLock.State.set, RedisLock.Client.cut]
  rw [hphase]
  obtain ⟨heartbeat, commands, setReply, evalReply⟩ := session
  cases heartbeat with
  | failed e =>
    have hescapes : (Heartbeat.failed e).escapes = some e := by
      cases e with
      | cancelledError => exact absurd rfl hrunning
      | _ => rfl
    simp [hescapes, Heartbeat.seen]
  | _ => simp [Heartbeat.escapes, Heartbeat.seen, Session.sent]

/-! ## What the caller sees -/

/-- The release script has been run once after the body, and the caller sees the body's
outcome. -/
structure Clean (key token : String) (body result : Except (Exn ε) α × Session ε) : Prop where
  released : result.2.commands = body.2.commands ++ [.eval key token]
  outcome : result.1 = body.1

/-- The heartbeat has not ended with an exception of its own, and the release raises none. -/
structure EndedWell (body : Except (Exn ε) α × Session ε) : Prop where
  heartbeat : ∀ e, body.2.heartbeat = .failed e → e = .cancelledError
  release : ∀ e, body.2.evalReply = .error e → body.1 = .error e

/-- A granted call of `acquire` ends as its body does, with one release, exactly when no
exception other than a cancellation has ended the heartbeat and the release raises none but
the body's own. -/
theorem clean_iff (key token : String) (ttlSeconds : Nat) (body : String → Coroutine ε α)
    (s : Session ε) (hset : s.setReply = .ok true) :
    Clean key token (outcome (body token) (s.entered key token ttlSeconds))
        (outcome (acquire key token ttlSeconds body) s) ↔
      EndedWell (outcome (body token) (s.entered key token ttlSeconds)) := by
  rw [outcome_acquire hset, outcome_tryFinally]
  obtain ⟨r, after⟩ := outcome (body token) (s.entered key token ttlSeconds)
  dsimp only
  rw [outcome_leave]
  cases hescapes : after.heartbeat.escapes with
  | some e =>
    -- The release has not been sent.
    refine iff_of_false (fun h => ?_) (fun h => ?_)
    · have hsent : after.commands = after.commands ++ [.eval key token] := h.released
      simp at hsent
    · rw [escapes_eq_none.mpr h.heartbeat] at hescapes
      cases hescapes
  | none =>
    cases hreply : after.evalReply with
    | ok => exact iff_of_true ⟨rfl, rfl⟩ ⟨escapes_eq_none.mp hescapes, by simp [hreply]⟩
    | error e =>
      constructor
      · intro h
        have hsame : Except.error e = r := h.outcome
        refine ⟨escapes_eq_none.mp hescapes, fun e' he' => ?_⟩
        rw [hreply] at he'
        cases he'
        exact hsame.symm
      · intro h
        exact ⟨rfl, (h.release e hreply).symm⟩

/-- The heartbeat has asked for the key when the body raises. -/
def interrupted (token : String) : Coroutine String Nat := do
  pass token .slept
  throw (.other "something went wrong")

theorem clean_of_interrupted :
    Clean "k" "t" (outcome (interrupted "t") (Session.entered {} "k" "t" 30))
      (outcome (acquire "k" "t" 30 interrupted) {}) :=
  (clean_iff "k" "t" 30 interrupted {} rfl).mpr
    ⟨fun _ h => (by cases h), fun _ h => (by cases h)⟩

/-- Redis refuses the heartbeat's GET, and the body returns. -/
def unrenewed (token : String) : Coroutine String Nat := do
  pass token .slept
  pass token (.got (.error (.other "connection reset")))
  pure 7

theorem heartbeat_replaces_outcome :
    (outcome (unrenewed "t") (Session.entered {} "k" "t" 30)).1 = .ok 7 ∧
      (outcome (acquire "k" "t" 30 unrenewed) {}).1 = .error (.other "connection reset") ∧
      (outcome (acquire "k" "t" 30 unrenewed) {}).2.commands = [.setNX "k" "t" 30] ∧
      ¬Clean "k" "t" (outcome (unrenewed "t") (Session.entered {} "k" "t" 30))
        (outcome (acquire "k" "t" 30 unrenewed) {}) := by
  refine ⟨rfl, rfl, rfl, fun h => ?_⟩
  have hreleased : [Command.setNX "k" "t" 30] = [.setNX "k" "t" 30, .eval "k" "t"] := h.released
  cases hreleased

end Sutram.Core.LockExit
