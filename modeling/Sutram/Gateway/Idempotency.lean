/-
Concurrent requests with an idempotency key.

A request to a guarded endpoint sets the key before it is forwarded and deletes it when
its own response is a server error.  Any number of requests are under way at once; each
command of the store, each response and each failure is an action of its own.
-/
import Mathlib.Logic.Function.Basic
import Sutram.Core.Uuid
import Sutram.Gateway.Guard
import Sutram.Library.ExpiringKey
import Sutram.Library.Ghost

namespace Sutram.Gateway.Idempotency

open Sutram.Core Runs

/-! ## The store -/

/-- The keys of the Redis database. -/
abbrev Store := String → Option (Expiring Nat String)

namespace IdempotencyStore

def redisKey (key : String) : String := "idempotency:" ++ key

/-- Whether the key has been seen, and the store with the key in it. -/
def checkAndStore (store : Store) (now : Nat) (key : String) (ttlSeconds : Nat := 86400) :
    Bool × Store :=
  let entry := store (redisKey key)
  let stored := (Expiring.get entry now).isNone
  (!stored, Function.update store (redisKey key)
    (Expiring.setNX entry now "1" (now + ttlSeconds)))

def delete (store : Store) (key : String) : Store := Function.update store (redisKey key) none

end IdempotencyStore

/-- Tenant-scoped key: prevents cross-tenant collision on identical key strings. -/
def scopedKey (tenantId : Uuid) (idempotencyKey : String) : String :=
  tenantId.str ++ ":" ++ idempotencyKey

/-! ## Requests -/

/-- What the gateway reads of a client's request. -/
structure Call where
  method : Method
  path : Text
  tenantId : Uuid
  idempotencyKey : Option String

/-- The key that the request sets and may delete. -/
def Call.scopedKey (k : Call) : Option String :=
  if idempotencyApplies k.method k.path then
    k.idempotencyKey.map (Idempotency.scopedKey k.tenantId)
  else none

inductive Answer where
  | upstream (statusCode : Nat)
  /-- 409 -/
  | duplicateRequest
  /-- 429 -/
  | rateLimitExceeded
  /-- An exception that no handler of the route catches. -/
  | serverError
deriving DecidableEq, Repr

/-- The next operation of a request. -/
inductive Phase where
  | checkRateLimit
  | checkIdempotency
  | forward
  | deleteKey (statusCode : Nat)
  | done (a : Answer)
deriving DecidableEq, Repr

structure State where
  now : Nat := 0
  store : Store := fun _ => none
  phases : Nat → Phase := fun _ => .checkRateLimit

def State.goto (s : State) (c : Nat) (p : Phase) : State :=
  { s with phases := Function.update s.phases c p }

inductive Action where
  | checkRateLimit (c : Nat) (exceeded : Bool)
  | checkIdempotency (c : Nat)
  | respond (c statusCode : Nat)
  | deleteKey (c : Nat)
  /-- The operation raises, or the process dies; a command it has sent to the store may
  have taken effect. -/
  | fail (c : Nat) (effective : Bool)
  | wait (seconds : Nat)
deriving DecidableEq, Repr

variable (calls : Nat → Call)

def checkIdempotency (s : State) (c : Nat) : State :=
  match (calls c).scopedKey with
  | none => s.goto c .forward
  | some key =>
    let (isDuplicate, store) := IdempotencyStore.checkAndStore s.store s.now key
    { s.goto c (if isDuplicate then .done .duplicateRequest else .forward) with store := store }

/-- On a server error the key is deleted so that the client can retry. -/
def respond (s : State) (c statusCode : Nat) : State :=
  if (calls c).scopedKey.isSome ∧ 500 ≤ statusCode then s.goto c (.deleteKey statusCode)
  else s.goto c (.done (.upstream statusCode))

/-- The store after the command of the request's next operation. -/
def command (s : State) (c : Nat) : Store :=
  match (calls c).scopedKey, s.phases c with
  | some key, .checkIdempotency => (IdempotencyStore.checkAndStore s.store s.now key).2
  | some key, .deleteKey _ => IdempotencyStore.delete s.store key
  | _, _ => s.store

def step (s : State) : Action → Option State
  | .checkRateLimit c exceeded =>
    if s.phases c = .checkRateLimit then
      some (s.goto c (if exceeded then .done .rateLimitExceeded else .checkIdempotency))
    else none
  | .checkIdempotency c =>
    if s.phases c = .checkIdempotency then some (checkIdempotency calls s c) else none
  | .respond c statusCode =>
    if s.phases c = .forward then some (respond calls s c statusCode) else none
  | .deleteKey c =>
    match s.phases c with
    | .deleteKey statusCode =>
      some { s.goto c (.done (.upstream statusCode)) with store := command calls s c }
    | _ => none
  | .fail c effective =>
    match s.phases c with
    | .done _ => none
    | _ => some { s.goto c (.done .serverError) with
        store := if effective then command calls s c else s.store }
  | .wait seconds => some { s with now := s.now + seconds }

/-! ## What the key promises -/

/-- The request has set the key, or was let through without one, and is not answered. -/
def Phase.inFlight : Phase → Bool
  | .forward | .deleteKey _ => true
  | _ => false

/-- The upstream response was no server error. -/
def Phase.delivered : Phase → Bool
  | .done (.upstream statusCode) => statusCode < 500
  | _ => false

/-- A request to a guarded endpoint with this tenant and this key. -/
def Carries (tenantId : Uuid) (idempotencyKey : String) (c : Nat) : Prop :=
  idempotencyApplies (calls c).method (calls c).path ∧ (calls c).tenantId = tenantId ∧
    (calls c).idempotencyKey = some idempotencyKey

/-- The key, while it is stored, has not run out. -/
def WithinTtl (tenantId : Uuid) (idempotencyKey : String) (s : State) : Prop :=
  ∀ e ∈ s.store (IdempotencyStore.redisKey (scopedKey tenantId idempotencyKey)), s.now < e.expiry

instance (t : Uuid) (k : String) (s : State) : Decidable (WithinTtl t k s) :=
  inferInstanceAs (Decidable (∀ e ∈ s.store (IdempotencyStore.redisKey (scopedKey t k)), _))

/-- One response below 500 at most, one request in flight at most, and another one that
comes to the check meanwhile is answered 409. -/
structure AtMostOnce (t : Uuid) (k : String) (s : State) (a : Action) (s' : State) : Prop where
  delivered : ∀ c d, Carries calls t k c → Carries calls t k d →
    (s'.phases c).delivered → (s'.phases d).delivered → c = d
  inFlight : ∀ c d, Carries calls t k c → Carries calls t k d →
    (s'.phases c).inFlight → (s'.phases d).inFlight → c = d
  refused : ∀ c d, Carries calls t k c → Carries calls t k d → (s.phases c).inFlight →
    a = .checkIdempotency d → s'.phases d = .done .duplicateRequest

/-! ## Whose key it is -/

theorem length_str (u : Uuid) : u.str.toList.length = 36 := by
  rw [Uuid.str, String.toList_ofList]
  exact Uuid.length_hyphenate (by rw [Hex.length_encode, u.length_eq])

theorem redisKey_inj {a b : String} :
    IdempotencyStore.redisKey a = IdempotencyStore.redisKey b ↔ a = b := by
  constructor
  · intro h
    have hlist := congrArg String.toList h
    simp only [IdempotencyStore.redisKey, String.toList_append] at hlist
    exact String.toList_injective (List.append_cancel_left hlist)
  · rintro rfl
    rfl

/-- The text of a tenant has a fixed length, so the key of the header begins behind it. -/
theorem scopedKey_inj {t u : Uuid} {k l : String} :
    scopedKey t k = scopedKey u l ↔ t = u ∧ k = l := by
  constructor
  · intro h
    have hlist := congrArg String.toList h
    simp only [scopedKey, String.toList_append, List.append_assoc] at hlist
    obtain ⟨htenant, hkey⟩ := List.append_inj hlist (by rw [length_str, length_str])
    refine ⟨Uuid.str_injective (String.toList_injective htenant), String.toList_injective ?_⟩
    exact List.append_cancel_left hkey
  · rintro ⟨rfl, rfl⟩
    rfl

variable {calls} {t : Uuid} {k : String}

theorem Carries.scopedKey {c : Nat} (h : Carries calls t k c) :
    (calls c).scopedKey = some (scopedKey t k) := by
  obtain ⟨happlies, rfl, hkey⟩ := h
  simp [Call.scopedKey, happlies, hkey]

theorem carries_of_scopedKey {c : Nat} (h : (calls c).scopedKey = some (scopedKey t k)) :
    Carries calls t k c := by
  unfold Call.scopedKey at h
  split at h
  · rename_i happlies
    obtain ⟨l, hl, heq⟩ := Option.map_eq_some_iff.mp h
    obtain ⟨htenant, rfl⟩ := scopedKey_inj.mp heq
    exact ⟨happlies, htenant, hl⟩
  · cases h

/-- The entry of the key. -/
def State.entry (s : State) (t : Uuid) (k : String) : Option (Expiring Nat String) :=
  s.store (IdempotencyStore.redisKey (Idempotency.scopedKey t k))

/-- A request without the key does not touch it. -/
theorem command_other {s : State} {c : Nat} (h : ¬ Carries calls t k c) :
    command calls s c (IdempotencyStore.redisKey (scopedKey t k)) = s.entry t k := by
  cases hkey : (calls c).scopedKey with
  | none => simp [command, hkey, State.entry]
  | some key =>
    have hne : IdempotencyStore.redisKey (scopedKey t k) ≠ IdempotencyStore.redisKey key := by
      intro heq
      rw [← redisKey_inj.mp heq] at hkey
      exact h (carries_of_scopedKey hkey)
    cases hphase : s.phases c <;>
      simp [command, hkey, hphase, hne, State.entry, IdempotencyStore.checkAndStore,
        IdempotencyStore.delete]

/-! ## The invariant -/

def Phase.owns (p : Phase) : Bool := p.inFlight || p.delivered

/-- Whoever has set the key and not failed is alone, and the key is there. -/
structure Kept (calls : Nat → Call) (t : Uuid) (k : String) (s : State) : Prop where
  within : WithinTtl t k s
  failed : ∀ c statusCode, s.phases c = .deleteKey statusCode → 500 ≤ statusCode
  present : ∀ c, Carries calls t k c → (s.phases c).owns → (s.entry t k).isSome
  unique : ∀ c d, Carries calls t k c → Carries calls t k d → (s.phases c).owns →
    (s.phases d).owns → c = d

@[simp] theorem goto_phases (s : State) (c d : Nat) (p : Phase) :
    (s.goto c p).phases d = if d = c then p else s.phases d := by
  by_cases h : d = c
  · subst h
    simp [State.goto]
  · simp [State.goto, h]

/-- The key stays, and nobody owns it who did not. -/
theorem Kept.keep {s s' : State} (hI : Kept calls t k s) (hwithin : WithinTtl t k s')
    (hfailed : ∀ c statusCode, s'.phases c = .deleteKey statusCode → 500 ≤ statusCode)
    (hentry : (s.entry t k).isSome → (s'.entry t k).isSome)
    (howns : ∀ c, Carries calls t k c → (s'.phases c).owns → (s.phases c).owns) :
    Kept calls t k s' := by
  refine ⟨hwithin, hfailed, fun c hc ho => ?_, fun c d hc hd hco hdo => ?_⟩
  · exact hentry (hI.present c hc (howns c hc ho))
  · exact hI.unique c d hc hd (howns c hc hco) (howns d hd hdo)

/-- The owner gives up the key. -/
theorem Kept.release {s s' : State} {c : Nat} (hI : Kept calls t k s)
    (hwithin : WithinTtl t k s')
    (hfailed : ∀ d statusCode, s'.phases d = .deleteKey statusCode → 500 ≤ statusCode)
    (hc : Carries calls t k c) (hbefore : (s.phases c).owns) (hafter : (s'.phases c).owns = false)
    (hothers : ∀ d, d ≠ c → s'.phases d = s.phases d) : Kept calls t k s' := by
  have hnone : ∀ d, Carries calls t k d → (s'.phases d).owns = false := by
    intro d hd
    by_cases hdc : d = c
    · rw [hdc]
      exact hafter
    · by_contra ho
      rw [hothers d hdc] at ho
      exact hdc (hI.unique d c hd hc (eq_true_of_ne_false ho) hbefore)
  refine ⟨hwithin, hfailed, fun d hd ho => ?_, fun d e hd _ ho => ?_⟩
  · rw [hnone d hd] at ho
    cases ho
  · rw [hnone d hd] at ho
    cases ho

/-- The key is free, and the request that sets it owns it. -/
theorem Kept.take {s s' : State} {c : Nat} (hI : Kept calls t k s) (hwithin : WithinTtl t k s')
    (hfailed : ∀ d statusCode, s'.phases d = .deleteKey statusCode → 500 ≤ statusCode)
    (hfree : Expiring.get (s.entry t k) s.now = none) (hentry : (s'.entry t k).isSome)
    (hothers : ∀ d, d ≠ c → s'.phases d = s.phases d) : Kept calls t k s' := by
  have hnone : ∀ d, Carries calls t k d → (s.phases d).owns = false := by
    intro d hd
    by_contra ho
    obtain ⟨e, he⟩ := Option.isSome_iff_exists.mp (hI.present d hd (eq_true_of_ne_false ho))
    rw [he, Expiring.get_of_lt (hI.within e he)] at hfree
    cases hfree
  have honly : ∀ d, Carries calls t k d → (s'.phases d).owns → d = c := by
    intro d hd ho
    by_contra hdc
    rw [hothers d hdc, hnone d hd] at ho
    cases ho
  refine ⟨hwithin, hfailed, fun _ _ _ => hentry, fun d e hd he hdo heo => ?_⟩
  rw [honly d hd hdo, honly e he heo]

/-! ## One step -/

/-- The SET of a request that carries the key. -/
theorem checkAndStore_entry (s : State) (t : Uuid) (k : String) :
    (IdempotencyStore.checkAndStore s.store s.now (scopedKey t k)).2
        (IdempotencyStore.redisKey (scopedKey t k)) =
      Expiring.setNX (s.entry t k) s.now "1" (s.now + 86400) := by
  simp [IdempotencyStore.checkAndStore, State.entry]

theorem checkIdempotency_store {s : State} {c : Nat} (h : s.phases c = .checkIdempotency) :
    (checkIdempotency calls s c).store = command calls s c := by
  cases hkey : (calls c).scopedKey <;> simp [checkIdempotency, command, hkey, h, State.goto]

theorem Kept.check {s s' : State} {c : Nat} (hI : Kept calls t k s) (hwithin : WithinTtl t k s')
    (hphase : s.phases c = .checkIdempotency) (hs' : s' = checkIdempotency calls s c) :
    Kept calls t k s' := by
  have hothers : ∀ d, d ≠ c → s'.phases d = s.phases d := by
    intro d hd
    rw [hs', checkIdempotency]
    split <;> simp [hd]
  have hself : ∀ statusCode, s'.phases c ≠ .deleteKey statusCode := by
    intro statusCode
    rw [hs', checkIdempotency]
    split
    · simp
    · simp only [goto_phases, if_pos]
      split <;> simp
  have hfailed : ∀ d statusCode, s'.phases d = .deleteKey statusCode → 500 ≤ statusCode := by
    intro d statusCode hd
    by_cases hdc : d = c
    · rw [hdc] at hd
      exact absurd hd (hself statusCode)
    · rw [hothers d hdc] at hd
      exact hI.failed d statusCode hd
  by_cases hc : Carries calls t k c
  · have hentry : s'.entry t k = Expiring.setNX (s.entry t k) s.now "1" (s.now + 86400) := by
      rw [hs', checkIdempotency, hc.scopedKey]
      exact checkAndStore_entry s t k
    have hsome : (s'.entry t k).isSome := by
      rw [hentry]
      exact Expiring.isSome_setNX
    cases hget : Expiring.get (s.entry t k) s.now with
    | none => exact hI.take hwithin hfailed hget hsome hothers
    | some v =>
      refine hI.keep hwithin hfailed (fun _ => hsome) fun d _ ho => ?_
      by_cases hdc : d = c
      · subst hdc
        rw [State.entry] at hget
        simp [hs', checkIdempotency, hc.scopedKey, IdempotencyStore.checkAndStore, hget,
          Phase.owns, Phase.inFlight, Phase.delivered] at ho
      · rwa [hothers d hdc] at ho
  · have hentry : s'.entry t k = s.entry t k := by
      rw [State.entry, hs', checkIdempotency_store hphase]
      exact command_other hc
    refine hI.keep hwithin hfailed (fun h => by rwa [hentry]) fun d hd ho => ?_
    have hdc : d ≠ c := by
      rintro rfl
      exact hc hd
    rwa [hothers d hdc] at ho

theorem carries_of_ne {c d : Nat} (hc : ¬ Carries calls t k c) (hd : Carries calls t k d) :
    d ≠ c := by
  rintro rfl
  exact hc hd

theorem Kept.respond {s : State} {c statusCode : Nat} (hI : Kept calls t k s)
    (hphase : s.phases c = .forward) (hwithin : WithinTtl t k (respond calls s c statusCode)) :
    Kept calls t k (respond calls s c statusCode) := by
  unfold Idempotency.respond at hwithin ⊢
  split
  · rename_i herror
    rw [if_pos herror] at hwithin
    refine hI.keep hwithin (fun d code hd => ?_) (fun h => h) fun d _ ho => ?_
    · by_cases hdc : d = c
      · simp only [goto_phases, if_pos hdc, Phase.deleteKey.injEq] at hd
        rw [← hd]
        exact herror.2
      · simp only [goto_phases, if_neg hdc] at hd
        exact hI.failed d code hd
    · by_cases hdc : d = c
      · rw [hdc, hphase]
        rfl
      · simpa [hdc] using ho
  · rename_i hanswer
    rw [if_neg hanswer] at hwithin
    refine hI.keep hwithin (fun d code hd => ?_) (fun h => h) fun d _ ho => ?_
    · by_cases hdc : d = c
      · simp [hdc] at hd
      · simp only [goto_phases, if_neg hdc] at hd
        exact hI.failed d code hd
    · by_cases hdc : d = c
      · rw [hdc, hphase]
        rfl
      · simpa [hdc] using ho

/-- An operation that ends the request. -/
theorem Kept.finish {s s' : State} {c : Nat} {a : Answer} (hI : Kept calls t k s)
    (hwithin : WithinTtl t k s') (hphases : s'.phases = (s.goto c (.done a)).phases)
    (hafter : (Phase.done a).delivered = false)
    (hstore : s'.store = s.store ∨ s'.store = command calls s c) : Kept calls t k s' := by
  have hself : s'.phases c = .done a := by
    rw [hphases]
    simp
  have hothers : ∀ d, d ≠ c → s'.phases d = s.phases d := by
    intro d hd
    rw [hphases]
    simp [hd]
  have hfailed : ∀ d statusCode, s'.phases d = .deleteKey statusCode → 500 ≤ statusCode := by
    intro d statusCode hd
    by_cases hdc : d = c
    · rw [hdc, hself] at hd
      cases hd
    · rw [hothers d hdc] at hd
      exact hI.failed d statusCode hd
  have hnot : (s'.phases c).owns = false := by
    rw [hself]
    exact hafter
  by_cases hc : Carries calls t k c
  · by_cases hbefore : (s.phases c).owns
    · exact hI.release hwithin hfailed hc hbefore hnot hothers
    · refine hI.keep hwithin hfailed (fun h => ?_) fun d _ ho => ?_
      · rcases hstore with hsame | hcommand
        · rwa [State.entry, hsame]
        · rw [State.entry, hcommand, command, hc.scopedKey]
          -- Before it owns the key, the only command of the request is the SET.
          cases hphase : s.phases c with
          | checkIdempotency =>
            show ((IdempotencyStore.checkAndStore s.store s.now (scopedKey t k)).2 _).isSome
            rw [checkAndStore_entry]
            exact Expiring.isSome_setNX
          | deleteKey => exact absurd (by rw [hphase]; rfl) hbefore
          | _ => exact h
      · by_cases hdc : d = c
        · rw [hdc, hnot] at ho
          cases ho
        · rwa [hothers d hdc] at ho
  · refine hI.keep hwithin hfailed (fun h => ?_) fun d hd ho => ?_
    · rcases hstore with hsame | hcommand
      · rwa [State.entry, hsame]
      · rwa [State.entry, hcommand, command_other hc]
    · rwa [hothers d (carries_of_ne hc hd)] at ho

theorem kept_step {s s' : State} {a : Action} (hI : Kept calls t k s)
    (h : step calls s a = some s') (hwithin : WithinTtl t k s') : Kept calls t k s' := by
  cases a with
  | checkRateLimit c exceeded =>
    simp only [step] at h
    split at h <;> cases h
    refine hI.keep hwithin (fun d code hd => ?_) (fun h => h) fun d _ ho => ?_
    · by_cases hdc : d = c
      · cases exceeded <;> simp [hdc] at hd
      · simp only [goto_phases, if_neg hdc] at hd
        exact hI.failed d code hd
    · by_cases hdc : d = c
      · cases exceeded <;> simp [hdc, Phase.owns, Phase.inFlight, Phase.delivered] at ho
      · simpa [hdc] using ho
  | checkIdempotency c =>
    simp only [step] at h
    split at h <;> cases h
    exact hI.check hwithin ‹_› rfl
  | respond c statusCode =>
    simp only [step] at h
    split at h <;> cases h
    exact hI.respond ‹_› hwithin
  | deleteKey c =>
    simp only [step] at h
    split at h <;> cases h
    rename_i statusCode hphase
    refine hI.finish hwithin rfl ?_ (.inr rfl)
    simpa [Phase.delivered] using hI.failed c statusCode hphase
  | fail c effective =>
    simp only [step] at h
    split at h <;> cases h
    refine hI.finish hwithin rfl rfl ?_
    cases effective
    · exact .inl rfl
    · exact .inr rfl
  | wait seconds =>
    cases h
    exact hI.keep hwithin hI.failed (fun h => h) fun _ _ ho => ho

theorem kept_initial (calls : Nat → Call) (t : Uuid) (k : String) : Kept calls t k {} := by
  refine ⟨?_, ?_, ?_, ?_⟩ <;> simp [WithinTtl, Phase.owns, Phase.inFlight, Phase.delivered]

theorem Kept.atMostOnce {s s' : State} {a : Action} (hI : Kept calls t k s)
    (hI' : Kept calls t k s') (h : step calls s a = some s') : AtMostOnce calls t k s a s' := by
  have howns : ∀ p : Phase, p.inFlight ∨ p.delivered → p.owns := by
    intro p hp
    simpa [Phase.owns] using hp
  refine ⟨fun c d hc hd hco hdo => ?_, fun c d hc hd hco hdo => ?_, fun c d hc hd hco ha => ?_⟩
  · exact hI'.unique c d hc hd (howns _ (.inr hco)) (howns _ (.inr hdo))
  · exact hI'.unique c d hc hd (howns _ (.inl hco)) (howns _ (.inl hdo))
  · obtain ⟨e, he⟩ := Option.isSome_iff_exists.mp (hI.present c hc (howns _ (.inl hco)))
    have hget : Expiring.get (s.store (IdempotencyStore.redisKey (scopedKey t k))) s.now =
        some e.value := by
      rw [show s.store _ = some e from he]
      exact Expiring.get_of_lt (hI.within e he)
    rw [ha] at h
    simp only [step] at h
    split at h <;> cases h
    simp [checkIdempotency, hd.scopedKey, IdempotencyStore.checkAndStore, hget]

/-- Within the TTL of the key, in every interleaving of the gateway's requests, at most one
request with the key receives a response below 500 and at most one is in flight. -/
theorem requests_at_most_once (calls : Nat → Call) (t : Uuid) (k : String) (as : List Action)
    (hwithin : Along (step calls) (fun _ _ s => WithinTtl t k s) {} as) :
    Along (step calls) (AtMostOnce calls t k) {} as :=
  along_imp (fun _ _ _ hI h hw => kept_step hI h hw)
    (fun _ _ _ hI h hw => hI.atMostOnce (kept_step hI h hw) h) (kept_initial calls t k) hwithin

/-- Every request executes the same workflow with the same key. -/
def sameKey : Nat → Call := fun _ =>
  { method := .post
    path := "workflows/7/execute".toList
    tenantId := Uuid.nil
    idempotencyKey := some "unique-op-abc123" }

/-- The first request fails upstream, the second is a duplicate of it; the third succeeds
after the key is deleted, and the fourth is a duplicate again. -/
def retried : List Action :=
  [.checkRateLimit 0 false, .checkRateLimit 1 false, .checkIdempotency 0, .checkIdempotency 1,
    .respond 0 503, .deleteKey 0, .wait 60, .checkRateLimit 2 false, .checkIdempotency 2,
    .checkRateLimit 3 false, .respond 2 202, .checkIdempotency 3, .checkRateLimit 4 true]

theorem requests_at_most_once_retried :
    (∃ s, run (step sameKey) {} retried = some s ∧ s.phases 1 = .done .duplicateRequest ∧
      s.phases 2 = .done (.upstream 202) ∧ s.phases 3 = .done .duplicateRequest) ∧
    Along (step sameKey) (AtMostOnce sameKey Uuid.nil "unique-op-abc123") {} retried := by
  refine ⟨exists_of_any (by decide +kernel), ?_⟩
  exact requests_at_most_once sameKey Uuid.nil "unique-op-abc123" retried (by decide +kernel)

end Sutram.Gateway.Idempotency
