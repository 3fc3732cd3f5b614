/-
The gateway as one tenant sees it.

The keys of both databases begin with the tenant, and the text of a tenant has a fixed
length, so a command of a request touches keys of its own tenant only.  The cookies of the
HTTP client are there for all, and change no more than the `Cookie` header of what is sent.
But for that, what the gateway is to a tenant is a gateway that has no other tenants.
-/
import Sutram.Gateway.System

namespace Sutram.Gateway.System

open Sutram.Core Runs Idempotency

/-! ## The tenant's part -/

/-- The request is one of the tenant. -/
def Config.serves (g : Config) (t : Uuid) (k : Client) : Bool :=
  match g.tenantOf k with
  | .ok u => u = t
  | .error _ => false

/-- The counters of a tenant. -/
def RateKey (t : Uuid) (key : String) : Prop := ("rate:" ++ t.str ++ ":").toList <+: key.toList

/-- The idempotency keys of a tenant. -/
def StoreKey (t : Uuid) (key : String) : Prop :=
  ("idempotency:" ++ t.str ++ ":").toList <+: key.toList

instance (t : Uuid) : DecidablePred (RateKey t) := fun _ => inferInstanceAs (Decidable (_ <+: _))

instance (t : Uuid) : DecidablePred (StoreKey t) := fun _ => inferInstanceAs (Decidable (_ <+: _))

/-- The phase without the cookies of the jar. -/
def Phase.bare : Phase → Phase
  | .redirect built followed => .redirect built.bare followed
  | p => p

def Sent.bare (e : Sent) : Sent := { e with built := e.built.bare }

/-- The gateway if its HTTP client kept no cookies. -/
def Config.cookieless (g : Config) : Config := { g with httpx := g.httpx.cookieless }

variable (g : Config) (clients : Nat → Client)

/-- What there is of the tenant, without the cookies of the jar. -/
def State.of (s : State) (t : Uuid) : State where
  now := s.now
  redis := Keys.part (RateKey t) s.redis
  store := Keys.part (StoreKey t) s.store
  phases c := if g.serves t (clients c) then (s.phases c).bare else .arrive
  checked := s.checked.filter fun r => g.serves t (clients r.1)
  sent := (s.sent.filter fun e => g.serves t (clients e.client)).map Sent.bare
  answered := s.answered.filter fun r => g.serves t (clients r.client)

/-- The action, if the tenant has part in it. -/
def Action.of (t : Uuid) : Action → Option Action
  | .arrive c => if g.serves t (clients c) then some (.arrive c) else none
  | .op c o => if g.serves t (clients c) then some (.op c o) else none
  | .evict key => some (.evict key)
  | .wait seconds => some (.wait seconds)

variable {g clients} {others : Nat → Client} {s s' : State} {t u : Uuid} {k : Client} {c : Nat}
  {o : Op}

theorem serves_iff : g.serves t k ↔ g.tenantOf k = .ok t := by
  unfold Config.serves
  cases g.tenantOf k <;> simp

theorem serves_of_ok (h : g.tenantOf k = .ok u) : g.serves t k ↔ u = t := by
  rw [serves_iff, h, Except.ok.injEq]

/-! ## Whose keys -/

theorem rateKey_key (n : Nat) : RateKey t (RateLimiter.key u.str n) ↔ t = u := by
  apply Uuid.begins_iff
  exact ⟨(toString n).toList, by simp [RateLimiter.key]⟩

theorem storeKey_scopedKey {key : String} (h : k.scopedKey u = some key) :
    StoreKey t (IdempotencyStore.redisKey key) ↔ t = u := by
  obtain ⟨l, rfl⟩ : ∃ l, key = scopedKey u l := by
    unfold Client.scopedKey Call.scopedKey at h
    split at h
    · obtain ⟨l, -, rfl⟩ := Option.map_eq_some_iff.mp h
      exact ⟨l, rfl⟩
    · cases h
  apply Uuid.begins_iff
  exact ⟨l.toList, by simp [IdempotencyStore.redisKey, scopedKey]⟩

/-- The script runs on a counter of the tenant. -/
theorem check_part (limit : Nat) (redis : Redis) (now : ℚ≥0) :
    RateLimiter.check limit (Keys.part (RateKey t) redis) now t.str =
      ((RateLimiter.check limit redis now t.str).1,
        Keys.part (RateKey t) (RateLimiter.check limit redis now t.str).2) := by
  have hkey := (rateKey_key (t := t) (RateLimiter.window now)).mpr rfl
  simp only [RateLimiter.check, Keys.part_update hkey, Keys.part_apply hkey]

theorem check_part_other (h : t ≠ u) (limit : Nat) (redis : Redis) (now : ℚ≥0) :
    Keys.part (RateKey t) (RateLimiter.check limit redis now u.str).2 =
      Keys.part (RateKey t) redis := by
  simp only [RateLimiter.check]
  rw [Keys.part_update_other (mt (rateKey_key _).mp h)]

/-- What is no counter of the tenant is not there for it. -/
theorem evict_part (redis : Redis) (now : ℚ≥0) (key : String) :
    Keys.part (RateKey t) (evict redis now key) =
      evict (Keys.part (RateKey t) redis) now key := by
  unfold evict
  by_cases hkey : RateKey t key
  · rw [Keys.part_apply hkey]
    split
    · exact Keys.part_remove
    · rfl
  · have hnone : Keys.part (RateKey t) redis key = none := if_neg hkey
    have hget : Expiring.get (none : Counter) (now : WithTop ℚ≥0) = none := rfl
    rw [hnone, if_pos hget, ← Keys.part_remove]
    split
    · rfl
    · exact (Keys.part_update_other hkey none).symm

theorem checkAndStore_part {store : Store} {now : Nat} {key : String}
    (h : k.scopedKey t = some key) :
    IdempotencyStore.checkAndStore (Keys.part (StoreKey t) store) now key =
      ((IdempotencyStore.checkAndStore store now key).1,
        Keys.part (StoreKey t) (IdempotencyStore.checkAndStore store now key).2) := by
  have hkey := (storeKey_scopedKey h).mpr rfl
  simp only [IdempotencyStore.checkAndStore, Keys.part_update hkey, Keys.part_apply hkey]

theorem checkAndStore_part_other (hne : t ≠ u) {store : Store} {now : Nat} {key : String}
    (h : k.scopedKey u = some key) :
    Keys.part (StoreKey t) (IdempotencyStore.checkAndStore store now key).2 =
      Keys.part (StoreKey t) store := by
  simp only [IdempotencyStore.checkAndStore]
  rw [Keys.part_update_other (mt (storeKey_scopedKey h).mp hne)]

/-! ## Operations of the tenant's requests -/

theorem of_now : (s.of g clients t).now = s.now := by simp only [State.of]

theorem of_redis : (s.of g clients t).redis = Keys.part (RateKey t) s.redis := by
  simp only [State.of]

theorem of_store : (s.of g clients t).store = Keys.part (StoreKey t) s.store := by
  simp only [State.of]

theorem of_phases (h : g.serves t (clients c)) :
    (s.of g clients t).phases c = (s.phases c).bare := by
  simp [State.of, h]

theorem of_goto (h : g.serves t (clients c)) (p : Phase) :
    (s.goto c p).of g clients t = (s.of g clients t).goto c p.bare := by
  have hphases : (fun d => if g.serves t (clients d) then (Function.update s.phases c p d).bare
      else .arrive) =
      Function.update (fun d => if g.serves t (clients d) then (s.phases d).bare else .arrive)
        c p.bare := by
    funext d
    by_cases hd : d = c
    · subst hd
      simp [h]
    · simp [hd]
  simp only [State.of, State.goto, hphases]

theorem of_goto_bare (h : g.serves t (clients c)) {p : Phase} (hp : p.bare = p) :
    (s.goto c p).of g clients t = (s.of g clients t).goto c p := by
  rw [of_goto h, hp]

theorem bare_afterCheck (lost : Bool) (result : Except RateLimitExceeded Unit) :
    (afterCheck lost result).bare = afterCheck lost result := by
  unfold afterCheck
  split <;> rfl

theorem bare_afterResponse (statusCode : Nat) :
    (afterResponse k t statusCode).bare = afterResponse k t statusCode := by
  unfold afterResponse
  split
  · rfl
  · split <;> rfl

theorem bare_afterRedirect (s' : State) (request : Proxy.UpstreamRequest) (followed : Nat)
    (r : UpstreamReply) :
    (afterRedirect g k s request followed r).bare =
      afterRedirect g.cookieless k s' request followed r := by
  unfold afterRedirect
  have hnext : g.cookieless.httpx.redirectRequest request r =
      g.httpx.redirectRequest request r := rfl
  rw [hnext]
  split
  · split
    · exact congrArg (Phase.redirect · _) (bare_build s'.replies s.now s'.now _)
    · rfl
  · rfl

theorem failed_bare (p : Phase) : failed k p.bare = failed k p := by cases p <;> rfl

theorem checkRateLimit_of (h : g.serves t (clients c)) (lost : Bool) :
    (checkRateLimit g c t s lost).of g clients t =
      checkRateLimit g.cookieless c t (s.of g clients t) lost := by
  have hlimit : g.cookieless.requestsPerMinute = g.requestsPerMinute := rfl
  simp only [checkRateLimit, of_redis, of_now, check_part, hlimit]
  obtain ⟨result, redis, hcheck⟩ : ∃ result redis,
      RateLimiter.check g.requestsPerMinute s.redis s.now t.str = (result, redis) := ⟨_, _, rfl⟩
  rw [hcheck, ← of_goto_bare h (bare_afterCheck lost result)]
  simp [State.of, h]

theorem checkIdempotency_of (h : g.serves t (clients c)) (lost : Bool) :
    (checkIdempotency k c t s lost).of g clients t =
      checkIdempotency k c t (s.of g clients t) lost := by
  unfold checkIdempotency
  cases hkey : k.scopedKey t with
  | none => exact of_goto h _
  | some key =>
    simp only [of_store, of_now, checkAndStore_part hkey]
    generalize hphase : (if lost = true then Phase.done .serverError else _) = p
    have hbare : p.bare = p := by
      rw [← hphase]
      split
      · rfl
      · split <;> rfl
    simp only [← of_goto_bare h hbare]
    simp only [State.of]

theorem send_of (h : g.serves t (clients c)) (built : Built) (followed : Nat) :
    (send c s built followed).of g clients t =
      send c (s.of g clients t) built.bare followed := by
  have hgoto := of_goto_bare (s := s) (p := .respond built.request followed) h rfl
  have hrequest : built.bare.request = built.request := rfl
  simp only [send, hrequest, ← hgoto]
  simp [State.of, Sent.bare, h]

theorem sendFirst_of (h : g.serves t (clients c)) :
    (sendFirst g k c t s).of g clients t =
      sendFirst g.cookieless k c t (s.of g clients t) := by
  have hbuilt : (s.build g (g.upstreamRequest k t)).bare =
      (s.of g clients t).build g.cookieless (g.cookieless.upstreamRequest k t) :=
    bare_build _ _ _ _
  rw [sendFirst, send_of h, hbuilt, sendFirst]

theorem deleteKey_of (h : g.serves t (clients c)) (statusCode : Nat) (lost : Bool) :
    (deleteKey k c t s statusCode lost).of g clients t =
      deleteKey k c t (s.of g clients t) statusCode lost := by
  have hgoto := of_goto_bare (s := s)
    (p := .done (if lost then .serverError else .upstream statusCode)) h rfl
  simp only [deleteKey, ← hgoto]
  cases hkey : k.scopedKey t with
  | none => simp only [State.of]
  | some key =>
    simp only [State.of, IdempotencyStore.delete,
      Keys.part_update ((storeKey_scopedKey hkey).mpr rfl)]

theorem respond_of (h : g.serves t (clients c)) (request : Proxy.UpstreamRequest)
    (followed statusCode : Nat) (headers : Headers) :
    (respond g k c t s request followed statusCode headers).of g clients t =
      respond g.cookieless k c t (s.of g clients t) request followed statusCode headers := by
  have hreplies : ∀ r : UpstreamReply,
      ({ s with answered := s.answered ++ [⟨c, followed, r⟩] } : State).of g clients t =
        { s.of g clients t with
          answered := (s.of g clients t).answered ++ [⟨c, followed, r⟩] } := by
    intro r
    simp [State.of, h]
  simp only [respond, of_now]
  rw [of_goto h, hreplies]
  congr 1
  split
  · exact bare_afterRedirect _ _ _ _
  · exact bare_afterResponse _

/-- An operation of a request of the tenant does to the tenant's part what it does to the
whole. -/
theorem perform_of (h : g.serves t (clients c)) (hstep : perform g k c t s o = some s') :
    perform g.cookieless k c t (s.of g clients t) o = some (s'.of g clients t) := by
  have hphase {p : Phase} (hp : s.phases c = p) : (s.of g clients t).phases c = p.bare := by
    rw [of_phases h, hp]
  rw [perform_eq_some_iff] at hstep ⊢
  cases hstep with
  | checkRateLimit hp =>
    rw [checkRateLimit_of h]
    exact .checkRateLimit (hphase hp)
  | checkIdempotency hp =>
    rw [checkIdempotency_of h]
    exact .checkIdempotency (hphase hp)
  | openStream hp hsse =>
    rw [of_goto h]
    exact .openStream (hphase hp) hsse
  | sendBuffered hp hsse =>
    rw [sendFirst_of h]
    exact .sendBuffered (hphase hp) hsse
  | sendStream hp =>
    rw [sendFirst_of h]
    exact .sendStream (hphase hp)
  | redirect hp =>
    rw [send_of h]
    exact .redirect (hphase hp)
  | respond hp =>
    rw [respond_of h]
    exact .respond (hphase hp)
  | deleteKey hp =>
    rw [deleteKey_of h]
    exact .deleteKey (hphase hp)
  | fail hp =>
    rw [of_goto h]
    exact .fail (by rw [of_phases h, failed_bare, hp])

/-! ## Operations of other requests -/

theorem of_goto_other (h : ¬ g.serves t (clients c)) (p : Phase) :
    (s.goto c p).of g clients t = s.of g clients t := by
  have hphases : (fun d => if g.serves t (clients d) then (Function.update s.phases c p d).bare
      else .arrive) = fun d => if g.serves t (clients d) then (s.phases d).bare else .arrive := by
    funext d
    by_cases hd : d = c
    · subst hd
      simp [h]
    · simp [hd]
  simp only [State.of, State.goto, hphases]

/-- An operation of a request of another tenant does nothing to the tenant's part. -/
theorem perform_other (hserves : ¬ g.serves t (clients c)) (hne : t ≠ u)
    (hstep : perform g k c u s o = some s') : s'.of g clients t = s.of g clients t := by
  have hgoto : ∀ p, (s.goto c p).of g clients t = s.of g clients t := of_goto_other hserves
  have hsend : ∀ built n, (send c s built n).of g clients t = s.of g clients t := by
    intro built n
    rw [← hgoto (.respond built.request n)]
    simp [State.of, send, State.goto, hserves]
  cases perform_eq_some_iff.mp hstep with
  | checkRateLimit hp =>
    simp only [checkRateLimit]
    generalize afterCheck _ _ = p
    rw [← hgoto p]
    simp [State.of, State.goto, hserves, check_part_other hne]
  | @checkIdempotency lost hp =>
    unfold checkIdempotency
    cases hkey : k.scopedKey u with
    | none => exact hgoto _
    | some key =>
      simp only
      generalize (if lost = true then Phase.done .serverError else _) = p
      rw [← hgoto p]
      simp [State.of, State.goto, checkAndStore_part_other hne hkey]
  | openStream hp hsse => exact hgoto _
  | sendBuffered hp hsse => exact hsend _ _
  | sendStream hp => exact hsend _ _
  | redirect hp => exact hsend _ _
  | respond hp =>
    simp only [respond]
    rw [of_goto_other hserves]
    simp [State.of, hserves]
  | deleteKey hp =>
    unfold deleteKey
    cases hkey : k.scopedKey u with
    | none => exact hgoto _
    | some key =>
      simp only
      generalize Phase.done _ = p
      rw [← hgoto p]
      simp [State.of, State.goto, IdempotencyStore.delete,
        Keys.part_update_other (mt (storeKey_scopedKey hkey).mp hne)]
  | fail hp => exact hgoto _

/-! ## Runs -/

/-- The gateway, seen by the tenant, is one to which only the tenant's requests come. -/
theorem projects_of
    (hsame : ∀ c, g.serves t (clients c) → others c = clients c) :
    Projects (step g clients) (step g.cookieless others) (fun s => s.of g clients t)
      (Action.of g clients t) fun _ => True := by
  refine ⟨fun _ _ => trivial, fun {s s' a b} _ hstep hact => ?_, fun {s s' a} _ hstep hact => ?_⟩
  · cases a with
    | arrive c =>
      simp only [Action.of, Option.ite_none_right_eq_some, Option.some.injEq] at hact
      obtain ⟨hc, rfl⟩ := hact
      have htenant : g.cookieless.tenantOf (clients c) = .ok t := serves_iff.mp hc
      simp only [step, stepWith, hsame c hc, serves_iff.mp hc, htenant, of_phases hc,
        of_now] at hstep ⊢
      split at hstep <;> cases hstep
      rename_i harrives
      rw [of_goto_bare hc rfl, harrives.1]
      exact if_pos ⟨rfl, harrives.2⟩
    | op c o =>
      simp only [Action.of, Option.ite_none_right_eq_some, Option.some.injEq] at hact
      obtain ⟨hc, rfl⟩ := hact
      have htenant : g.cookieless.tenantOf (clients c) = .ok t := serves_iff.mp hc
      simp only [step, stepWith, hsame c hc, serves_iff.mp hc, htenant] at hstep ⊢
      exact perform_of hc hstep
    | evict key =>
      cases hact
      cases hstep
      simp only [step, stepWith, State.of, evict_part]
    | wait seconds =>
      cases hact
      cases hstep
      simp only [step, stepWith, State.of]
  · cases a with
    | arrive c =>
      have hc : ¬ g.serves t (clients c) := fun h => by simp [Action.of, h] at hact
      simp only [step, stepWith] at hstep
      split at hstep <;> cases hstep
      exact of_goto_other hc _
    | op c o =>
      have hc : ¬ g.serves t (clients c) := fun h => by simp [Action.of, h] at hact
      simp only [step, stepWith] at hstep
      split at hstep
      · rename_i u hu
        exact perform_other hc (fun heq => hc ((serves_of_ok hu).mpr heq.symm)) hstep
      · cases hstep
    | evict key => cases hact
    | wait seconds => cases hact

theorem of_initial : ({} : State).of g clients t = {} := by
  have hredis : Keys.part (RateKey t) (fun _ => none : Redis) = fun _ => none := by
    funext key
    exact ite_self none
  have hstore : Keys.part (StoreKey t) (fun _ => none : Store) = fun _ => none := by
    funext key
    exact ite_self none
  have hphases : (fun c => if g.serves t (clients c) then Phase.arrive.bare else .arrive) =
      fun _ => Phase.arrive := by
    funext c
    exact ite_self _
  simp [State.of, hredis, hstore, hphases]

/-! ## Without cookies -/

/-- The jar has had nothing for what is sent or is about to be. -/
structure Plain (s : State) : Prop where
  phases : ∀ c, (s.phases c).bare = s.phases c
  sent : ∀ e ∈ s.sent, e.bare = e

theorem Plain.move (h : Plain s) {p : Phase} (hp : p.bare = p)
    (hphases : s'.phases = (s.goto c p).phases) (hsent : s'.sent = s.sent) : Plain s' := by
  refine ⟨fun d => ?_, hsent ▸ h.sent⟩
  rw [hphases]
  by_cases hd : d = c
  · subst hd
    simpa [State.goto] using hp
  · simpa [State.goto, hd] using h.phases d

theorem Plain.send (h : Plain s) {built : Built} (hbuilt : built.bare = built) (followed : Nat) :
    Plain (send c s built followed) := by
  have hmoved : Plain (s.goto c (.respond built.request followed)) := h.move rfl rfl rfl
  refine ⟨hmoved.phases, fun e he => ?_⟩
  rcases List.mem_append.mp he with he | he
  · exact h.sent e he
  · rw [List.mem_singleton.mp he, Sent.bare, hbuilt]

theorem bare_afterRedirect_eq_self (hreplies : ∀ r ∈ s.replies, r.setsCookies = false)
    (request : Proxy.UpstreamRequest) (followed : Nat) (r : UpstreamReply) :
    (afterRedirect g k s request followed r).bare = afterRedirect g k s request followed r := by
  unfold afterRedirect
  split
  · split
    · rw [Phase.bare, State.build, bare_build_eq_self hreplies]
    · rfl
  · rfl

theorem Plain.perform (h : Plain s) (hreplies : ∀ r ∈ s'.replies, r.setsCookies = false)
    (hbefore : ∀ r ∈ s.replies, r.setsCookies = false)
    (hstep : perform g k c t s o = some s') : Plain s' := by
  have hbuilt : ∀ request, (s.build g request).bare = s.build g request := fun request =>
    bare_build_eq_self hbefore _ _
  cases perform_eq_some_iff.mp hstep with
  | checkRateLimit hp => exact h.move (bare_afterCheck _ _) rfl rfl
  | checkIdempotency hp =>
    unfold checkIdempotency
    split
    · exact h.move rfl rfl rfl
    · refine h.move ?_ rfl rfl
      split
      · rfl
      · split <;> rfl
  | openStream hp hsse => exact h.move rfl rfl rfl
  | sendBuffered hp hsse => exact h.send (hbuilt _) 0
  | sendStream hp => exact h.send (hbuilt _) 0
  | redirect hp =>
    have hbare := h.phases c
    rw [hp] at hbare
    exact h.send (Phase.redirect.inj hbare).1 _
  | respond hp =>
    refine h.move ?_ rfl rfl
    split
    · exact bare_afterRedirect_eq_self hreplies _ _ _
    · exact bare_afterResponse _
  | deleteKey hp => exact h.move rfl rfl rfl
  | fail hp => exact h.move rfl rfl rfl

/-- Responses are not forgotten. -/
theorem replies_of_perform (hstep : perform g k c t s o = some s') : s.replies ⊆ s'.replies := by
  cases perform_eq_some_iff.mp hstep with
  | respond hp =>
    intro r hr
    simpa [respond, State.replies, State.goto] using Or.inl (List.mem_map.mp hr)
  | checkIdempotency hp =>
    unfold checkIdempotency
    split <;> exact List.Subset.refl _
  | _ => exact List.Subset.refl _

theorem plain_of_run {as : List Action} (hrun : run (step g clients) {} as = some s)
    (hreplies : ∀ r ∈ s.replies, r.setsCookies = false) : Plain s := by
  refine invariant_run (I := fun s => (∀ r ∈ s.replies, r.setsCookies = false) → Plain s)
    (G := fun _ _ => True) (fun s a s' h _ hstep hreplies => ?_)
    (fun _ => ⟨fun _ => rfl, fun _ he => by cases he⟩) (along_of_mem (fun _ _ => trivial) _)
    hrun hreplies
  cases a with
  | arrive c =>
    simp only [step, stepWith] at hstep
    split at hstep <;> cases hstep
    refine (h hreplies).move ?_ rfl rfl
    split <;> rfl
  | op c o =>
    simp only [step, stepWith] at hstep
    split at hstep
    · have hbefore : ∀ r ∈ s.replies, r.setsCookies = false := fun r hr =>
        hreplies r (replies_of_perform hstep hr)
      exact (h hbefore).perform hreplies hbefore hstep
    · cases hstep
  | evict key =>
    cases hstep
    exact ⟨(h hreplies).phases, (h hreplies).sent⟩
  | wait seconds =>
    cases hstep
    exact ⟨(h hreplies).phases, (h hreplies).sent⟩

/-! ## Two runs -/

theorem map_bare_filter (h : Plain s) (p : Sent → Bool) :
    (s.sent.filter p).map Sent.bare = s.sent.filter p := by
  rw [List.map_congr_left fun e he => h.sent e (List.mem_filter.mp he).1]
  exact List.map_id _

/-- The requests of the first client, and a watcher with no token. -/
def oneExecutes (c : Nat) : Client := if c = 1 then execute 121 none else bothExecute c

theorem tenantOf_oneExecutes (c : Nat) :
    config.tenantOf (oneExecutes c) =
      if c = 1 then .error (.httpException 401 "missing_token") else .ok (.repdigit 1) := by
  unfold oneExecutes
  split
  · decide +kernel
  · rename_i hc
    rw [tenantOf_bothExecute, bothTenants, if_neg hc]

def oneServed : List Action :=
  [.wait 120, .arrive 0, .wait 1, .arrive 1] ++
    served 0 [.op 0 (.respond 307
        [("Location", "http://workflow-service:8001/v1/workflows/7/execute/")]),
      .op 0 .forward, .op 0 (.respond 202 [])] ++
    [.wait 1, .arrive 2, .op 2 (.checkRateLimit false)]

end Sutram.Gateway.System
