/-
What reaches the downstream services.

The limiter's part of the gateway is the limiter with its pods, so its counts hold here
too.  A request is sent once at most, for the tenant its token names, and only after the
limiter has admitted it; each further request for it follows a redirect that has answered
the one before.
-/
import Sutram.Gateway.System

namespace Sutram.Gateway.System

open Sutram.Core Runs Idempotency

variable {g : Config} {clients : Nat → Client} {s s' : State} {t : Uuid} {k : Client} {c : Nat}
  {o : Op}

/-! ## The limiter's part -/

def State.limiter (s : State) : RateLimiter.World where
  redis := s.redis
  clock := s.now
  answers := s.checked.map Prod.snd

variable (g clients) in
/-- What the limiter does at an action. -/
def Action.limiter : Action → Option RateLimiter.Action
  | .op c (.checkRateLimit _) =>
    match g.tenantOf (clients c) with
    | .ok t => some (.check c t.str)
    | .error _ => none
  | .evict key => some (.evict key)
  | .wait seconds => some (.wait seconds)
  | _ => none

/-- Everything but the check leaves the limiter alone. -/
theorem limiter_of_perform (ho : ∀ lost, o ≠ .checkRateLimit lost)
    (hstep : perform g k c t s o = some s') : s'.limiter = s.limiter := by
  cases perform_eq_some_iff.mp hstep with
  | checkRateLimit hphase => exact absurd rfl (ho _)
  | checkIdempotency hphase =>
    unfold checkIdempotency
    split <;> rfl
  | _ => rfl

theorem projects_limiter :
    Projects (step g clients) (RateLimiter.step g.requestsPerMinute) State.limiter
      (Action.limiter g clients) fun _ => True := by
  refine ⟨fun _ _ => trivial, fun {s s' a b} _ hstep hact => ?_, fun {s s' a} _ hstep hact => ?_⟩
  · cases a with
    | arrive c => cases hact
    | op c o =>
      cases o with
      | checkRateLimit lost =>
        cases htenant : g.tenantOf (clients c) with
        | error e => simp [Action.limiter, htenant] at hact
        | ok t =>
          simp only [Action.limiter, htenant, Option.some.injEq] at hact
          subst hact
          simp only [step, stepWith, htenant, perform] at hstep
          split at hstep <;> cases hstep
          simp [RateLimiter.step, State.limiter, checkRateLimit, State.goto]
      | _ => cases hact
    | evict key =>
      cases hact
      cases hstep
      unfold evict
      by_cases hgone : Expiring.get (s.redis key) ((s.now : ℚ≥0) : WithTop ℚ≥0) = none
      · rw [if_pos hgone]
        exact if_pos hgone
      · rw [if_neg hgone]
        exact if_neg hgone
    | wait seconds =>
      cases hact
      cases hstep
      simp [RateLimiter.step, State.limiter]
  · cases a with
    | arrive c =>
      simp only [step, stepWith] at hstep
      split at hstep <;> cases hstep
      rfl
    | op c o =>
      simp only [step, stepWith] at hstep
      split at hstep
      · rename_i t htenant
        refine limiter_of_perform (fun lost ho => ?_) hstep
        subst ho
        simp [Action.limiter, htenant] at hact
      · cases hstep
    | evict key => cases hact
    | wait seconds => cases hact

/-- The counters agree with the calls there have been. -/
theorem counted_of_run {as : List Action} (hrun : run (step g clients) {} as = some s) :
    RateLimiter.Counted g.requestsPerMinute s.limiter := by
  have hlimiter := projects_limiter.run trivial hrun
  refine invariant_run (G := fun _ _ => True) (fun _ _ _ hI _ h => RateLimiter.counted_step hI h)
    (RateLimiter.counted_initial _ _) ?_ hlimiter
  exact along_of_mem (fun _ _ => trivial) _

/-! ## The way of a request -/

def Phase.unchecked : Phase → Bool
  | .arrive | .checkRateLimit | .done (.refused _) => true
  | _ => false

/-- The limiter has let the request through. -/
def Phase.admitted : Phase → Bool
  | .checkIdempotency | .forward | .openStream | .respond _ _ | .redirect _ _ | .deleteKey _ => true
  | _ => false

def Answer.refusal : Answer → Bool
  | .refused _ | .rateLimitExceeded | .duplicateRequest => true
  | _ => false

/-- Nothing has been sent for the request. -/
def Phase.unsent : Phase → Bool
  | .arrive | .checkRateLimit | .checkIdempotency | .forward | .openStream => true
  | .respond _ _ | .redirect _ _ | .deleteKey _ => false
  | .done a => a.refusal

/-- httpx is at work for the call. -/
def Phase.sending : Phase → Bool
  | .respond _ _ | .redirect _ _ => true
  | _ => false

/-- The call of the limiter that has let the request through. -/
def State.admitted (s : State) (c : Nat) : Option RateLimiter.Call :=
  (s.checked.find? fun r => r.1 = c ∧ r.2.2).map fun r => r.2.1

/-- Who is checked, and who is sent. -/
structure Admission (g : Config) (clients : Nat → Client) (s : State) : Prop where
  checked : (s.checked.map Prod.fst).Nodup
  unchecked : ∀ c, (s.phases c).unchecked → c ∉ s.checked.map Prod.fst
  admitted : ∀ c, (s.phases c).admitted ∨ c ∈ s.sent.map Sent.client →
    ∃ t time, g.tenantOf (clients c) = .ok t ∧ (c, ⟨t.str, time⟩, true) ∈ s.checked
  unsent : ∀ c, (s.phases c).unsent → c ∉ s.sent.map Sent.client

theorem admission_initial : Admission g clients {} := by
  refine ⟨List.nodup_nil, ?_, ?_, ?_⟩ <;> simp [Phase.admitted]

/-- What an operation is to the limiter: the check, a sending, or a move that is neither. -/
inductive Moved (g : Config) (c : Nat) (t : Uuid) (s : State) : State → Prop where
  | check (lost : Bool) (hphase : s.phases c = .checkRateLimit) :
    Moved g c t s (checkRateLimit g c t s lost)
  | send {built : Built} {followed : Nat} (hadmitted : (s.phases c).admitted) :
    Moved g c t s (send c s built followed)
  | move {p : Phase} {store : Store} {answered : List Answered} (hunchecked : p.unchecked = false)
    (hadmitted : p.admitted → (s.phases c).admitted)
    (hunsent : p.unsent → (s.phases c).unsent) :
    Moved g c t s { s.goto c p with store := store, answered := answered }

theorem refusal_raised (k : Client) : k.raised.refusal = false := by
  unfold Client.raised
  split <;> rfl

theorem refusal_of_failed {p : Phase} {a : Answer} (h : failed k p = some a) :
    a.refusal = false := by
  cases p <;> cases h <;> first | rfl | exact refusal_raised k

/-- Who is not refused has been checked. -/
theorem unchecked_done {a : Answer} (h : a.refusal = false) :
    Phase.unchecked (.done a) = false := by
  cases a <;> first | rfl | cases h

/-- Where a response leads: to the next request, or to the end of the call. -/
theorem respond_cases (request : Proxy.UpstreamRequest) (followed statusCode : Nat)
    (headers : Headers) :
    ∃ r : UpstreamReply, ∃ p, respond g k c t s request followed statusCode headers =
        { s.goto c p with answered := s.answered ++ [⟨c, followed, r⟩] } ∧
      ((∃ built, r.redirects = true ∧ followed < maxRedirects ∧
          g.httpx.redirectRequest request r = some built.request ∧
          p = .redirect built (followed + 1)) ∨
        (∃ n, p = .deleteKey n) ∨ ∃ a, a.refusal = false ∧ p = .done a) := by
  refine ⟨⟨s.now, request.url, statusCode, headers⟩, _, rfl, ?_⟩
  split
  · rename_i hredirects
    unfold afterRedirect
    split
    · rename_i next hnext
      split
      · exact .inl ⟨_, hredirects, ‹_›, hnext, rfl⟩
      · exact .inr (.inr ⟨_, refusal_raised k, rfl⟩)
    · exact .inr (.inr ⟨_, refusal_raised k, rfl⟩)
  · unfold afterResponse
    split
    · exact .inr (.inr ⟨_, rfl, rfl⟩)
    · split
      · exact .inr (.inl ⟨_, rfl⟩)
      · exact .inr (.inr ⟨_, rfl, rfl⟩)

theorem moved_of_perform (hstep : perform g k c t s o = some s') : Moved g c t s s' := by
  cases perform_eq_some_iff.mp hstep with
  | checkRateLimit hphase => exact .check _ hphase
  | checkIdempotency hphase =>
    unfold checkIdempotency
    split
    · exact .move rfl (fun _ => by rw [hphase]; rfl) fun _ => by rw [hphase]; rfl
    · refine .move ?_ (fun _ => by rw [hphase]; rfl) fun _ => by rw [hphase]; rfl
      split
      · rfl
      · split <;> rfl
  | openStream hphase =>
    exact .move rfl (fun _ => by rw [hphase]; rfl) fun _ => by rw [hphase]; rfl
  | sendBuffered hphase => exact .send (by rw [hphase]; rfl)
  | sendStream hphase => exact .send (by rw [hphase]; rfl)
  | redirect hphase => exact .send (by rw [hphase]; rfl)
  | respond hphase =>
    obtain ⟨r, p, hrespond, hp⟩ :=
      respond_cases (g := g) (k := k) (c := c) (t := t) (s := s) _ _ _ _
    rw [hrespond]
    have hadmitted : p.admitted → (s.phases c).admitted := fun _ => by rw [hphase]; rfl
    obtain ⟨built, -, -, -, rfl⟩ | ⟨n, rfl⟩ | ⟨a, ha, rfl⟩ := hp
    · exact .move rfl hadmitted nofun
    · exact .move rfl hadmitted nofun
    · exact .move (unchecked_done ha) hadmitted fun h => by simp [Phase.unsent, ha] at h
  | @deleteKey _ lost _ => cases lost <;> exact .move rfl nofun nofun
  | fail hphase =>
    have hrefusal := refusal_of_failed hphase
    exact .move (unchecked_done hrefusal) nofun fun h => by simp [Phase.unsent, hrefusal] at h

/-! ## One step -/

theorem goto_phases (p : Phase) (d : Nat) :
    (s.goto c p).phases d = if d = c then p else s.phases d := by
  simp only [State.goto, Function.update_apply]

/-- Nobody is checked and nothing is sent. -/
theorem Admission.move (h : Admission g clients s) {p : Phase} {store : Store}
    {answered : List Answered} (hunchecked : p.unchecked → (s.phases c).unchecked)
    (hadmitted : p.admitted → (s.phases c).admitted)
    (hunsent : p.unsent → (s.phases c).unsent) :
    Admission g clients { s.goto c p with store := store, answered := answered } := by
  refine ⟨h.checked, fun d hd => h.unchecked d ?_, fun d hd => h.admitted d ?_,
    fun d hd => h.unsent d ?_⟩
  · change ((s.goto c p).phases d).unchecked at hd
    rw [goto_phases] at hd
    split at hd
    · rename_i hdc
      exact hdc ▸ hunchecked hd
    · exact hd
  · refine hd.imp_left fun hd => ?_
    change ((s.goto c p).phases d).admitted at hd
    rw [goto_phases] at hd
    split at hd
    · rename_i hdc
      exact hdc ▸ hadmitted hd
    · exact hd
  · change ((s.goto c p).phases d).unsent at hd
    rw [goto_phases] at hd
    split at hd
    · rename_i hdc
      exact hdc ▸ hunsent hd
    · exact hd

/-- Nobody passes whom the script refuses. -/
theorem isOk_of_afterCheck {lost : Bool} {result : Except RateLimitExceeded Unit}
    (h : (afterCheck lost result).admitted) : result.isOk = true := by
  cases lost
  · cases result with
    | ok _ => rfl
    | error _ => cases h
  · cases h

theorem unchecked_afterCheck (lost : Bool) (result : Except RateLimitExceeded Unit) :
    (afterCheck lost result).unchecked = false := by
  cases lost
  · cases result <;> rfl
  · rfl

theorem Admission.check (h : Admission g clients s) (htenant : g.tenantOf (clients c) = .ok t)
    (hphase : s.phases c = .checkRateLimit) (lost : Bool) :
    Admission g clients (checkRateLimit g c t s lost) := by
  unfold System.checkRateLimit
  obtain ⟨result, redis, hcheck⟩ : ∃ result redis,
      RateLimiter.check g.requestsPerMinute s.redis s.now t.str = (result, redis) := ⟨_, _, rfl⟩
  rw [hcheck]
  have hunchecked := unchecked_afterCheck lost result
  have hnew : c ∉ s.checked.map Prod.fst := h.unchecked c (by rw [hphase]; rfl)
  have hunsent : c ∉ s.sent.map Sent.client := h.unsent c (by rw [hphase]; rfl)
  refine ⟨?_, fun d hd => ?_, fun d hd => ?_, fun d hd => ?_⟩
  · simp only [List.map_append, List.map_singleton]
    exact List.nodup_append.mpr ⟨h.checked, List.nodup_singleton c, fun a ha b hb hab => by
      simp only [List.mem_singleton] at hb
      exact hnew (hb ▸ hab ▸ ha)⟩
  · have hdc : d ≠ c := by
      rintro rfl
      simp [goto_phases, hunchecked] at hd
    simp only [goto_phases, if_neg hdc] at hd
    simp [h.unchecked d hd, hdc]
  · by_cases hdc : d = c
    · subst hdc
      rcases hd with hd | hd
      · simp only [goto_phases, if_true] at hd
        exact ⟨t, s.now, htenant, by simp [isOk_of_afterCheck hd]⟩
      · exact absurd hd hunsent
    · simp only [goto_phases, if_neg hdc] at hd
      obtain ⟨u, time, hu, hmem⟩ := h.admitted d hd
      exact ⟨u, time, hu, List.mem_append_left _ hmem⟩
  · by_cases hdc : d = c
    · exact hdc ▸ hunsent
    · simp only [goto_phases, if_neg hdc] at hd
      exact h.unsent d hd

theorem Admission.send (h : Admission g clients s) (hadmitted : (s.phases c).admitted)
    (built : Built) (followed : Nat) : Admission g clients (send c s built followed) := by
  unfold System.send
  refine ⟨h.checked, fun d hd => ?_, fun d hd => ?_, fun d hd => ?_⟩
  · have hdc : d ≠ c := by
      rintro rfl
      simp [goto_phases, Phase.unchecked] at hd
    simp only [goto_phases, if_neg hdc] at hd
    exact h.unchecked d hd
  · by_cases hdc : d = c
    · exact hdc ▸ h.admitted c (.inl hadmitted)
    · simp only [goto_phases, if_neg hdc] at hd
      refine h.admitted d (hd.imp_right fun hd => ?_)
      simpa [hdc] using hd
  · have hdc : d ≠ c := by
      rintro rfl
      simp [goto_phases, Phase.unsent] at hd
    simp only [goto_phases, if_neg hdc] at hd
    simpa [hdc] using h.unsent d hd

theorem Admission.step (h : Admission g clients s) {a : Action}
    (hstep : step g clients s a = some s') : Admission g clients s' := by
  cases a with
  | arrive c =>
    simp only [System.step, stepWith] at hstep
    split at hstep <;> cases hstep
    rename_i harrives
    refine h.move (fun _ => by rw [harrives.1]; rfl) ?_ fun _ => by rw [harrives.1]; rfl
    cases g.tenantOf (clients c) <;> exact nofun
  | op c o =>
    simp only [System.step, stepWith] at hstep
    split at hstep
    · rename_i t htenant
      cases moved_of_perform hstep with
      | check lost hphase => exact h.check htenant hphase lost
      | send hadmitted => exact h.send hadmitted _ _
      | move hunchecked hadmitted hunsent =>
        exact h.move (by simp [hunchecked]) hadmitted hunsent
    · cases hstep
  | evict key =>
    cases hstep
    exact ⟨h.checked, h.unchecked, h.admitted, h.unsent⟩
  | wait seconds =>
    cases hstep
    exact ⟨h.checked, h.unchecked, h.admitted, h.unsent⟩

theorem admission_of_run {as : List Action} (hrun : run (step g clients) {} as = some s) :
    Admission g clients s :=
  invariant_run (G := fun _ _ => True) (fun _ _ _ hI _ h => hI.step h) admission_initial
    (along_of_mem (fun _ _ => trivial) _) hrun

/-! ## What is sent -/

variable (g clients) in
/-- What a call asks for after this number of redirects: what the gateway has built for the
tenant, or a redirect that has answered the request before. -/
def State.Asks (s : State) (t : Uuid) (c : Nat) (request : Proxy.UpstreamRequest) : Nat → Prop
  | 0 => request = g.upstreamRequest (clients c) t
  | n + 1 => ∃ e ∈ s.sent, ∃ r ∈ s.answered, e.place = (c, n) ∧ r.place = (c, n) ∧
    r.reply.redirects ∧ g.httpx.redirectRequest e.built.request r.reply = some request

/-- The requests that go downstream for a call. -/
structure Forwarding (g : Config) (clients : Nat → Client) (s : State) : Prop where
  nodup : (s.sent.map Sent.place).Nodup
  content : ∀ e ∈ s.sent, e.followed ≤ maxRedirects ∧ ∃ t, g.tenantOf (clients e.client) = .ok t ∧
    s.Asks g clients t e.client e.built.request e.followed
  respond : ∀ c request n, s.phases c = .respond request n →
    (∃ e ∈ s.sent, e.place = (c, n) ∧ e.built.request = request) ∧
      ∀ e ∈ s.sent, e.client = c → e.followed ≤ n
  redirect : ∀ c built n, s.phases c = .redirect built n → n ≤ maxRedirects ∧
    (∀ e ∈ s.sent, e.client = c → e.followed < n) ∧
      ∃ t, g.tenantOf (clients c) = .ok t ∧ s.Asks g clients t c built.request n

theorem forwarding_initial : Forwarding g clients {} := by
  refine ⟨List.nodup_nil, ?_, ?_, ?_⟩ <;> simp

theorem State.Asks.mono {request : Proxy.UpstreamRequest} {n : Nat}
    (h : s.Asks g clients t c request n) (hsent : s.sent ⊆ s'.sent)
    (hanswered : s.answered ⊆ s'.answered) : s'.Asks g clients t c request n := by
  cases n with
  | zero => exact h
  | succ n =>
    obtain ⟨e, he, r, hr, hrest⟩ := h
    exact ⟨e, hsent he, r, hanswered hr, hrest⟩

/-- A step that sends nothing, and after which httpx is not at work for the call `c`. -/
theorem Forwarding.move (h : Forwarding g clients s) {p : Phase} (hsent : s'.sent = s.sent)
    (hanswered : s.answered ⊆ s'.answered) (hphases : s'.phases = (s.goto c p).phases)
    (hp : p.sending = false) : Forwarding g clients s' := by
  have hasks : ∀ {u d request n}, s.Asks g clients u d request n →
      s'.Asks g clients u d request n := fun hask =>
    hask.mono (hsent ▸ List.Subset.refl _) hanswered
  refine ⟨hsent ▸ h.nodup, fun e he => ?_, fun d request n hd => ?_, fun d built n hd => ?_⟩
  · obtain ⟨hle, u, hu, hask⟩ := h.content e (hsent ▸ he)
    exact ⟨hle, u, hu, hasks hask⟩
  · rw [hphases, goto_phases] at hd
    split at hd
    · simp [hd, Phase.sending] at hp
    · rw [hsent]
      exact h.respond d request n hd
  · rw [hphases, goto_phases] at hd
    split at hd
    · simp [hd, Phase.sending] at hp
    · obtain ⟨hle, hlt, u, hu, hask⟩ := h.redirect d built n hd
      rw [hsent]
      exact ⟨hle, hlt, u, hu, hasks hask⟩

theorem Forwarding.send (h : Forwarding g clients s) (htenant : g.tenantOf (clients c) = .ok t)
    {built : Built} {n : Nat} (hle : n ≤ maxRedirects)
    (hlt : ∀ e ∈ s.sent, e.client = c → e.followed < n)
    (hask : s.Asks g clients t c built.request n) :
    Forwarding g clients (send c s built n) := by
  have hgrow : s.sent ⊆ (System.send c s built n).sent := List.subset_append_left _ _
  refine ⟨?_, fun e he => ?_, fun d request m hd => ?_, fun d b m hd => ?_⟩
  · have hnew : (c, n) ∉ s.sent.map Sent.place := fun hmem => by
      obtain ⟨e, he, hplace⟩ := List.mem_map.mp hmem
      cases hplace
      exact absurd (hlt e he rfl) (lt_irrefl _)
    simpa [System.send, List.nodup_append, Sent.place] using
      ⟨h.nodup, by simpa [Sent.place] using hnew⟩
  · rcases List.mem_append.mp he with he | he
    · obtain ⟨hle, u, hu, hask⟩ := h.content e he
      exact ⟨hle, u, hu, hask.mono hgrow (List.Subset.refl _)⟩
    · obtain rfl := List.mem_singleton.mp he
      exact ⟨hle, t, htenant, hask.mono hgrow (List.Subset.refl _)⟩
  · by_cases hdc : d = c
    · subst hdc
      simp only [System.send, goto_phases, if_true, Phase.respond.injEq] at hd
      obtain ⟨rfl, rfl⟩ := hd
      refine ⟨⟨⟨d, n, built⟩, by simp [System.send], rfl, rfl⟩, fun e he hec => ?_⟩
      rcases List.mem_append.mp he with he | he
      · exact (hlt e he hec).le
      · rw [List.mem_singleton.mp he]
    · simp only [System.send, goto_phases, if_neg hdc] at hd
      obtain ⟨⟨e, he, hplace⟩, hall⟩ := h.respond d request m hd
      refine ⟨⟨e, hgrow he, hplace⟩, fun e' he' hed => ?_⟩
      rcases List.mem_append.mp he' with he' | he'
      · exact hall e' he' hed
      · rw [List.mem_singleton.mp he'] at hed
        exact absurd hed.symm hdc
  · have hdc : d ≠ c := by
      rintro rfl
      simp [System.send, goto_phases] at hd
    simp only [System.send, goto_phases, if_neg hdc] at hd
    obtain ⟨hle, hall, u, hu, hask⟩ := h.redirect d b m hd
    refine ⟨hle, fun e he hed => ?_, u, hu, hask.mono hgrow (List.Subset.refl _)⟩
    rcases List.mem_append.mp he with he | he
    · exact hall e he hed
    · rw [List.mem_singleton.mp he] at hed
      exact absurd hed.symm hdc

/-- The answer to a request, which leads to the next one or ends the call. -/
theorem Forwarding.answer (h : Forwarding g clients s) (htenant : g.tenantOf (clients c) = .ok t)
    {request : Proxy.UpstreamRequest} {n : Nat} (hphase : s.phases c = .respond request n)
    (statusCode : Nat) (headers : Headers) :
    Forwarding g clients (System.respond g (clients c) c t s request n statusCode headers) := by
  obtain ⟨r, p, hrespond, hp⟩ := respond_cases (g := g) (k := clients c) (c := c) (t := t) (s := s)
    request n statusCode headers
  rw [hrespond]
  have hgrow : s.answered ⊆ s.answered ++ [⟨c, n, r⟩] := List.subset_append_left _ _
  obtain ⟨built, hredirects, hn, hbuilt, rfl⟩ | ⟨status, rfl⟩ | ⟨a, -, rfl⟩ := hp
  · refine ⟨h.nodup, fun e he => ?_, fun d request m hd => ?_, fun d b m hd => ?_⟩
    · obtain ⟨hle, u, hu, hask⟩ := h.content e he
      exact ⟨hle, u, hu, hask.mono (List.Subset.refl _) hgrow⟩
    · have hdc : d ≠ c := by
        rintro rfl
        simp [goto_phases] at hd
      simp only [goto_phases, if_neg hdc] at hd
      exact h.respond d request m hd
    · by_cases hdc : d = c
      · subst hdc
        simp only [goto_phases, if_true, Phase.redirect.injEq] at hd
        obtain ⟨rfl, rfl⟩ := hd
        obtain ⟨⟨e, he, hplace, rfl⟩, hall⟩ := h.respond d request n hphase
        refine ⟨hn, fun e he hed => Nat.lt_succ_of_le (hall e he hed), t, htenant, ?_⟩
        exact ⟨e, he, ⟨d, n, r⟩, by simp, hplace, rfl, hredirects, hbuilt⟩
      · simp only [goto_phases, if_neg hdc] at hd
        obtain ⟨hle, hall, u, hu, hask⟩ := h.redirect d b m hd
        exact ⟨hle, hall, u, hu, hask.mono (List.Subset.refl _) hgrow⟩
  · exact h.move rfl hgrow rfl rfl
  · exact h.move rfl hgrow rfl rfl

theorem Forwarding.step (h : Forwarding g clients s) (hadmission : Admission g clients s)
    {a : Action} (hstep : step g clients s a = some s') : Forwarding g clients s' := by
  cases a with
  | arrive c =>
    simp only [System.step, stepWith] at hstep
    split at hstep <;> cases hstep
    refine h.move rfl (List.Subset.refl _) rfl ?_
    split <;> rfl
  | op c o =>
    simp only [System.step, stepWith] at hstep
    split at hstep
    · rename_i t htenant
      have hfirst : (s.phases c).unsent → Forwarding g clients (sendFirst g (clients c) c t s) :=
        fun hunsent => h.send htenant (Nat.zero_le _)
          (fun e he hec => absurd (List.mem_map.mpr ⟨e, he, hec⟩) (hadmission.unsent c hunsent)) rfl
      cases perform_eq_some_iff.mp hstep with
      | checkRateLimit hphase =>
        refine h.move rfl (List.Subset.refl _) rfl ?_
        unfold afterCheck
        split <;> rfl
      | checkIdempotency hphase =>
        unfold checkIdempotency
        split
        · exact h.move rfl (List.Subset.refl _) rfl rfl
        · refine h.move rfl (List.Subset.refl _) rfl ?_
          split
          · rfl
          · split <;> rfl
      | openStream hphase => exact h.move rfl (List.Subset.refl _) rfl rfl
      | sendBuffered hphase => exact hfirst (by rw [hphase]; rfl)
      | sendStream hphase => exact hfirst (by rw [hphase]; rfl)
      | redirect hphase =>
        obtain ⟨hle, hlt, u, hu, hask⟩ := h.redirect c _ _ hphase
        exact h.send hu hle hlt hask
      | respond hphase => exact h.answer htenant hphase _ _
      | deleteKey hphase => exact h.move rfl (List.Subset.refl _) rfl rfl
      | fail hphase => exact h.move rfl (List.Subset.refl _) rfl rfl
    · cases hstep
  | evict key =>
    cases hstep
    exact ⟨h.nodup, h.content, h.respond, h.redirect⟩
  | wait seconds =>
    cases hstep
    exact ⟨h.nodup, h.content, h.respond, h.redirect⟩

theorem forwarding_of_run {as : List Action} (hrun : run (step g clients) {} as = some s) :
    Forwarding g clients s :=
  (invariant_run (I := fun s => Admission g clients s ∧ Forwarding g clients s)
    (G := fun _ _ => True) (fun _ _ _ hI _ h => ⟨hI.1.step h, hI.2.step hI.1 h⟩)
    ⟨admission_initial, forwarding_initial⟩ (along_of_mem (fun _ _ => trivial) _) hrun).2

/-! ## How much is sent -/

/-- The calls that have gone downstream. -/
def State.forwarded (s : State) : List Nat :=
  (s.sent.filter fun e => e.followed = 0).map Sent.client

/-- The calls of the limiter for them. -/
def State.calls (s : State) : List RateLimiter.Call := s.forwarded.filterMap s.admitted

theorem Forwarding.nodup_forwarded (h : Forwarding g clients s) : s.forwarded.Nodup := by
  have hplaces : (s.sent.filter fun e => e.followed = 0).map Sent.place =
      s.forwarded.map fun c => (c, 0) := by
    rw [State.forwarded, List.map_map]
    refine List.map_congr_left fun e he => ?_
    have hfollowed : e.followed = 0 := by simpa using (List.mem_filter.mp he).2
    rw [Sent.place, hfollowed]
    rfl
  have hnodup : ((s.sent.filter fun e => e.followed = 0).map Sent.place).Nodup :=
    h.nodup.sublist (List.filter_sublist.map Sent.place)
  rw [hplaces] at hnodup
  exact hnodup.of_map

theorem Admission.admitted_of_sent (h : Admission g clients s) (hc : c ∈ s.sent.map Sent.client) :
    ∃ t call, g.tenantOf (clients c) = .ok t ∧ s.admitted c = some call ∧
      call.tenantId = t.str := by
  obtain ⟨t, time, htenant, hmem⟩ := h.admitted c (.inr hc)
  have hsome : (s.checked.find? fun r => r.1 = c ∧ r.2.2).isSome := by
    rw [List.find?_isSome]
    exact ⟨_, hmem, by simp⟩
  obtain ⟨r, hr⟩ := Option.isSome_iff_exists.mp hsome
  have hfound : r.1 = c ∧ r.2.2 := by simpa using List.find?_some hr
  -- The request is checked once, so the entry found is the one above.
  have hsame : r = (c, ⟨t.str, time⟩, true) :=
    List.inj_on_of_nodup_map h.checked (List.mem_of_find?_eq_some hr) hmem hfound.1
  exact ⟨t, r.2.1, htenant, congrArg (Option.map _) hr, by rw [hsame]⟩

/-- Of the requests sent, no more have calls of a kind than calls of the kind were
admitted. -/
theorem Forwarding.countP_calls_le (h : Forwarding g clients s) (p : RateLimiter.Call → Bool) :
    s.calls.countP p ≤ (s.checked.map Prod.snd).countP fun e => e.2 ∧ p e.1 := by
  let entry : Nat → Option (Nat × RateLimiter.Call × Bool) := fun c =>
    s.checked.find? fun r => r.1 = c ∧ r.2.2
  have hfound : ∀ {c r}, entry c = some r → r.1 = c ∧ r.2.2 := fun hr => by
    simpa using List.find?_some hr
  have hcalls : s.calls = (s.forwarded.filterMap entry).map fun r => r.2.1 := by
    rw [List.map_filterMap]
    rfl
  have hsubperm : (s.forwarded.filterMap entry).Subperm s.checked := by
    refine List.subperm_of_subset ?_ fun r hr => ?_
    · refine h.nodup_forwarded.filterMap fun c d r hc hd => ?_
      exact (hfound hc).1.symm.trans (hfound hd).1
    · obtain ⟨c, -, hc⟩ := List.mem_filterMap.mp hr
      exact List.mem_of_find?_eq_some hc
  calc s.calls.countP p
      = (s.forwarded.filterMap entry).countP fun r => r.2.2 ∧ p r.2.1 := by
        rw [hcalls, List.countP_map]
        refine List.countP_congr fun r hr => ?_
        obtain ⟨c, -, hc⟩ := List.mem_filterMap.mp hr
        simp [(hfound hc).2]
    _ ≤ s.checked.countP fun r => r.2.2 ∧ p r.2.1 := hsubperm.countP_le _
    _ = (s.checked.map Prod.snd).countP fun e => e.2 ∧ p e.1 := by
        rw [List.countP_map]
        rfl

/-- A request goes downstream once, as it is built for its tenant and after the limiter has
admitted it, and once more for each redirect that answers it, 20 times at most; one that is
refused is not sent.  Of a tenant's requests no more are sent than the limit for each minute
of the clock, and twice the limit for sixty seconds. -/
theorem sent_of_run {as : List Action} (hrun : run (step g clients) {} as = some s) :
    (s.sent.map Sent.place).Nodup ∧
      (∀ e ∈ s.sent, e.followed ≤ maxRedirects ∧
        ∃ t call, g.tenantOf (clients e.client) = .ok t ∧
          s.Asks g clients t e.client e.built.request e.followed ∧
          s.admitted e.client = some call ∧ call.tenantId = t.str) ∧
      (∀ c a, s.phases c = .done a → a.refusal → c ∉ s.sent.map Sent.client) ∧
      (∀ t n, s.calls.countP (fun call =>
        call.tenantId = t ∧ RateLimiter.window call.time = n) ≤ g.requestsPerMinute) ∧
      ∀ t start, s.calls.countP (fun call =>
        call.tenantId = t ∧ start ≤ call.time ∧ call.time ≤ start + 60) ≤
          2 * g.requestsPerMinute := by
  have h := admission_of_run hrun
  have hsent := forwarding_of_run hrun
  have hdecided : s.checked.map Prod.snd = Quota.decisions RateLimiter.Call.slot
      g.requestsPerMinute ((s.checked.map Prod.snd).map Prod.fst) := (counted_of_run hrun).decided
  refine ⟨hsent.nodup, fun e he => ?_, fun c a hphase ha => ?_, fun t n => ?_, fun t start => ?_⟩
  · obtain ⟨hle, t, htenant, hask⟩ := hsent.content e he
    obtain ⟨u, call, hu, hcall, hid⟩ := h.admitted_of_sent (List.mem_map_of_mem he)
    cases htenant.symm.trans hu
    exact ⟨hle, t, call, htenant, hask, hcall, hid⟩
  · exact h.unsent c (by rw [hphase]; exact ha)
  · refine (hsent.countP_calls_le _).trans ?_
    have hgranted : (s.checked.map Prod.snd).countP (fun e => e.2 ∧ e.1.slot = (t, n)) ≤
        g.requestsPerMinute := by
      rw [hdecided]
      exact (Quota.granted_decisions (t, n) _).trans_le (Nat.min_le_left _ _)
    simpa only [RateLimiter.Call.slot, Prod.mk.injEq, decide_eq_true_eq] using hgranted
  · refine (hsent.countP_calls_le _).trans ?_
    rw [hdecided]
    refine Quota.countP_le_two_classes (t, RateLimiter.window start)
      (t, RateLimiter.window start + 1) _ fun e _ he => ?_
    obtain ⟨hgranted, htenant, hfrom, hto⟩ : e.2 ∧ e.1.tenantId = t ∧ start ≤ e.1.time ∧
      e.1.time ≤ start + 60 := by simpa using he
    refine ⟨hgranted, ?_⟩
    simp only [RateLimiter.Call.slot, Prod.mk.injEq]
    exact (RateLimiter.window_of_within hfrom hto).imp (⟨htenant, ·⟩) (⟨htenant, ·⟩)

/-- The first client comes three times within a minute and is let through once; its request
is redirected. -/
theorem sent_of_run_served :
    ∃ s, run (step config bothExecute) {} bothServed = some s ∧
      s.sent.map Sent.place = [(1, 0), (0, 0), (0, 1)] ∧
      s.phases 2 = .done .rateLimitExceeded ∧
      s.calls.countP (fun call =>
        call.tenantId = (Uuid.repdigit 1).str ∧ RateLimiter.window call.time = 2) ≤ 1 := by
  obtain ⟨s, hrun, hsent⟩ : ∃ s, run (step config bothExecute) {} bothServed = some s ∧
      (s.sent.map Sent.place = [(1, 0), (0, 0), (0, 1)] ∧
        s.phases 2 = .done .rateLimitExceeded) := by
    rw [step_bothExecute]
    exact exists_of_any (by decide +kernel)
  exact ⟨s, hrun, hsent.1, hsent.2, (sent_of_run hrun).2.2.2.1 _ 2⟩

end Sutram.Gateway.System
