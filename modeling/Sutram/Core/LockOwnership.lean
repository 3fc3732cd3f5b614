/-
Whose lock a command acts on.

The history of the key is its last grant, the time of the last SET or EXPIRE that took
effect, and the releases.  The release script reads the stored token in the step that
deletes.  A heartbeat reads it in a GET and acts in a later EXPIRE, which names the key
only: it is the history in between that decides whose lock is extended.
-/
import Sutram.Core.RedisLock

namespace Sutram.Core.RedisLock

open Runs

variable (ttlSeconds : Nat)

/-! ## Commands and history -/

structure History where
  granted : Option Nat := none
  touched : ℚ := 0
  released : Nat → Bool := fun _ => false

def History.note (s : State) (a : Action) (_ : State) (h : History) : History :=
  match a with
  | .acquire => if s.token = none then { h with granted := some s.calls, touched := s.now } else h
  | .expire _ | .strayExpire _ => if s.token = none then h else { h with touched := s.now }
  | .release c => { h with released := Function.update h.released c true }
  | _ => h

def notedStep : Ghosted State History → Action → Option (Ghosted State History) :=
  ghostStep (step ttlSeconds) History.note

/-- A release leaves another's lock as it is, and an EXPIRE finds its sender's or none. -/
def Own (s : State) (a : Action) (s' : State) : Prop :=
  match a with
  | .release c => ∀ d ∈ s.token, d ≠ c → s'.key = s.key
  | .expire c | .strayExpire c => ∀ d ∈ s.token, d = c
  | _ => True

instance (s : State) (a : Action) (s' : State) : Decidable (Own s a s') := by
  unfold Own
  split <;> infer_instance

/-- When an EXPIRE takes effect, the client granted the lock last is its sender, or has
released, or has had no SET or EXPIRE for a TTL. -/
def Current (s : Ghosted State History) (a : Action) : Prop :=
  match a with
  | .expire c | .strayExpire c => ∀ d ∈ s.ghost.granted, d ≠ c →
      s.ghost.released d ∨ s.ghost.touched + ttlSeconds ≤ s.state.now
  | _ => True

/-! ## The history tells the key -/

variable {ttlSeconds}

/-- A client that may still send a command, or has one under way. -/
def Client.isActive (k : Client) : Bool := k.phase ≠ .gone ∨ k.stray

structure Agrees (ttlSeconds : Nat) (s : Ghosted State History) : Prop where
  unused : ∀ c, s.state.calls ≤ c →
    (s.state.clients c).isActive = false ∧ s.ghost.released c = false
  gone : ∀ c, s.ghost.released c → (s.state.clients c).phase = .gone
  past : s.ghost.touched ≤ s.state.now
  stored : ∀ e, s.state.key = some e → s.ghost.granted = some e.value ∧
    e.expiry = s.ghost.touched + ttlSeconds ∧
      (s.ghost.released e.value → e.expiry ≤ s.state.now)
  kept : ∀ c, s.ghost.granted = some c → s.ghost.released c = false →
    ∃ e, s.state.key = some e ∧ e.value = c

theorem Agrees.token_iff {s : Ghosted State History} (hI : Agrees ttlSeconds s) {c : Nat} :
    s.state.token = some c ↔ s.ghost.granted = some c ∧ s.ghost.released c = false ∧
      s.state.now < s.ghost.touched + ttlSeconds := by
  constructor
  · intro htoken
    obtain ⟨e, hkey, rfl, hlt⟩ := Expiring.get_eq_some.mp htoken
    obtain ⟨hgranted, hexpiry, hreleased⟩ := hI.stored e hkey
    refine ⟨hgranted, ?_, hexpiry ▸ hlt⟩
    by_contra hrel
    exact absurd hlt (not_lt.mpr (hreleased (by simpa using hrel)))
  · rintro ⟨hgranted, hreleased, hlt⟩
    obtain ⟨e, hkey, hvalue⟩ := hI.kept c hgranted hreleased
    exact Expiring.get_eq_some.mpr ⟨e, hkey, hvalue, (hI.stored e hkey).2.1 ▸ hlt⟩

/-! ## One step -/

theorem Client.Moves.isActive {k k' : Client} (h : k.Moves k') : k.isActive := by
  simpa [Client.isActive] using h.active

/-- A client moves without touching the key. -/
theorem Agrees.client {s s' : Ghosted State History} {c : Nat} {k : Client}
    (hI : Agrees ttlSeconds s) (hs' : s'.state = s.state.set c k) (hghost : s'.ghost = s.ghost)
    (hmoves : (s.state.clients c).Moves k) : Agrees ttlSeconds s' := by
  have hold := hmoves.isActive
  have hnew : ∀ d, s.state.calls ≤ d → d ≠ c := by
    rintro d hd rfl
    rw [(hI.unused d hd).1] at hold
    cases hold
  refine ⟨fun d hd => ?_, fun d hd => ?_, ?_, ?_, ?_⟩
  · rw [hs'] at hd ⊢
    rw [hghost, set_clients, if_neg (hnew d hd)]
    exact hI.unused d hd
  · rw [hs', set_clients]
    rw [hghost] at hd
    split
    · rename_i h
      exact hmoves.gone (h ▸ hI.gone d hd)
    · exact hI.gone d hd
  · rw [hs', hghost]
    exact hI.past
  · rw [hs', hghost]
    exact hI.stored
  · rw [hs', hghost]
    exact hI.kept

theorem Agrees.acquire {s s' : Ghosted State History} (hI : Agrees ttlSeconds s)
    (hs' : s'.state = RedisLock.acquire ttlSeconds s.state)
    (hghost : s'.ghost = History.note s.state .acquire s'.state s.ghost) :
    Agrees ttlSeconds s' := by
  unfold RedisLock.acquire at hs'
  split at hs'
  · rename_i d hd
    have hsame : s'.ghost = s.ghost := by rw [hghost, History.note, if_neg (by simp [hd])]
    refine ⟨fun c hc => ?_, ?_, ?_, ?_, ?_⟩
    · rw [hs'] at hc ⊢
      rw [hsame]
      exact hI.unused c (Nat.le_of_succ_le hc)
    · rw [hs', hsame]
      exact hI.gone
    · rw [hs', hsame]
      exact hI.past
    · rw [hs', hsame]
      exact hI.stored
    · rw [hs', hsame]
      exact hI.kept
  · rename_i hfree
    have hnew : s'.ghost =
        { s.ghost with granted := some s.state.calls, touched := s.state.now } := by
      rw [hghost, History.note, if_pos hfree]
    have hkey : s'.state.key = some ⟨s.state.calls, s.state.now + ttlSeconds⟩ := by
      rw [hs']
      exact Expiring.setNX_of_free hfree
    have hreleased := (hI.unused s.state.calls le_rfl).2
    refine ⟨fun c hc => ?_, fun c hc => ?_, ?_, fun e he => ?_, fun c hc _ => ?_⟩
    · rw [hs'] at hc ⊢
      rw [hnew]
      have hne : c ≠ s.state.calls := Nat.ne_of_gt hc
      simp only [set_clients, if_neg hne]
      exact hI.unused c (Nat.le_of_succ_le hc)
    · rw [hnew] at hc
      have hne : c ≠ s.state.calls := by
        rintro rfl
        rw [hreleased] at hc
        cases hc
      rw [hs']
      simp only [set_clients, if_neg hne]
      exact hI.gone c hc
    · rw [hs', hnew]
      exact le_rfl
    · rw [hkey] at he
      cases he
      rw [hnew]
      refine ⟨rfl, rfl, fun hrel => ?_⟩
      rw [hreleased] at hrel
      cases hrel
    · rw [hnew] at hc
      cases hc
      exact ⟨_, hkey, rfl⟩

/-- An EXPIRE moves the expiry of what is stored, and the history's time with it. -/
theorem Agrees.extend {s s' : Ghosted State History} {c : Nat} {k : Client}
    (hI : Agrees ttlSeconds s) (hs' : s'.state = { s.state.set c k with
      key := Expiring.expire s.state.key s.state.now (s.state.now + ttlSeconds) })
    (hghost : s'.ghost = if s.state.token = none then s.ghost
      else { s.ghost with touched := s.state.now })
    (hmoves : (s.state.clients c).Moves k) : Agrees ttlSeconds s' := by
  have hmoved : Agrees ttlSeconds ⟨s.state.set c k, s.ghost⟩ := hI.client rfl rfl hmoves
  obtain htoken | ⟨d, htoken⟩ := Option.eq_none_or_eq_some s.state.token
  · have hkey : s'.state = s.state.set c k := by
      have hget : Expiring.get s.state.key s.state.now = none := htoken
      rw [hs', Expiring.expire, hget]
      rfl
    rw [if_pos htoken] at hghost
    obtain ⟨state, ghost⟩ := s'
    obtain rfl : state = _ := hkey
    obtain rfl : ghost = _ := hghost
    exact hmoved
  · have hkey : s'.state.key = some ⟨d, s.state.now + ttlSeconds⟩ := by
      rw [hs']
      exact Expiring.expire_of_get htoken
    obtain ⟨hgranted, hreleased, -⟩ := hI.token_iff.mp htoken
    rw [if_neg (by simp [htoken])] at hghost
    refine ⟨?_, ?_, ?_, fun e he => ?_, fun c' hc' _ => ?_⟩
    · rw [hs', hghost]
      exact hmoved.unused
    · rw [hs', hghost]
      exact hmoved.gone
    · rw [hs', hghost]
      exact le_rfl
    · rw [hkey] at he
      cases he
      rw [hghost]
      refine ⟨hgranted, rfl, fun hrel => ?_⟩
      rw [hreleased] at hrel
      cases hrel
    · rw [hghost] at hc'
      have hsame : some d = some c' := hgranted.symm.trans hc'
      cases hsame
      exact ⟨_, hkey, rfl⟩

theorem Agrees.release {s s' : Ghosted State History} {c : Nat} (hI : Agrees ttlSeconds s)
    (h : RedisLock.release s.state c = some s'.state)
    (hghost : s'.ghost = { s.ghost with released := Function.update s.ghost.released c true }) :
    Agrees ttlSeconds s' := by
  obtain ⟨hleaving, hs'⟩ := release_eq_some h
  have hmoves : (s.state.clients c).Moves { s.state.clients c with phase := .gone } :=
    ⟨.inl (by simp [hleaving]), fun _ => rfl, by simp [Client.isLive]⟩
  have hold := hmoves.isActive
  have hmoved : Agrees ttlSeconds
      ⟨s.state.set c { s.state.clients c with phase := .gone }, s.ghost⟩ :=
    hI.client rfl rfl hmoves
  have hreleased : ∀ d, d ≠ c → s'.ghost.released d = s.ghost.released d := by
    intro d hd
    rw [hghost]
    exact Function.update_of_ne hd ..
  refine ⟨fun d hd => ?_, fun d hd => ?_, ?_, fun e he => ?_, fun d hd hrel => ?_⟩
  · have hne : d ≠ c := by
      rintro rfl
      rw [hs'] at hd
      rw [(hI.unused d hd).1] at hold
      cases hold
    rw [hreleased d hne, hs']
    rw [hs'] at hd
    exact hmoved.unused d hd
  · rw [hs']
    by_cases hdc : d = c
    · simp [hdc, set_clients]
    · rw [hreleased d hdc] at hd
      exact hmoved.gone d hd
  · rw [hs', hghost]
    exact hI.past
  · rcases Expiring.deleteIf_cases s.state.key s.state.now c with hsame | hgone
    · have hkey : s.state.key = some e := by
        rw [hs'] at he
        exact hsame.symm.trans he
      obtain ⟨hgranted, hexpiry, hrel⟩ := hI.stored e hkey
      rw [hghost, hs']
      refine ⟨hgranted, hexpiry, fun hrel' => ?_⟩
      by_cases hec : e.value = c
      · -- The script has left its own key, which had run out.
        by_contra hlt
        have hdeleted : Expiring.deleteIf s.state.key s.state.now c = none := by
          rw [Expiring.deleteIf, if_pos]
          exact Expiring.get_eq_some.mpr ⟨e, hkey, hec, not_le.mp hlt⟩
        rw [hsame, hkey] at hdeleted
        cases hdeleted
      · exact hrel (by simpa [Function.update_of_ne hec] using hrel')
    · rw [hs'] at he
      cases hgone.symm.trans he
  · have hne : d ≠ c := by
      rintro rfl
      rw [hghost] at hrel
      simp at hrel
    rw [hreleased d hne] at hrel
    rw [hghost] at hd
    obtain ⟨e, hkey, hvalue⟩ := hI.kept d hd hrel
    refine ⟨e, ?_, hvalue⟩
    rw [hs']
    show Expiring.deleteIf s.state.key s.state.now c = some e
    rw [Expiring.deleteIf, if_neg, hkey]
    intro htoken
    obtain ⟨e', hkey', hvalue', -⟩ := Expiring.get_eq_some.mp htoken
    rw [hkey] at hkey'
    cases hkey'
    exact hne (hvalue.symm.trans hvalue')

theorem Agrees.wait {s s' : Ghosted State History} {seconds : ℚ} (hI : Agrees ttlSeconds s)
    (hpos : 0 < seconds) (hs' : s'.state = { s.state with now := s.state.now + seconds })
    (hghost : s'.ghost = s.ghost) : Agrees ttlSeconds s' := by
  refine ⟨?_, ?_, ?_, fun e he => ?_, ?_⟩
  · rw [hs', hghost]
    exact hI.unused
  · rw [hs', hghost]
    exact hI.gone
  · have hold := hI.past
    rw [hs', hghost]
    show s.ghost.touched ≤ s.state.now + seconds
    linarith
  · rw [hs'] at he ⊢
    rw [hghost]
    obtain ⟨hgranted, hexpiry, hreleased⟩ := hI.stored e he
    refine ⟨hgranted, hexpiry, fun hrel => ?_⟩
    have hold := hreleased hrel
    show e.expiry ≤ s.state.now + seconds
    linarith
  · rw [hs', hghost]
    exact hI.kept

theorem agrees_step {s s' : Ghosted State History} {a : Action} (hI : Agrees ttlSeconds s)
    (h : notedStep ttlSeconds s a = some s') : Agrees ttlSeconds s' := by
  obtain ⟨hstep, hghost⟩ := ghostStep_eq_some h
  cases a with
  | acquire => exact hI.acquire (Option.some.inj hstep).symm hghost
  | enter c | get c | heartbeatFails c | leave c | crash c =>
    obtain ⟨k, hs', hmoves, -⟩ := step_mover hstep rfl
    exact hI.client hs' hghost hmoves
  | expire c | strayExpire c =>
    obtain ⟨k, hs', hmoves, -⟩ := step_expirer hstep rfl
    exact hI.extend hs' hghost hmoves
  | release c => exact hI.release hstep hghost
  | wait seconds =>
    obtain ⟨hpos, hs'⟩ := step_wait hstep
    exact hI.wait hpos hs' hghost

theorem agrees_initial : Agrees ttlSeconds ⟨{}, {}⟩ := by
  refine ⟨fun c _ => ⟨rfl, rfl⟩, ?_, le_rfl, ?_, ?_⟩ <;> simp

/-! ## Ownership -/

/-- The script deletes the lock it has found to be its own, and no other. -/
theorem own_release {s s' : State} {c : Nat} (h : release s c = some s') :
    Own s (.release c) s' := by
  intro d hd hne
  obtain ⟨-, rfl⟩ := release_eq_some h
  exact Expiring.deleteIf_of_ne hd hne

/-- An EXPIRE finds no other's lock exactly when the history rules one out. -/
theorem token_iff_current {s : Ghosted State History} (hI : Agrees ttlSeconds s) (c : Nat) :
    (∀ d ∈ s.state.token, d = c) ↔
      ∀ d ∈ s.ghost.granted, d ≠ c →
        s.ghost.released d ∨ s.ghost.touched + ttlSeconds ≤ s.state.now := by
  constructor
  · intro hown d hd hne
    by_contra hlocked
    rw [not_or, not_le, Bool.not_eq_true] at hlocked
    exact hne (hown d (hI.token_iff.mpr ⟨hd, hlocked⟩))
  · intro hcurrent d hd
    obtain ⟨hgranted, hreleased, hlt⟩ := hI.token_iff.mp hd
    by_contra hne
    rcases hcurrent d hgranted hne with hrel | hle
    · rw [hreleased] at hrel
      cases hrel
    · exact absurd hlt (not_lt.mpr hle)

theorem own_step_iff {s s' : Ghosted State History} {a : Action} (hI : Agrees ttlSeconds s)
    (h : notedStep ttlSeconds s a = some s') :
    Own s.state a s'.state ↔ Current ttlSeconds s a := by
  obtain ⟨hstep, -⟩ := ghostStep_eq_some h
  cases a with
  | expire c => exact token_iff_current hI c
  | strayExpire c => exact token_iff_current hI c
  | release c => exact iff_of_true (own_release hstep) trivial
  | _ => exact Iff.rfl

/-- In a run of any number of clients every release and every EXPIRE acts on its sender's
own lock exactly when each EXPIRE takes effect while no client granted the lock later
than its sender still has it. -/
theorem own_iff_current (ttlSeconds : Nat) (as : List Action) :
    Along (step ttlSeconds) Own {} as ↔
      Along (notedStep ttlSeconds) (fun s a _ => Current ttlSeconds s a) ⟨{}, {}⟩ as := by
  have hplain : Along (notedStep ttlSeconds) (fun s a s' => Own s.state a s'.state)
      ⟨{}, {}⟩ as ↔ Along (step ttlSeconds) Own {} as :=
    along_ghost_iff
  rw [← hplain]
  exact along_iff (fun _ _ _ hI h _ => agrees_step hI h) (fun _ _ _ hI h => own_step_iff hI h)
    agrees_initial

/-- The first client's EXPIRE is on its way when its key runs out and the second sets it. -/
def lateExpire : List Action :=
  [.acquire, .enter 0, .wait 15, .get 0, .wait 15, .acquire, .enter 1, .wait 10, .expire 0]

theorem late_expire_extends_another :
    (run (step 30) {} lateExpire).any
        (fun s => s.key = some ⟨1, 70⟩ ∧ (s.clients 0).phase = .inside) ∧
      ¬Along (step 30) Own {} lateExpire := by
  decide +kernel

/-! ## Punctual renewals -/

variable (ttlSeconds) in
/-- An EXPIRE takes effect less than a TTL after its sender's last SET or EXPIRE, and
before its sender has released. -/
def InTime (s : Ghosted State History) (a : Action) : Prop :=
  match a with
  | .expire c | .strayExpire c => s.ghost.released c = false ∧
      s.state.now < (s.state.clients c).renewed + ttlSeconds
  | _ => True

/-- A client whose time has not run out is the one granted the lock last. -/
structure Timely (ttlSeconds : Nat) (s : Ghosted State History) : Prop where
  agrees : Agrees ttlSeconds s
  holder : ∀ c, (s.state.clients c).isActive → s.ghost.released c = false →
    s.state.now < (s.state.clients c).renewed + ttlSeconds → s.ghost.granted = some c
  renewed : ∀ c, s.ghost.granted = some c → (s.state.clients c).renewed ≤ s.ghost.touched

/-- The holder in time finds its token. -/
theorem Timely.token {s : Ghosted State History} (hI : Timely ttlSeconds s) {c : Nat}
    (hgranted : s.ghost.granted = some c) (hreleased : s.ghost.released c = false)
    (htime : s.state.now < (s.state.clients c).renewed + ttlSeconds) :
    s.state.token = some c := by
  have hrenewed := hI.renewed c hgranted
  exact hI.agrees.token_iff.mpr ⟨hgranted, hreleased, by linarith⟩

theorem Timely.client {s s' : Ghosted State History} {c : Nat} {k : Client}
    (hI : Timely ttlSeconds s) (hagrees : Agrees ttlSeconds s')
    (hs' : s'.state = s.state.set c k) (hghost : s'.ghost = s.ghost)
    (hmoves : (s.state.clients c).Moves k) (hk : k.renewed = (s.state.clients c).renewed) :
    Timely ttlSeconds s' := by
  have hold := hmoves.isActive
  refine ⟨hagrees, fun d hd hrel htime => ?_, fun d hd => ?_⟩
  · rw [hs'] at hd htime
    rw [hghost] at hrel ⊢
    rw [set_clients] at hd htime
    by_cases hdc : d = c
    · rw [if_pos hdc, hk, ← hdc] at htime
      exact hI.holder d (hdc ▸ hold) hrel htime
    · rw [if_neg hdc] at hd htime
      exact hI.holder d hd hrel htime
  · rw [hghost] at hd ⊢
    rw [hs', set_clients]
    split
    · rename_i hdc
      rw [hk, ← hdc]
      exact hI.renewed d hd
    · exact hI.renewed d hd

/-- A lock is granted when nobody's time is left. -/
theorem Timely.acquire {s s' : Ghosted State History} (hI : Timely ttlSeconds s)
    (hagrees : Agrees ttlSeconds s') (hs' : s'.state = RedisLock.acquire ttlSeconds s.state)
    (hghost : s'.ghost = History.note s.state .acquire s'.state s.ghost) :
    Timely ttlSeconds s' := by
  unfold RedisLock.acquire at hs'
  split at hs'
  · rename_i d hd
    have hsame : s'.ghost = s.ghost := by rw [hghost, History.note, if_neg (by simp [hd])]
    refine ⟨hagrees, ?_, ?_⟩
    · rw [hs', hsame]
      exact hI.holder
    · rw [hs', hsame]
      exact hI.renewed
  · rename_i hfree
    have hnew : s'.ghost =
        { s.ghost with granted := some s.state.calls, touched := s.state.now } := by
      rw [hghost, History.note, if_pos hfree]
    have hclients : ∀ c, s'.state.clients c =
        if c = s.state.calls then { phase := .granted, renewed := s.state.now }
        else s.state.clients c := by
      intro c
      rw [hs']
      exact set_clients s.state s.state.calls c _
    refine ⟨hagrees, fun c hc hrel htime => ?_, fun c hc => ?_⟩
    · rw [hnew] at hrel ⊢
      by_contra hne
      have hother : c ≠ s.state.calls := fun h => hne (congrArg some h.symm)
      rw [hclients, if_neg hother] at hc htime
      rw [hs'] at htime
      have htoken := hI.token (hI.holder c hc hrel htime) hrel htime
      rw [htoken] at hfree
      cases hfree
    · rw [hnew] at hc ⊢
      cases hc
      rw [hclients, if_pos rfl]

/-- An EXPIRE in time finds its sender's lock. -/
theorem Timely.extend {s s' : Ghosted State History} {c : Nat} {k : Client}
    (hI : Timely ttlSeconds s) (hagrees : Agrees ttlSeconds s')
    (hs' : s'.state = { s.state.set c k with
      key := Expiring.expire s.state.key s.state.now (s.state.now + ttlSeconds) })
    (hghost : s'.ghost = if s.state.token = none then s.ghost
      else { s.ghost with touched := s.state.now })
    (hmoves : (s.state.clients c).Moves k) (hrel : s.ghost.released c = false)
    (htime : s.state.now < (s.state.clients c).renewed + ttlSeconds)
    (hk : k.renewed = (s.state.clients c).renewed ∨ k.renewed = s.state.now) :
    Timely ttlSeconds s' := by
  have hgranted := hI.holder c hmoves.isActive hrel htime
  have htoken := hI.token hgranted hrel htime
  rw [if_neg (by simp [htoken])] at hghost
  have hclients : ∀ d, s'.state.clients d = if d = c then k else s.state.clients d := by
    intro d
    rw [hs']
    exact set_clients s.state c d k
  refine ⟨hagrees, fun d hd hrel' htime' => ?_, fun d hd => ?_⟩
  · rw [hghost] at hrel' ⊢
    by_cases hdc : d = c
    · rw [hdc]
      exact hgranted
    · rw [hclients, if_neg hdc] at hd htime'
      rw [hs'] at htime'
      exact hI.holder d hd hrel' htime'
  · rw [hghost] at hd ⊢
    obtain rfl : c = d := Option.some.inj (hgranted.symm.trans hd)
    rw [hclients, if_pos rfl]
    show k.renewed ≤ s.state.now
    rcases hk with hsame | hnow
    · rw [hsame]
      exact (hI.renewed c hd).trans hI.agrees.past
    · exact hnow.le

theorem Timely.release {s s' : Ghosted State History} {c : Nat} (hI : Timely ttlSeconds s)
    (hagrees : Agrees ttlSeconds s') (h : RedisLock.release s.state c = some s'.state)
    (hghost : s'.ghost = { s.ghost with released := Function.update s.ghost.released c true }) :
    Timely ttlSeconds s' := by
  obtain ⟨-, hs'⟩ := release_eq_some h
  have hclients : ∀ d, s'.state.clients d =
      if d = c then { s.state.clients c with phase := .gone } else s.state.clients d := by
    intro d
    rw [hs']
    exact set_clients s.state c d _
  refine ⟨hagrees, fun d hd hrel htime => ?_, fun d hd => ?_⟩
  · have hne : d ≠ c := by
      rintro rfl
      rw [hghost] at hrel
      simp at hrel
    rw [hclients, if_neg hne] at hd htime
    rw [hghost] at hrel ⊢
    rw [hs'] at htime
    exact hI.holder d hd (by simpa [Function.update_of_ne hne] using hrel) htime
  · rw [hghost] at hd ⊢
    have hrenewed : (s'.state.clients d).renewed = (s.state.clients d).renewed := by
      rw [hclients]
      split
      · rename_i hdc
        rw [hdc]
      · rfl
    rw [hrenewed]
    exact hI.renewed d hd

theorem Timely.wait {s s' : Ghosted State History} {seconds : ℚ} (hI : Timely ttlSeconds s)
    (hagrees : Agrees ttlSeconds s') (hpos : 0 < seconds)
    (hs' : s'.state = { s.state with now := s.state.now + seconds })
    (hghost : s'.ghost = s.ghost) : Timely ttlSeconds s' := by
  refine ⟨hagrees, fun c hc hrel htime => ?_, fun c hc => ?_⟩
  · rw [hs'] at hc htime
    rw [hghost] at hrel ⊢
    have hlater : s.state.now + seconds < (s.state.clients c).renewed + ttlSeconds := htime
    exact hI.holder c hc hrel (by linarith)
  · rw [hghost] at hc ⊢
    rw [hs']
    exact hI.renewed c hc

theorem timely_step {s s' : Ghosted State History} {a : Action} (hI : Timely ttlSeconds s)
    (hintime : InTime ttlSeconds s a) (h : notedStep ttlSeconds s a = some s') :
    Timely ttlSeconds s' := by
  have hagrees := agrees_step hI.agrees h
  obtain ⟨hstep, hghost⟩ := ghostStep_eq_some h
  cases a with
  | acquire => exact hI.acquire hagrees (Option.some.inj hstep).symm hghost
  | enter c | get c | heartbeatFails c | leave c | crash c =>
    obtain ⟨k, hs', hmoves, hk⟩ := step_mover hstep rfl
    exact hI.client hagrees hs' hghost hmoves hk
  | expire c | strayExpire c =>
    obtain ⟨k, hs', hmoves, hk⟩ := step_expirer hstep rfl
    exact hI.extend hagrees hs' hghost hmoves hintime.1 hintime.2 hk
  | release c => exact hI.release hagrees hstep hghost
  | wait seconds =>
    obtain ⟨hpos, hs'⟩ := step_wait hstep
    exact hI.wait hagrees hpos hs' hghost

theorem timely_initial : Timely ttlSeconds ⟨{}, {}⟩ :=
  ⟨agrees_initial, by simp [Client.isActive], by simp⟩

theorem current_of_inTime {s s' : Ghosted State History} {a : Action}
    (hI : Timely ttlSeconds s) (hintime : InTime ttlSeconds s a)
    (h : notedStep ttlSeconds s a = some s') : Current ttlSeconds s a := by
  obtain ⟨hstep, -⟩ := ghostStep_eq_some h
  cases a with
  | expire c | strayExpire c =>
    -- An active sender in time is the client granted the lock last.
    obtain ⟨k, -, hmoves, -⟩ := step_expirer hstep rfl
    intro d hd hne
    have hgranted := hI.holder c hmoves.isActive hintime.1 hintime.2
    exact absurd (Option.some.inj (hd.symm.trans hgranted)) hne
  | _ => trivial

/-- Renewals that take effect in time act on their senders' locks. -/
theorem own_of_inTime (as : List Action)
    (h : Along (notedStep ttlSeconds) (fun s a _ => InTime ttlSeconds s a) ⟨{}, {}⟩ as) :
    Along (step ttlSeconds) Own {} as := by
  have hown : Along (notedStep ttlSeconds) (fun s a s' => Own s.state a s'.state)
      ⟨{}, {}⟩ as := by
    refine along_of_invariant (I := Timely ttlSeconds) ?_ ?_ timely_initial h
    · exact fun _ _ _ hI hintime hstep => timely_step hI hintime hstep
    · intro s a s' hI hintime hstep
      exact (own_step_iff hI.agrees hstep).mpr (current_of_inTime hI hintime hstep)
  exact along_ghost_iff.mp hown

end Sutram.Core.RedisLock
