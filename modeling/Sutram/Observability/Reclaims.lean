/-
When the consumer loop reclaims pending messages.

A pass of the loop reads both streams and processes what it has read.  The reclaim that
may follow is decided once, at the end of the pass, by whether the total then stands on a
multiple of 50; a batch that steps over the multiple leaves it out.  The ghost keeps, for
each consumer, what its pass has done so far.
-/
import Sutram.Library.Ghost
import Sutram.Observability.Backlog

namespace Sutram.Observability.Backlog

open Sutram.Core Runs

variable {F D : Type}

/-! ## Passes -/

def reclaimEvery : Nat := 50

/-- `start` is the total with which the pass began. -/
structure Pass where
  start : Nat := 0
  reclaimed : List StreamName := []
deriving DecidableEq, Repr

namespace Pass

/-- During the pass the total has reached or crossed a multiple of 50. -/
def Crossed (p : Pass) (k : Consumer) : Prop :=
  p.start / reclaimEvery < k.messagesProcessed / reclaimEvery

instance (p : Pass) (k : Consumer) : Decidable (p.Crossed k) := inferInstanceAs (Decidable (_ < _))

/-- A pass begins where both streams are still to be read.  Within it `_reclaim_pending`
has been run for each stream the reclaim has gone past. -/
def note (p : Pass) (k k' : Consumer) : Pass :=
  if k'.phase = .reading streams then { start := k'.messagesProcessed }
  else
    match k.phase, k'.phase with
    | .reclaiming (name :: rest), .reclaiming todo =>
      if todo = rest then { p with reclaimed := p.reclaimed ++ [name] } else p
    | _, _ => p

end Pass

abbrev Passes := Nat → Pass

def notePasses (s : State) (_ : Action D) (t : State) (passes : Passes) : Passes := fun c =>
  (passes c).note (s.consumers c) (t.consumers c)

abbrev passStep (scalars : Scalars F D) := ghostStep (step scalars) notePasses

/-- The consumer whose pass may come to its end. -/
def turning : Action D → Option Nat
  | .turn c => some c
  | _ => none

/-- A pass that comes to its end has reclaimed both streams if it has reached or crossed a
multiple of 50.  A pass that an exception ends is not meant. -/
def ReclaimsInTime (s : Ghosted State Passes) (a : Action D) (t : Ghosted State Passes) : Prop :=
  ∀ c ∈ turning a,
    (s.state.consumers c).phase = .reading [] ∨ (s.state.consumers c).phase = .reclaiming [] →
      (t.state.consumers c).phase = .reading streams →
        (s.ghost c).Crossed (s.state.consumers c) → (s.ghost c).reclaimed = streams

instance (s : Ghosted State Passes) (a : Action D) (t : Ghosted State Passes) :
    Decidable (ReclaimsInTime s a t) :=
  inferInstanceAs (Decidable (∀ c ∈ turning a, _))

/-- A pass whose messages reach or cross a multiple of 50 ends on one. -/
def LandsOnMultiple (s : Ghosted State Passes) (a : Action D) : Prop :=
  ∀ c ∈ turning a, (s.state.consumers c).phase = .reading [] →
    (s.ghost c).Crossed (s.state.consumers c) →
      (s.state.consumers c).messagesProcessed % reclaimEvery = 0

/-! ## How a consumer moves -/

/-- The phases of a consumer before and after a step. -/
inductive PhaseMove : Phase → Phase → Prop
  | stay (ph : Phase) : PhaseMove ph ph
  | begin (ph : Phase) : PhaseMove ph (.reading streams)
  | read (name : StreamName) (rest : List StreamName) :
      PhaseMove (.reading (name :: rest)) (.reading rest)
  | reclaims : PhaseMove (.reading []) (.reclaiming streams)
  | reclaim (name : StreamName) (rest : List StreamName) :
      PhaseMove (.reclaiming (name :: rest)) (.reclaiming rest)
  | stop (ph : Phase) : PhaseMove ph .stopped
  | create (ph : Phase) (todo : List StreamName) : PhaseMove ph (.creating todo)

theorem raised_phase (k : Consumer) : PhaseMove k.phase k.raised.phase := by
  cases hphase : k.phase with
  | stopped | creating todo => simpa [Consumer.raised, hphase] using .stop _
  | reading todo => simpa [Consumer.raised, hphase] using .begin _
  | reclaiming todo =>
    cases hhands : k.hands.isEmpty with
    | false => simpa [Consumer.raised, hphase, hhands] using .stay _
    | true =>
      cases todo with
      | nil => simpa [Consumer.raised, hphase, hhands] using .stay _
      | cons name rest => simpa [Consumer.raised, hphase, hhands] using .reclaim name rest

theorem advance_phase (k : Consumer) : k.advance.phase = k.phase := by
  unfold Consumer.advance
  split <;> rfl

theorem turn_phase {k k' : Consumer} (h : k.turn = some k') : PhaseMove k.phase k'.phase := by
  unfold Consumer.turn at h
  split at h
  · cases h
    exact .begin _
  · rename_i hphase _
    split at h <;> cases h
    · rw [hphase]
      exact .reclaims
    · exact .begin _
  · cases h
    exact .begin _
  · cases h

theorem setConsumer_phase {s s' : State} {c : Nat} {k : Consumer}
    (hs : s'.consumers = s.consumers) (h : PhaseMove (s.consumers c).phase k.phase) (c' : Nat) :
    PhaseMove (s.consumers c').phase ((s'.setConsumer c k).consumers c').phase := by
  by_cases hc : c' = c
  · subst hc
    simpa [State.setConsumer] using h
  · simpa [State.setConsumer, hc, hs] using .stay _

theorem step_phase {scalars : Scalars F D} {s t : State} {a : Action D}
    (h : step scalars s a = some t) (c : Nat) :
    PhaseMove (s.consumers c).phase (t.consumers c).phase := by
  cases a with
  | publish name data trimmed =>
    simp only [step] at h
    split at h <;> cases h
    exact .stay _
  | start c' =>
    simp only [step] at h
    split at h <;> cases h
    exact setConsumer_phase rfl (.create _ _) c
  | createGroup c' =>
    simp only [step] at h
    split at h <;> cases h
    exact setConsumer_phase rfl (.create _ _) c
  | read c' =>
    simp only [step] at h
    split at h
    · rename_i name rest hphase _
      split at h <;> cases h
      exact setConsumer_phase rfl (by rw [hphase]; exact .read name rest) c
    · cases h
  | process c' fresh handlerSucceeds ackSucceeds =>
    simp only [step] at h
    split at h
    · split at h <;> cases h
      · exact setConsumer_phase rfl (raised_phase _) c
      · exact setConsumer_phase rfl (by rw [advance_phase]; exact .stay _) c
    · cases h
  | reclaim c' ids =>
    simp only [step] at h
    split at h
    · rename_i name rest hphase _
      split at h <;> cases h
      exact setConsumer_phase rfl (by rw [hphase]; exact .reclaim name rest) c
    · cases h
  | turn c' =>
    simp only [step, Option.map_eq_some_iff] at h
    obtain ⟨k, hk, rfl⟩ := h
    exact setConsumer_phase rfl (turn_phase hk) c
  | fail c' =>
    simp only [step] at h
    split at h
    · cases h
    · cases h
      exact setConsumer_phase rfl (raised_phase _) c
  | stop c' =>
    cases h
    exact setConsumer_phase rfl (.stop _) c

/-! ## The pass of one consumer -/

/-- The reclaim of a pass goes through the streams in order, and before it there is none. -/
def Underway (k : Consumer) (p : Pass) : Prop :=
  match k.phase with
  | .reading _ => p.reclaimed = []
  | .reclaiming todo => p.reclaimed ++ todo = streams
  | _ => True

theorem underway_note {k k' : Consumer} {p : Pass} (hI : Underway k p)
    (h : PhaseMove k.phase k'.phase) : Underway k' (p.note k k') := by
  unfold Pass.note
  split
  · rename_i hbegin
    simp [Underway, hbegin]
  · rename_i hbegin
    generalize hph : k.phase = ph at h
    generalize hph' : k'.phase = ph' at h hbegin
    simp only [Underway, hph, hph'] at hI ⊢
    cases h with
    | stay =>
      cases ph with
      | reclaiming todo =>
        cases todo with
        | nil => exact hI
        | cons name rest =>
          dsimp only
          rw [if_neg (List.cons_ne_self name rest)]
          exact hI
      | _ => exact hI
    | begin => exact absurd rfl hbegin
    | read name rest => exact hI
    | reclaims =>
      dsimp only at hI ⊢
      rw [hI]
      rfl
    | reclaim name rest =>
      simpa using hI
    | stop => trivial
    | create => trivial

theorem underway_step {scalars : Scalars F D} {s t : Ghosted State Passes} {a : Action D}
    (hI : ∀ c, Underway (s.state.consumers c) (s.ghost c))
    (h : passStep scalars s a = some t) (c : Nat) :
    Underway (t.state.consumers c) (t.ghost c) := by
  obtain ⟨hstep, hghost⟩ := ghostStep_eq_some h
  rw [hghost]
  exact underway_note (hI c) (step_phase hstep c)

/-- What the end of a visit of the streams does next. -/
theorem turn_reading {scalars : Scalars F D} {s t : State} {c : Nat}
    (h : step scalars s (.turn c) = some t) (hphase : (s.consumers c).phase = .reading []) :
    (t.consumers c).phase = .reading streams ↔
      ¬ (0 < (s.consumers c).messagesProcessed ∧
        (s.consumers c).messagesProcessed % reclaimEvery = 0) := by
  simp only [step, Option.map_eq_some_iff] at h
  obtain ⟨k, hk, rfl⟩ := h
  unfold Consumer.turn at hk
  rw [hphase] at hk
  split at hk
  · rename_i hother _
    cases hother
  · split at hk <;> cases hk
    · rename_i hmultiple
      simp [State.setConsumer, reclaimEvery, hmultiple]
    · rename_i hnot
      simpa [State.setConsumer, reclaimEvery] using hnot
  · rename_i hother _
    cases hother
  · cases hk

theorem reclaimsInTime_iff {scalars : Scalars F D} {s t : Ghosted State Passes} {a : Action D}
    (hI : ∀ c, Underway (s.state.consumers c) (s.ghost c))
    (h : passStep scalars s a = some t) : ReclaimsInTime s a t ↔ LandsOnMultiple s a := by
  have hstep := (ghostStep_eq_some h).1
  refine forall_congr' fun c => forall_congr' fun hc => ?_
  cases a with
  | turn c' =>
    obtain rfl : c' = c := Option.some.inj hc
    have hunderway := hI c'
    constructor
    · intro hreclaims hphase hcrossed
      by_contra hnot
      have hnext := (turn_reading hstep hphase).mpr fun hboth => hnot hboth.2
      have hdone := hreclaims (.inl hphase) hnext hcrossed
      simp only [Underway, hphase] at hunderway
      rw [hunderway] at hdone
      cases hdone
    · intro hlands hphase hnext hcrossed
      rcases hphase with hphase | hphase
      · have hmod := hlands hphase hcrossed
        refine absurd ⟨?_, hmod⟩ ((turn_reading hstep hphase).mp hnext)
        unfold Pass.Crossed reclaimEvery at hcrossed
        omega
      · simpa [Underway, hphase] using hunderway
  | _ => cases hc

/-! ## The run -/

/-- Every pass that reaches or crosses a multiple of 50 is followed by a reclaim of both
streams before the next pass, exactly as long as every such pass ends on a multiple. -/
theorem reclaimsInTime_run_iff (scalars : Scalars F D) (as : List (Action D)) :
    Along (passStep scalars) ReclaimsInTime ⟨{}, fun _ => {}⟩ as ↔
      Along (passStep scalars) (fun s a _ => LandsOnMultiple s a) ⟨{}, fun _ => {}⟩ as := by
  refine along_iff (I := fun s => ∀ c, Underway (s.state.consumers c) (s.ghost c))
    (fun _ _ _ hI h _ => underway_step hI h) (fun _ _ _ hI h => reclaimsInTime_iff hI h) ?_
  intro c
  trivial

/-! ## A batch that steps over the multiple -/

/-- A message of a type no consumer knows: it is acknowledged and counts as processed. -/
def unknownMessage : Data := Dict.ofPairs [("event_type", "unknown")]

/-- Fifty-one messages wait, and one pass processes them all. -/
def oversteppingPass : List (Action Unit) :=
  [.start 0, .createGroup 0, .createGroup 0, .turn 0] ++
    List.replicate 51 (.publish .executions unknownMessage 0) ++ [.read 0] ++
    List.replicate 51 (.process 0 ⟨Uuid.repdigit 5, ()⟩ true true) ++ [.read 0, .turn 0]

theorem overstepped_without_reclaim :
    ¬ Along (passStep plainScalars) ReclaimsInTime ⟨{}, fun _ => {}⟩ oversteppingPass ∧
      (run (passStep plainScalars) ⟨{}, fun _ => {}⟩ oversteppingPass).any fun t =>
        (t.state.consumers 0).messagesProcessed = 51 ∧
          (t.state.consumers 0).phase = .reading streams := by
  constructor <;> decide +kernel

end Sutram.Observability.Backlog
