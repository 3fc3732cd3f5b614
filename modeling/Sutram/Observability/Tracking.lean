/-
The schedules in which the tail sampler loses nothing, and what it keeps in them.

The spans of an execution leave Redis in `flush` and reach the database with the commit
of the completed event.  Nothing is lost when that event finds every step buffered, and
no other delivery of it, failure, expiry or overwriting comes between the buffering of a
span and the commit.
-/
import Sutram.Observability.Spans

namespace Sutram.Observability

open Sutram.Core

variable {F D : Type} {n : Nat}

variable (cfg : Config F D) (e : Uuid)

/-! ## The schedules that lose nothing -/

/-- The spans of the execution are in a replica's hands: their deletion from the buffer
is done, their commit is not. -/
def Holds : Option (Work F D) → Prop
  | some (.handle _ _ event (.write _)) | some (.handle _ _ event (.commit _ _)) =>
    completedOf event = some e
  | _ => False

def Held (w : World F D n) : Prop := ∃ r, Holds e (w.replicas r).work

/-- What is asked of one stage of a handler. -/
def StageUndisturbed (w : World F D n) (data : Data) (event : Event F D) : Stage F → Prop
  -- A span overwrites no span of another step that is not stored yet.
  | .buffer =>
    ∀ target ∈ spanKey event, target.1 = e → ∀ old ∈ (w.buffer.spans e).get? target.2,
      IsStep e old → old = data ∨ Stored cfg w old
  -- The completed event is handled after every step, and one delivery at a time.
  | .decide =>
    completedOf event = some e →
      (∀ data ∈ cfg.stream, IsStep e data → data ∈ w.buffered) ∧ ¬ Held e w
  | .read _ => completedOf event = some e → ¬ Held e w
  | .write spans => completedOf event = some e → ∀ span ∈ spans, Convertible cfg.builtins span
  | _ => True

def WorkUndisturbed (w : World F D n) : Option (Work F D) → Prop
  | some (.handle _ data event stage) => StageUndisturbed cfg e w data event stage
  | some (.ack _) | none => True

def ActionUndisturbed (w : World F D n) : Action D n → Prop
  | .deliver _ _ _ => True
  | .advance r _ => WorkUndisturbed cfg e w (w.replicas r).work
  | .fail r | .crash r => ¬ Holds e (w.replicas r).work
  | .expireSpans executionId =>
    executionId = e → ∀ span ∈ w.buffer.values e, IsStep e span → Stored cfg w span
  | .expireFailure executionId =>
    executionId = e → w.buffer.hasFailure e = false ∨ AllSlow cfg e

/-- Until the execution is complete in the database, no step endangers a span of it or
its failure flag. -/
def Undisturbed (w : World F D n) (a : Action D n) : Prop :=
  Complete cfg e w ∨ ActionUndisturbed cfg e w a

section Decidable

variable [DecidableEq F]

instance decidableHolds : (x : Option (Work F D)) → Decidable (Holds e x)
  | some (.handle _ _ event (.write _)) | some (.handle _ _ event (.commit _ _)) =>
    inferInstanceAs (Decidable (completedOf event = some e))
  | none | some (.ack _) | some (.handle _ _ _ .buffer) | some (.handle _ _ _ .expire)
  | some (.handle _ _ _ .flag) | some (.handle _ _ _ .decide) | some (.handle _ _ _ (.read _))
  | some (.handle _ _ _ (.clear _ _)) => isFalse id

instance (w : World F D n) : Decidable (Held e w) := inferInstanceAs (Decidable (∃ _ : Fin n, _))

instance decidableStageUndisturbed (w : World F D n) (data : Data) (event : Event F D) :
    (stage : Stage F) → Decidable (StageUndisturbed cfg e w data event stage)
  | .buffer => inferInstanceAs (Decidable (∀ target ∈ spanKey event, target.1 = e →
      ∀ old ∈ (w.buffer.spans e).get? target.2, IsStep e old → old = data ∨ Stored cfg w old))
  | .decide => inferInstanceAs (Decidable (_ → _ ∧ _))
  | .read _ => inferInstanceAs (Decidable (_ → _))
  | .write spans => inferInstanceAs (Decidable (_ → ∀ span ∈ spans, _))
  | .expire | .flag | .clear _ _ | .commit _ _ => isTrue trivial

instance decidableWorkUndisturbed (w : World F D n) :
    (x : Option (Work F D)) → Decidable (WorkUndisturbed cfg e w x)
  | some (.handle _ data event stage) => decidableStageUndisturbed cfg e w data event stage
  | some (.ack _) | none => isTrue trivial

instance decidableActionUndisturbed (w : World F D n) :
    (a : Action D n) → Decidable (ActionUndisturbed cfg e w a)
  | .deliver _ _ _ => isTrue trivial
  | .advance r _ => inferInstanceAs (Decidable (WorkUndisturbed cfg e w (w.replicas r).work))
  | .fail r | .crash r => inferInstanceAs (Decidable (¬ Holds e (w.replicas r).work))
  | .expireSpans _ => inferInstanceAs (Decidable (_ → ∀ span ∈ w.buffer.values e, _))
  | .expireFailure _ => inferInstanceAs (Decidable (_ → _ ∨ _))

instance (w : World F D n) (a : Action D n) : Decidable (Undisturbed cfg e w a) :=
  inferInstanceAs (Decidable (_ ∨ _))

end Decidable

/-! ## The invariant -/

/-- A buffered step is in the buffer, in the database or in between. -/
def Kept (w : World F D n) (data : Data) : Prop :=
  data ∈ w.buffer.values e ∨ Stored cfg w data ∨ Held e w

def StageFits (w : World F D n) (data : Data) (event : Event F D) : Stage F → Prop
  | .buffer | .decide => True
  | .expire | .flag => IsStep e data → Kept cfg e w data
  | .read keep =>
    completedOf event = some e →
      keep = true ∧ ∀ step ∈ cfg.stream, IsStep e step → step ∈ w.buffered
  | .clear keep spans =>
    completedOf event = some e →
      keep = true ∧ ∀ step ∈ cfg.stream, IsStep e step → step ∈ spans ∨ Stored cfg w step
  | .write spans =>
    completedOf event = some e →
      ∀ step ∈ cfg.stream, IsStep e step → step ∈ spans ∨ Stored cfg w step
  | .commit traces _ =>
    completedOf event = some e →
      (∃ row ∈ traces, row.executionId = e ∧ row.eventType = "execution.completed") ∧
        ∀ step ∈ cfg.stream, IsStep e step →
          (∃ row ∈ traces, SpanOf cfg.builtins row step) ∨ Stored cfg w step

def WorkFits (w : World F D n) : Option (Work F D) → Prop
  | none => True
  | some (.ack i) => ∀ data, cfg.stream[i]? = some data → ¬ IsCompleted e data
  | some (.handle i data event stage) =>
    cfg.stream[i]? = some data ∧ (∃ fresh, parseEvent cfg.scalars fresh data = .ok event) ∧
      StageFits cfg e w data event stage

/-- What holds while the execution is not complete yet. -/
structure Tracked (w : World F D n) : Prop where
  acked : ∀ i data, i ∈ w.acked → cfg.stream[i]? = some data → ¬ IsCompleted e data
  work : ∀ r, WorkFits cfg e w (w.replicas r).work
  kept : ∀ data ∈ w.buffered, IsStep e data → Kept cfg e w data
  flagged : AllSlow cfg e ∨
    ∀ data ∈ w.buffered, IsFailed e data → w.buffer.hasFailure e = true ∨ Held e w

/-! ## One replica moves -/

section Moves

variable {cfg e} {w w' : World F D n} {r : Fin n} {x : Option (Work F D)}

/-- The work of one replica changes to `x`, that of the others does not. -/
structure Moves (w w' : World F D n) (r : Fin n) (x : Option (Work F D)) : Prop where
  self : (w'.replicas r).work = x
  others : ∀ r', r' ≠ r → (w'.replicas r').work = (w.replicas r').work

theorem Moves.held (h : Moves w w' r x) (hkeep : Holds e (w.replicas r).work → Holds e x)
    (hheld : Held e w) : Held e w' := by
  obtain ⟨r', hr'⟩ := hheld
  by_cases heq : r' = r
  · subst heq
    exact ⟨r', by rw [h.self]; exact hkeep hr'⟩
  · exact ⟨r', by rw [h.others r' heq]; exact hr'⟩

theorem Stored.mono (htraces : ∀ row ∈ w.traces, row ∈ w'.traces) {data : Data}
    (h : Stored cfg w data) : Stored cfg w' data := by
  obtain ⟨row, hrow, hspan⟩ := h
  exact ⟨row, htraces row hrow, hspan⟩

theorem Complete.mono (htraces : ∀ row ∈ w.traces, row ∈ w'.traces) (h : Complete cfg e w) :
    Complete cfg e w' := by
  obtain ⟨⟨row, hrow, hcompletion⟩, hsteps⟩ := h
  exact ⟨⟨row, htraces row hrow, hcompletion⟩, fun data hdata hstep =>
    (hsteps data hdata hstep).mono htraces⟩

theorem StageFits.mono (htraces : ∀ row ∈ w.traces, row ∈ w'.traces)
    (hold : ∀ data ∈ w.buffered, data ∈ w'.buffered)
    (hkept : ∀ data, IsStep e data → Kept cfg e w data → Kept cfg e w' data)
    {data : Data} {event : Event F D} {stage : Stage F}
    (h : StageFits cfg e w data event stage) : StageFits cfg e w' data event stage := by
  cases stage with
  | buffer | decide => trivial
  | expire | flag => exact fun hstep => hkept data hstep (h hstep)
  | read keep =>
    intro hevent
    obtain ⟨hkeep, hall⟩ := h hevent
    exact ⟨hkeep, fun step hmem hstep => hold step (hall step hmem hstep)⟩
  | clear keep spans =>
    intro hevent
    obtain ⟨hkeep, hall⟩ := h hevent
    exact ⟨hkeep, fun step hmem hstep => (hall step hmem hstep).imp_right (Stored.mono htraces)⟩
  | write spans =>
    intro hevent step hmem hstep
    exact (h hevent step hmem hstep).imp_right (Stored.mono htraces)
  | commit traces audit =>
    intro hevent
    obtain ⟨hcompletion, hall⟩ := h hevent
    exact ⟨hcompletion, fun step hmem hstep =>
      (hall step hmem hstep).imp_right (Stored.mono htraces)⟩

theorem WorkFits.mono (htraces : ∀ row ∈ w.traces, row ∈ w'.traces)
    (hold : ∀ data ∈ w.buffered, data ∈ w'.buffered)
    (hkept : ∀ data, IsStep e data → Kept cfg e w data → Kept cfg e w' data)
    (h : WorkFits cfg e w x) : WorkFits cfg e w' x := by
  match x, h with
  | none, _ => trivial
  | some (.ack i), h => exact h
  | some (.handle i data event stage), ⟨hdata, hparse, hfits⟩ =>
    exact ⟨hdata, hparse, hfits.mono htraces hold hkept⟩

theorem Kept.move (hmoves : Moves w w' r x) (htraces : ∀ row ∈ w.traces, row ∈ w'.traces)
    (hheld : Holds e (w.replicas r).work → Holds e x) {data : Data}
    (hbuffer : data ∈ w.buffer.values e → Kept cfg e w' data) (h : Kept cfg e w data) :
    Kept cfg e w' data := by
  rcases h with hmem | hstored | hin
  · exact hbuffer hmem
  · exact .inr (.inl (hstored.mono htraces))
  · exact .inr (.inr (hmoves.held hheld hin))

/-- The rule for one move.  What the buffer or the replica gives up must be kept
elsewhere, and what is new must be accounted for. -/
theorem Tracked.move (h : Tracked cfg e w) (hmoves : Moves w w' r x)
    (htraces : ∀ row ∈ w.traces, row ∈ w'.traces)
    (hheld : Holds e (w.replicas r).work → Holds e x)
    (hbuffer : ∀ data, IsStep e data → data ∈ w.buffer.values e → Kept cfg e w' data)
    (hfailure : AllSlow cfg e ∨
      (w.buffer.hasFailure e = true → w'.buffer.hasFailure e = true ∨ Held e w'))
    (hold : ∀ data ∈ w.buffered, data ∈ w'.buffered)
    (hnew : ∀ data ∈ w'.buffered, data ∈ w.buffered ∨
      (IsStep e data → Kept cfg e w' data) ∧
        (IsFailed e data → w'.buffer.hasFailure e = true ∨ Held e w'))
    (hacked : ∀ i ∈ w'.acked, i ∈ w.acked ∨
      ∀ data, cfg.stream[i]? = some data → ¬ IsCompleted e data)
    (hfits : WorkFits cfg e w' x) : Tracked cfg e w' := by
  have hkept : ∀ data, IsStep e data → Kept cfg e w data → Kept cfg e w' data :=
    fun data hstep => Kept.move hmoves htraces hheld (hbuffer data hstep)
  refine ⟨fun i data hi hdata => ?_, fun r' => ?_, fun data hmem hstep => ?_, ?_⟩
  · rcases hacked i hi with hi | hnot
    · exact h.acked i data hi hdata
    · exact hnot data hdata
  · by_cases heq : r' = r
    · rw [heq, hmoves.self]
      exact hfits
    · rw [hmoves.others r' heq]
      exact (h.work r').mono htraces hold hkept
  · rcases hnew data hmem with hmem | hnew
    · exact hkept data hstep (h.kept data hmem hstep)
    · exact hnew.1 hstep
  · rcases h.flagged with hslow | hflagged
    · exact .inl hslow
    · rcases hfailure with hslow | hfailure
      · exact .inl hslow
      · refine .inr fun data hmem hfailed => ?_
        rcases hnew data hmem with hmem | hnew
        · rcases hflagged data hmem hfailed with hflag | hin
          · exact hfailure hflag
          · exact .inr (hmoves.held hheld hin)
        · exact hnew.2 hfailed

/-- A move that writes at most to Redis. -/
theorem Tracked.redis (h : Tracked cfg e w) (hmoves : Moves w w' r x)
    (hsame : w'.traces = w.traces ∧ w'.buffered = w.buffered ∧ w'.acked = w.acked)
    (hheld : Holds e (w.replicas r).work → Holds e x)
    (hbuffer : ∀ data, IsStep e data → data ∈ w.buffer.values e → Kept cfg e w' data)
    (hfailure : w.buffer.hasFailure e = true → w'.buffer.hasFailure e = true ∨ Held e w')
    (hfits : WorkFits cfg e w' x) : Tracked cfg e w' := by
  obtain ⟨htraces, hbuffered, hacked⟩ := hsame
  refine h.move hmoves ?_ hheld hbuffer (.inr hfailure) ?_ ?_ ?_ hfits
  · exact fun row hrow => by rwa [htraces]
  · exact fun data hmem => by rwa [hbuffered]
  · exact fun data hmem => .inl (by rwa [← hbuffered])
  · exact fun i hi => .inl (by rwa [← hacked])

/-- A move that leaves Redis and the database as they are. -/
theorem Tracked.quiet (h : Tracked cfg e w) (hmoves : Moves w w' r x)
    (hsame : w'.traces = w.traces ∧ w'.buffered = w.buffered ∧ w'.acked = w.acked)
    (hbuffer : w'.buffer = w.buffer) (hheld : Holds e (w.replicas r).work → Holds e x)
    (hfits : WorkFits cfg e w' x) : Tracked cfg e w' := by
  refine h.redis hmoves hsame hheld (fun data _ hmem => .inl ?_) (fun hflag => .inl ?_) hfits
  · rwa [hbuffer]
  · rwa [hbuffer]

theorem moves_setWork {w₁ : World F D n}
    (hsame : ∀ r', (w₁.replicas r').work = (w.replicas r').work) :
    Moves w (w₁.setWork r x) r x :=
  ⟨w₁.setWork_work_self r x, fun r' hr' => by rw [w₁.setWork_work_of_ne hr', hsame]⟩

end Moves

/-! ## The stages -/

section Stages

variable {cfg e} {w w' : World F D n} {r : Fin n} {env : Env} {i : Nat} {data : Data}
  {event : Event F D}

theorem Tracked.fits (h : Tracked cfg e w) {stage : Stage F}
    (hwork : (w.replicas r).work = some (.handle i data event stage)) :
    cfg.stream[i]? = some data ∧ (∃ fresh, parseEvent cfg.scalars fresh data = .ok event) ∧
      StageFits cfg e w data event stage := by
  have hfits := h.work r
  rwa [hwork] at hfits

/-- The HSET loses nothing it should not. -/
theorem kept_of_bufferSpan (hclause : StageUndisturbed cfg e w data event .buffer)
    {executionId : Uuid} {key : String} (hkey : spanKey event = some (executionId, key))
    (hbuffer : w'.buffer = w.buffer.bufferSpan executionId key data)
    (htraces : w'.traces = w.traces)
    (old : Data) (hstep : IsStep e old) (hmem : old ∈ w.buffer.values e) : Kept cfg e w' old := by
  by_cases heq : executionId = e
  · subst heq
    have hplace : old ∈ (w.buffer.bufferSpan executionId key data).values executionId ∨
        (w.buffer.spans executionId).get? key = some old := w.buffer.values_bufferSpan hmem
    rcases hplace with hmem | hold
    · exact .inl (by rwa [hbuffer])
    · rcases hclause (executionId, key) hkey rfl old hold hstep with rfl | hstored
      · exact .inl (by rw [hbuffer]; exact w.buffer.mem_values_bufferSpan)
      · exact .inr (.inl (hstored.mono fun row hrow => by rwa [htraces]))
  · exact .inl (by rwa [hbuffer, w.buffer.values_bufferSpan_of_ne heq])

theorem kept_of_own_bufferSpan {fresh : Fresh D}
    (hparse : parseEvent cfg.scalars fresh data = .ok event) {executionId : Uuid} {key : String}
    (hkey : spanKey event = some (executionId, key))
    (hbuffer : w'.buffer = w.buffer.bufferSpan executionId key data) (hstep : IsStep e data) :
    Kept cfg e w' data := by
  obtain ⟨key', hkey'⟩ := spanKey_of_isStep hparse hstep
  obtain ⟨rfl, rfl⟩ := Prod.mk.inj (Option.some.inj (hkey.symm.trans hkey'))
  exact .inl (by rw [hbuffer]; exact w.buffer.mem_values_bufferSpan)

theorem Tracked.buffer (h : Tracked cfg e w)
    (hwork : (w.replicas r).work = some (.handle i data event .buffer))
    (hclause : StageUndisturbed cfg e w data event .buffer)
    (hstep : advanceHandler cfg w r env i data event .buffer = some w') : Tracked cfg e w' := by
  obtain ⟨hdata, ⟨fresh, hparse⟩, -⟩ := h.fits hwork
  have hheld : ∀ x : Option (Work F D), Holds e (w.replicas r).work → Holds e x := by
    simp [hwork, Holds]
  cases event with
  | executionStarted ev | stepFailed ev =>
    obtain rfl := Option.some.inj hstep
    exact h.redis (moves_setWork fun _ => rfl) ⟨rfl, rfl, rfl⟩ (hheld _)
      (kept_of_bufferSpan hclause rfl rfl rfl) .inl
      ⟨hdata, ⟨fresh, hparse⟩, kept_of_own_bufferSpan hparse rfl rfl⟩
  | stepCompleted ev =>
    obtain rfl := Option.some.inj hstep
    refine h.move (moves_setWork fun _ => rfl) (fun _ hrow => hrow) (hheld _)
      (kept_of_bufferSpan hclause rfl rfl rfl) (.inr .inl)
      (fun _ hmem => List.mem_cons_of_mem _ hmem)
      (fun d hmem => ?_) (fun _ hi => .inl hi)
      ⟨hdata, ⟨fresh, hparse⟩, kept_of_own_bufferSpan hparse rfl rfl⟩
    rcases List.mem_cons.mp hmem with rfl | hmem
    · exact .inr ⟨kept_of_own_bufferSpan hparse rfl rfl, fun hfailed =>
        absurd hfailed (not_isFailed_of_stepCompleted hparse)⟩
    · exact .inl hmem
  | executionCompleted | executionPaused | memoryWritten | memorySearched => cases hstep

theorem Tracked.expire (h : Tracked cfg e w)
    (hwork : (w.replicas r).work = some (.handle i data event .expire))
    (hstep : advanceHandler cfg w r env i data event .expire = some w') : Tracked cfg e w' := by
  obtain ⟨hdata, hparse, hkept⟩ := h.fits hwork
  have hheld : ∀ x : Option (Work F D), Holds e (w.replicas r).work → Holds e x := by
    simp [hwork, Holds]
  cases event with
  | executionStarted ev | stepCompleted ev =>
    obtain rfl := Option.some.inj hstep
    refine h.quiet (moves_setWork fun r' => World.record_work _ _ _ _) ⟨rfl, rfl, rfl⟩ rfl (hheld _)
      ⟨hdata, hparse, ?_⟩
    rintro ⟨⟩
  | stepFailed ev =>
    obtain rfl := Option.some.inj hstep
    refine h.quiet (moves_setWork fun _ => rfl) ⟨rfl, rfl, rfl⟩ rfl (hheld _)
      ⟨hdata, hparse, fun hstep => ?_⟩
    exact Kept.move (moves_setWork fun _ => rfl) (fun _ hrow => hrow) (hheld _) .inl (hkept hstep)
  | executionCompleted | executionPaused | memoryWritten | memorySearched => cases hstep

theorem Tracked.flag (h : Tracked cfg e w)
    (hwork : (w.replicas r).work = some (.handle i data event .flag))
    (hstep : advanceHandler cfg w r env i data event .flag = some w') : Tracked cfg e w' := by
  obtain ⟨hdata, ⟨fresh, hparse⟩, hkept⟩ := h.fits hwork
  have hheld : ∀ x : Option (Work F D), Holds e (w.replicas r).work → Holds e x := by
    simp [hwork, Holds]
  cases event with
  | stepFailed ev =>
    obtain rfl := Option.some.inj hstep
    refine h.move (moves_setWork fun _ => rfl) (fun _ hrow => hrow) (hheld _)
      (fun _ _ hmem => .inl hmem)
      (.inr fun hflag => .inl (w.buffer.hasFailure_markHasFailure hflag))
      (fun _ hmem => List.mem_cons_of_mem _ hmem) (fun d hmem => ?_) (fun _ hi => .inl hi)
      ⟨hdata, ⟨fresh, hparse⟩, ?_⟩
    · rcases List.mem_cons.mp hmem with rfl | hmem
      · refine .inr ⟨fun hstep => ?_, fun hfailed => .inl ?_⟩
        · exact Kept.move (moves_setWork fun _ => rfl) (fun _ hrow => hrow) (hheld _) .inl
            (hkept hstep)
        · have hid := Option.some.inj ((parseEvent_stepFailed hparse).symm.trans hfailed.1)
          rw [← hid]
          exact w.buffer.hasFailure_markHasFailure_self
      · exact .inl hmem
    · rintro ⟨⟩
  | executionStarted | stepCompleted | executionCompleted | executionPaused | memoryWritten
  | memorySearched => cases hstep

/-- A decision taken after every step keeps the trace. -/
theorem Tracked.keeps (h : Tracked cfg e w) (hmust : MustKeep cfg e)
    (hall : ∀ step ∈ cfg.stream, IsStep e step → step ∈ w.buffered) (hfree : ¬ Held e w)
    {ev : ExecutionCompletedEvent F D} {fresh : Fresh D} (hid : ev.executionId = e)
    (hmem : data ∈ cfg.stream)
    (hparse : parseEvent cfg.scalars fresh data = .ok (.executionCompleted ev)) (draw : Bool) :
    shouldKeep cfg w ev draw = true := by
  have hslow : AllSlow cfg e → shouldKeep cfg w ev draw = true := by
    intro hslow
    have hcompleted := isCompleted_of_completedOf hparse (congrArg some hid)
    have hduration := hslow data hmem hcompleted
    rw [isSlow_of_completed hparse] at hduration
    simp [shouldKeep, of_decide_eq_true hduration]
  rcases h.flagged with hallSlow | hflagged
  · exact hslow hallSlow
  · rcases hmust with ⟨failed, hstream, hfailed⟩ | hallSlow
    · have hheld := hall failed hstream hfailed.isStep
      have hflag := (hflagged failed hheld hfailed).resolve_right hfree
      simp [shouldKeep, hid, hflag]
    · exact hslow hallSlow

theorem Tracked.decide (h : Tracked cfg e w) (hmust : MustKeep cfg e)
    (hwork : (w.replicas r).work = some (.handle i data event .decide))
    (hclause : StageUndisturbed cfg e w data event .decide)
    (hstep : advanceHandler cfg w r env i data event .decide = some w') : Tracked cfg e w' := by
  obtain ⟨hdata, ⟨fresh, hparse⟩, -⟩ := h.fits hwork
  cases event with
  | executionCompleted ev =>
    obtain rfl := Option.some.inj hstep
    refine h.quiet (moves_setWork fun _ => rfl) ⟨rfl, rfl, rfl⟩ rfl ?_ ⟨hdata, ⟨fresh, hparse⟩, ?_⟩
    · simp [hwork, Holds]
    · intro hevent
      obtain ⟨hall, hfree⟩ := hclause hevent
      exact ⟨h.keeps hmust hall hfree (Option.some.inj hevent) (List.mem_of_getElem? hdata)
        hparse env.draw, hall⟩
  | executionStarted | stepCompleted | stepFailed | executionPaused | memoryWritten
  | memorySearched => cases hstep

theorem Tracked.read (h : Tracked cfg e w) {keep : Bool}
    (hwork : (w.replicas r).work = some (.handle i data event (.read keep)))
    (hclause : StageUndisturbed cfg e w data event (.read keep))
    (hstep : advanceHandler cfg w r env i data event (.read keep) = some w') :
    Tracked cfg e w' := by
  obtain ⟨hdata, hparse, hfits⟩ := h.fits hwork
  cases event with
  | executionCompleted ev =>
    obtain rfl := Option.some.inj hstep
    refine h.quiet (moves_setWork fun _ => rfl) ⟨rfl, rfl, rfl⟩ rfl ?_ ⟨hdata, hparse, ?_⟩
    · simp [hwork, Holds]
    · intro hevent
      obtain ⟨hkeep, hall⟩ := hfits hevent
      refine ⟨hkeep, fun step hmem hstep => ?_⟩
      rcases h.kept step (hall step hmem hstep) hstep with hbuffer | hstored | hin
      · exact .inl (by rwa [Option.some.inj hevent])
      · exact .inr hstored
      · exact absurd hin (hclause hevent)
  | executionStarted | stepCompleted | stepFailed | executionPaused | memoryWritten
  | memorySearched => cases hstep

/-- After the DELETE the spans are in the replica's hands. -/
theorem Tracked.clear (h : Tracked cfg e w) {keep : Bool} {spans : List Data}
    (hwork : (w.replicas r).work = some (.handle i data event (.clear keep spans)))
    (hstep : advanceHandler cfg w r env i data event (.clear keep spans) = some w') :
    Tracked cfg e w' := by
  obtain ⟨hdata, hparse, hfits⟩ := h.fits hwork
  have hheld : ∀ x : Option (Work F D), Holds e (w.replicas r).work → Holds e x := by
    simp [hwork, Holds]
  cases event with
  | executionCompleted ev =>
    by_cases hid : ev.executionId = e
    · obtain ⟨rfl, hall⟩ := hfits (congrArg some hid)
      obtain rfl := Option.some.inj hstep
      have hin : Held e ((w.onBuffer fun b => (b.dropSpans ev.executionId).dropFailure
          ev.executionId).setWork r
            (some (.handle i data (.executionCompleted ev) (.write spans)))) := by
        refine ⟨r, ?_⟩
        rw [World.setWork_work_self]
        exact congrArg some hid
      exact h.redis (moves_setWork fun _ => rfl) ⟨rfl, rfl, rfl⟩ (hheld _)
        (fun _ _ _ => .inr (.inr hin)) (fun _ => .inr hin) ⟨hdata, hparse, fun _ => hall⟩
    · have hother : ∀ {P : Prop}, completedOf (.executionCompleted ev : Event F D) = some e → P :=
        fun hevent => absurd (Option.some.inj hevent) hid
      have hspans : ∀ old, old ∈ w.buffer.values e →
          old ∈ (w.buffer.dropSpans ev.executionId).values e :=
        fun old hmem => by rwa [w.buffer.values_dropSpans_of_ne hid]
      have hfailure := (w.buffer.dropSpans ev.executionId).hasFailure_dropFailure_of_ne hid
      cases keep with
      | true =>
        obtain rfl := Option.some.inj hstep
        exact h.redis (moves_setWork fun _ => rfl) ⟨rfl, rfl, rfl⟩ (hheld _)
          (fun old _ hmem => .inl (hspans old hmem)) (fun hflag => .inl (hfailure.trans hflag))
          ⟨hdata, hparse, hother⟩
      | false =>
        obtain rfl := Option.some.inj hstep
        exact h.redis (moves_setWork fun r' => World.record_work _ _ _ _) ⟨rfl, rfl, rfl⟩ (hheld _)
          (fun old _ hmem => .inl (hspans old hmem)) (fun hflag => .inl (hfailure.trans hflag))
          ⟨hdata, hparse, hother⟩
  | executionStarted | stepCompleted | stepFailed | executionPaused | memoryWritten
  | memorySearched => cases hstep

theorem Tracked.write (h : Tracked cfg e w) {spans : List Data}
    (hwork : (w.replicas r).work = some (.handle i data event (.write spans)))
    (hclause : StageUndisturbed cfg e w data event (.write spans))
    (hstep : advanceHandler cfg w r env i data event (.write spans) = some w') :
    Tracked cfg e w' := by
  obtain ⟨hdata, hparse, hfits⟩ := h.fits hwork
  cases event with
  | executionCompleted ev =>
    rw [advanceHandler] at hstep
    split at hstep
    · rename_i rows hrows
      obtain rfl := Option.some.inj hstep
      refine h.quiet (moves_setWork fun r' => World.record_work _ _ _ _) ⟨rfl, rfl, rfl⟩ rfl ?_
        ⟨hdata, hparse, fun hevent => ⟨⟨_, List.mem_cons_self, Option.some.inj hevent, rfl⟩, ?_⟩⟩
      · rw [hwork]
        exact id
      · intro step hmem hstep
        refine (hfits hevent step hmem hstep).imp_left fun hspan => ?_
        obtain ⟨row, hrow, hspanOf⟩ := mem_writeSpans hrows hspan
        exact ⟨row, List.mem_cons_of_mem _ hrow, hspanOf⟩
    · rename_i hnone
      obtain rfl := Option.some.inj hstep
      refine h.quiet (moves_setWork fun _ => rfl) ⟨rfl, rfl, rfl⟩ rfl ?_ trivial
      rw [hwork]
      exact fun hholds => absurd hnone (writeSpans_ne_none (hclause hholds))
  | executionStarted | stepCompleted | stepFailed | executionPaused | memoryWritten
  | memorySearched => cases hstep

/-- The commit of the completed event completes the execution. -/
theorem Tracked.commit (h : Tracked cfg e w) {traces : List (ExecutionTraceORM F)}
    {audit : List AuditLogORM}
    (hwork : (w.replicas r).work = some (.handle i data event (.commit traces audit)))
    (hstep : advanceHandler cfg w r env i data event (.commit traces audit) = some w') :
    Complete cfg e w' ∨ Tracked cfg e w' := by
  obtain ⟨hdata, ⟨fresh, hparse⟩, hfits⟩ := h.fits hwork
  obtain rfl := Option.some.inj hstep
  have hgrow : ∀ row ∈ w.traces, row ∈ w.traces ++ traces :=
    fun row hrow => List.mem_append_left traces hrow
  by_cases hevent : completedOf event = some e
  · obtain ⟨⟨row, hrow, hcompletion⟩, hall⟩ := hfits hevent
    refine .inl ⟨⟨row, List.mem_append_right w.traces hrow, hcompletion⟩, fun step hmem hstep => ?_⟩
    rcases hall step hmem hstep with ⟨row, hrow, hspan⟩ | hstored
    · exact ⟨row, List.mem_append_right w.traces hrow, hspan⟩
    · exact hstored.mono hgrow
  · refine .inr (h.move (moves_setWork fun _ => rfl) hgrow ?_ (fun _ _ hmem => .inl hmem)
      (.inr .inl) (fun _ hmem => hmem) (fun _ hmem => .inl hmem) (fun _ hi => .inl hi) ?_)
    · rw [hwork]
      exact fun hholds => absurd hholds hevent
    · intro data' hdata' hcompleted
      obtain rfl := Option.some.inj (hdata.symm.trans hdata')
      exact hevent (completedOf_of_isCompleted hparse hcompleted)

end Stages

/-! ## One step -/

section Step

variable {cfg e} {w w' : World F D n}

theorem Tracked.advanceHandler (h : Tracked cfg e w) (hmust : MustKeep cfg e) {r : Fin n}
    {env : Env} {i : Nat} {data : Data} {event : Event F D} {stage : Stage F}
    (hwork : (w.replicas r).work = some (.handle i data event stage))
    (hclause : StageUndisturbed cfg e w data event stage)
    (hstep : advanceHandler cfg w r env i data event stage = some w') :
    Complete cfg e w' ∨ Tracked cfg e w' := by
  cases stage with
  | buffer => exact .inr (h.buffer hwork hclause hstep)
  | expire => exact .inr (h.expire hwork hstep)
  | flag => exact .inr (h.flag hwork hstep)
  | decide => exact .inr (h.decide hmust hwork hclause hstep)
  | read keep => exact .inr (h.read hwork hclause hstep)
  | clear keep spans => exact .inr (h.clear hwork hstep)
  | write spans => exact .inr (h.write hwork hclause hstep)
  | commit traces audit => exact h.commit hwork hstep

theorem Tracked.begin (h : Tracked cfg e w) {r : Fin n} {i : Nat} {data : Data} {fresh : Fresh D}
    (hdata : cfg.stream[i]? = some data) (hidle : (w.replicas r).work = none) :
    Tracked cfg e (begin cfg w r i data fresh) := by
  have hheld : ∀ x : Option (Work F D), Holds e (w.replicas r).work → Holds e x := by
    simp [hidle, Holds]
  have hfits : ∀ event, parseEvent cfg.scalars fresh data = .ok event → ∀ w₁ : World F D n,
      WorkFits cfg e w₁ (some (.handle i data event (firstStage event))) := by
    intro event hparse w₁
    refine ⟨hdata, ⟨fresh, hparse⟩, ?_⟩
    cases event with
    | executionStarted | stepCompleted | stepFailed | executionCompleted => trivial
    | executionPaused | memoryWritten | memorySearched => rintro ⟨⟩
  unfold Observability.begin
  split
  · rename_i hparse
    refine h.quiet (moves_setWork fun _ => rfl) ⟨rfl, rfl, rfl⟩ rfl (hheld _) ?_
    intro data' hdata' hcompleted
    obtain rfl := Option.some.inj (hdata.symm.trans hdata')
    exact parseEvent_unknown hparse hcompleted.2
  · exact h
  · rename_i ev hparse
    exact h.quiet (moves_setWork fun r' => World.record_work _ _ _ _) ⟨rfl, rfl, rfl⟩ rfl
      (hheld _) (hfits _ hparse _)
  · rename_i event _ hparse
    exact h.quiet (moves_setWork fun _ => rfl) ⟨rfl, rfl, rfl⟩ rfl (hheld _) (hfits _ hparse _)

theorem Tracked.ack (h : Tracked cfg e w) {r : Fin n} {i : Nat}
    (hwork : (w.replicas r).work = some (.ack i)) :
    Tracked cfg e ((w.ack i).setWork r none) := by
  have hfits := h.work r
  rw [hwork] at hfits
  refine h.move (moves_setWork fun _ => rfl) (fun _ hrow => hrow) ?_ (fun _ _ hmem => .inl hmem)
    (.inr .inl) (fun _ hmem => hmem) (fun _ hmem => .inl hmem) (fun j hj => ?_) trivial
  · simp [hwork, Holds]
  · rcases List.mem_cons.mp hj with rfl | hj
    · exact .inr hfits
    · exact .inl hj

/-- Giving up a message is harmless while no span is in the replica's hands. -/
theorem Tracked.stop (h : Tracked cfg e w) {r : Fin n} (hfree : ¬ Holds e (w.replicas r).work)
    (hmoves : Moves w w' r none)
    (hsame : w'.traces = w.traces ∧ w'.buffered = w.buffered ∧ w'.acked = w.acked)
    (hbuffer : w'.buffer = w.buffer) : Tracked cfg e w' :=
  h.quiet hmoves hsame hbuffer (fun hholds => absurd hholds hfree) trivial

/-- A change of the buffer alone, as by an expiry. -/
theorem Tracked.onBuffer (h : Tracked cfg e w) {f : TraceBuffer → TraceBuffer}
    (hspans : ∀ data, IsStep e data → data ∈ w.buffer.values e →
      data ∈ (f w.buffer).values e ∨ Stored cfg w data)
    (hflag : AllSlow cfg e ∨
      (w.buffer.hasFailure e = true → (f w.buffer).hasFailure e = true)) :
    Tracked cfg e (w.onBuffer f) := by
  have hkept : ∀ data, IsStep e data → Kept cfg e w data → Kept cfg e (w.onBuffer f) data := by
    rintro data hstep (hmem | hstored | hin)
    · rcases hspans data hstep hmem with hmem | hstored
      · exact .inl hmem
      · exact .inr (.inl hstored)
    · exact .inr (.inl hstored)
    · exact .inr (.inr hin)
  refine ⟨h.acked, fun r => ?_,
    fun data hmem hstep => hkept data hstep (h.kept data hmem hstep), ?_⟩
  · exact WorkFits.mono (fun row (hrow : row ∈ w.traces) => hrow)
      (fun data (hmem : data ∈ w.buffered) => hmem) hkept (h.work r)
  · rcases h.flagged with hslow | hflagged
    · exact .inl hslow
    · rcases hflag with hslow | hflag
      · exact .inl hslow
      · exact .inr fun data hmem hfailed => (hflagged data hmem hfailed).imp_left hflag

theorem advanceHandler_traces {r : Fin n} {env : Env} {i : Nat} {data : Data} {event : Event F D}
    {stage : Stage F} (h : Observability.advanceHandler cfg w r env i data event stage = some w') :
    ∃ rows, w'.traces = w.traces ++ rows := by
  cases stage with
  | buffer | expire =>
    cases event with
    | executionStarted | stepCompleted | stepFailed =>
      obtain rfl := Option.some.inj h
      exact ⟨[], (List.append_nil _).symm⟩
    | executionCompleted | executionPaused | memoryWritten | memorySearched => cases h
  | commit traces audit =>
    obtain rfl := Option.some.inj h
    exact ⟨traces, rfl⟩
  | flag =>
    cases event with
    | stepFailed =>
      obtain rfl := Option.some.inj h
      exact ⟨[], (List.append_nil _).symm⟩
    | executionStarted | stepCompleted | executionCompleted | executionPaused | memoryWritten
    | memorySearched => cases h
  | decide | read keep =>
    cases event with
    | executionCompleted =>
      obtain rfl := Option.some.inj h
      exact ⟨[], (List.append_nil _).symm⟩
    | executionStarted | stepCompleted | stepFailed | executionPaused | memoryWritten
    | memorySearched => cases h
  | clear keep spans =>
    cases event with
    | executionCompleted =>
      cases keep <;> obtain rfl := Option.some.inj h <;> exact ⟨[], (List.append_nil _).symm⟩
    | executionStarted | stepCompleted | stepFailed | executionPaused | memoryWritten
    | memorySearched => cases h
  | write spans =>
    cases event with
    | executionCompleted =>
      rw [Observability.advanceHandler] at h
      split at h <;> obtain rfl := Option.some.inj h <;> exact ⟨[], (List.append_nil _).symm⟩
    | executionStarted | stepCompleted | stepFailed | executionPaused | memoryWritten
    | memorySearched => cases h

theorem begin_traces {r : Fin n} {i : Nat} {data : Data} {fresh : Fresh D} :
    (Observability.begin cfg w r i data fresh).traces = w.traces := by
  unfold Observability.begin
  split <;> rfl

/-- Rows are never deleted. -/
theorem step_traces {a : Action D n} (h : step cfg w a = some w') :
    ∀ row ∈ w.traces, row ∈ w'.traces := by
  intro row hrow
  cases a with
  | deliver r i fresh =>
    rw [step] at h
    split at h
    · split at h
      · cases h
      · obtain rfl := Option.some.inj h
        rwa [begin_traces]
    · cases h
  | advance r env =>
    rw [step] at h
    split at h
    · obtain ⟨rows, hrows⟩ := advanceHandler_traces h
      rw [hrows]
      exact List.mem_append_left rows hrow
    · obtain rfl := Option.some.inj h
      exact hrow
    · cases h
  | fail | crash | expireSpans | expireFailure =>
    obtain rfl := Option.some.inj h
    exact hrow

/-- The step lemma. -/
theorem step_complete_or_tracked (hmust : MustKeep cfg e) {a : Action D n}
    (h : Complete cfg e w ∨ Tracked cfg e w) (hclause : Undisturbed cfg e w a)
    (hstep : step cfg w a = some w') : Complete cfg e w' ∨ Tracked cfg e w' := by
  rcases hclause with hcomplete | hclause
  · exact .inl (hcomplete.mono (step_traces hstep))
  rcases h with hcomplete | h
  · exact .inl (hcomplete.mono (step_traces hstep))
  cases a with
  | deliver r i fresh =>
    rw [step] at hstep
    split at hstep
    · rename_i data hdata hidle
      split at hstep
      · cases hstep
      · obtain rfl := Option.some.inj hstep
        exact .inr (h.begin hdata hidle)
    · cases hstep
  | advance r env =>
    rw [ActionUndisturbed] at hclause
    rw [step] at hstep
    split at hstep
    · rename_i i data event stage hwork
      rw [hwork] at hclause
      exact h.advanceHandler hmust hwork hclause hstep
    · rename_i i hwork
      obtain rfl := Option.some.inj hstep
      exact .inr (h.ack hwork)
    · cases hstep
  | fail r =>
    obtain rfl := Option.some.inj hstep
    exact .inr (h.stop hclause (moves_setWork fun _ => rfl) ⟨rfl, rfl, rfl⟩ rfl)
  | crash r =>
    obtain rfl := Option.some.inj hstep
    exact .inr (h.stop hclause ⟨w.crash_work_self r, fun r' hr' => w.crash_work_of_ne hr'⟩
      ⟨rfl, rfl, rfl⟩ rfl)
  | expireSpans executionId =>
    obtain rfl := Option.some.inj hstep
    refine .inr (h.onBuffer (fun data hisStep hmem => ?_) (.inr id))
    by_cases heq : executionId = e
    · exact .inr (hclause heq data hmem hisStep)
    · exact .inl (by rwa [w.buffer.values_dropSpans_of_ne heq])
  | expireFailure executionId =>
    obtain rfl := Option.some.inj hstep
    refine .inr (h.onBuffer (fun _ _ hmem => .inl hmem) ?_)
    by_cases heq : executionId = e
    · rcases hclause heq with hunset | hslow
      · exact .inr fun hflag => by simp [hunset] at hflag
      · exact .inl hslow
    · exact .inr fun hflag => (w.buffer.hasFailure_dropFailure_of_ne heq).trans hflag

end Step

end Sutram.Observability
