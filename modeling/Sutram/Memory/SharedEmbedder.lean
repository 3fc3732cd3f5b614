/-
The memory service with its embedding cache.

The sessions of all tenants embed through one cache, so what another tenant has embedded
decides whether the provider is asked, and whether a request fails with it.  Nothing else
passes from one tenant to another: with the same answers of the embedder, a tenant's part
of the service is a memory of its own.

An operation takes at most one answer of the embedder.  It is one that the embedder has
returned, or none where the call raises.
-/
import Sutram.Memory.Embedder
import Sutram.Memory.TenantAnswers

namespace Sutram.Memory

open Sutram.Core Runs

/-! ## The service -/

/-- The answer to one call of the embedder, `none` where it raises. -/
abbrev Reply := Option (CacheAside.Entry (String × String) Json)

structure Shared (V R P : Type) where
  memory : Tenants V R := {}
  embedder : Embedder.State P := {}

namespace Shared

inductive Action where
  | memory (reply : Reply) (r : Request)
  | embedder (a : Embedder.Action)

variable {V R P : Type} {modelName : P → String} (svc : MemoryService V R) (e : Embedder modelName)
  (vector : Json → Option V)

/-- What an operation gets for a text and a model, if it has the reply. -/
def answers (reply : Reply) (text model : String) : Option V :=
  reply.bind fun r => if r.argument = (model, text) then vector r.value else none

/-- The sessions and the embedder take turns. -/
def step (s : Shared V R P) : Action → Option (Shared V R P)
  | .memory reply r =>
    if ∀ entry ∈ reply, entry ∈ s.embedder.cache.returned then
      (serveGiven svc s.memory (answers vector reply, r)).map fun memory => { s with memory }
    else none
  | .embedder a => (e.step s.embedder a).map fun embedder => { s with embedder }

/-- The part a tenant has in an action, with the reply it gets. -/
def Action.of (t : Uuid) : Action → Option ((String → String → Option V) × Memory.Action)
  | .memory reply r => Request.givenOf t (answers vector reply, r)
  | .embedder _ => none

variable {svc e vector}

theorem step_memory {s s' : Shared V R P} {reply : Reply} {r : Request}
    (h : step svc e vector s (.memory reply r) = some s') :
    (∀ entry ∈ reply, entry ∈ s.embedder.cache.returned) ∧ s'.embedder = s.embedder ∧
      serveGiven svc s.memory (answers vector reply, r) = some s'.memory := by
  simp only [step] at h
  split at h
  · obtain ⟨memory, hmemory, rfl⟩ := Option.map_eq_some_iff.mp h
    exact ⟨‹_›, rfl, hmemory⟩
  · cases h

theorem step_embedder {s s' : Shared V R P} {a : Embedder.Action}
    (h : step svc e vector s (.embedder a) = some s') :
    s'.memory = s.memory ∧ e.step s.embedder a = some s'.embedder := by
  obtain ⟨embedder, hembedder, rfl⟩ := Option.map_eq_some_iff.mp h
  exact ⟨rfl, hembedder⟩

/-- The embedder changes nothing but what it answers. -/
theorem projects_memory (svc : MemoryService V R) (e : Embedder modelName)
    (vector : Json → Option V) (t : Uuid) :
    Projects (step svc e vector) (stepGiven svc t) (fun s => s.memory.of t) (Action.of vector t)
      fun s => s.memory.Apart where
  keep := by
    intro s s' a h hstep
    cases a with
    | memory reply r => exact (projects_given svc t).keep h (step_memory hstep).2.2
    | embedder a => exact (step_embedder hstep).1 ▸ h
  seen := by
    intro s s' a b h hstep hact
    cases a with
    | memory reply r => exact (projects_given svc t).seen h (step_memory hstep).2.2 hact
    | embedder a => cases hact
  unseen := by
    intro s s' a h hstep hact
    cases a with
    | memory reply r => exact (projects_given svc t).unseen h (step_memory hstep).2.2 hact
    | embedder a =>
      show s'.memory.of t = s.memory.of t
      rw [(step_embedder hstep).1]

/-- Every reply is one that the embedder has returned. -/
theorem replies_returned {s : Shared V R P} {as : List Action}
    (hrun : run (step svc e vector) {} as = some s) :
    ∀ entry r, Action.memory (some entry) r ∈ as → entry ∈ s.embedder.cache.returned := by
  refine history_run (P := fun as (s : Shared V R P) => ∀ entry r,
    Action.memory (some entry) r ∈ as → entry ∈ s.embedder.cache.returned)
    (fun as s a s' h hstep entry r hmem => ?_) (fun _ _ h => by cases h) hrun
  rcases List.mem_append.mp hmem with hmem | hmem
  · have hold := h entry r hmem
    cases a with
    | memory reply r => exact (step_memory hstep).2.1 ▸ hold
    | embedder a => exact Embedder.returned_of_step (step_embedder hstep).2 hold
  · cases List.mem_singleton.mp hmem
    obtain ⟨hreturned, hembedder, -⟩ := step_memory hstep
    exact hembedder ▸ hreturned entry rfl

/-! ## Whole runs -/

def teaEmbedder : Embedder (fun provider : String => provider) where
  registry := EmbeddingRegistry.empty.register "small"
  sha256 text :=
    if text = "tea" then "a9f74d1ec36ebdeb2da3f6e5868090cd2a2d20b3dcca7b62f60304b1d3d9ef42" else ""
  float := id

/-- A vector as the database has it. -/
def readVector : Json → Option String
  | .list numbers => some (Json.dumps (.list numbers))
  | _ => none

def teaReply : Reply := some ⟨("small", "tea"), Embedder.sampleVector, 0⟩

/-- A call for tea that asks the provider. -/
def teaCall : List Action :=
  [.embedder (.embed 0 "tea" "small"), .embedder (.answer 0 (some [Embedder.sampleVector])),
    .embedder (.setex 0)]

/-- The other tenant asks the provider, and the tenant finds what the other has stored. -/
def bothEmbed : List Action :=
  teaCall ++ [.embedder (.embed 1 "tea" "small")] ++ twoTenants.map (.memory teaReply)

/-- The tenant asks the provider itself, and nobody else is there. -/
def oneEmbeds : List Action :=
  teaCall ++ ((twoTenants.filterMap (Request.of sampleTenant)).map (.sent sampleTenant)).map
    (.memory teaReply)

theorem filterMap_memory (t : Uuid) (reply : Reply) (rs : List Request) :
    (rs.map (.memory reply)).filterMap (Action.of vector t) =
      (rs.filterMap (Request.of t)).map fun a => (answers vector reply, a) := by
  rw [List.filterMap_map, List.map_filterMap]
  rfl

theorem filterMap_sent (t : Uuid) (as : List Memory.Action) :
    (as.map (Request.sent t)).filterMap (Request.of t) = as := by
  rw [List.filterMap_map]
  refine (List.filterMap_congr fun a _ => ?_).trans List.filterMap_some
  cases a <;> simp [Request.sent, Request.of]

end Shared

end Sutram.Memory
