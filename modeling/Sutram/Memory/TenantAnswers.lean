/-
What the service answers a tenant.

The answers to a tenant, the rows it finds and its part of the query cache are in its view
of the service, and no answer shows an item of another tenant.
-/
import Sutram.Memory.TenantViews

namespace Sutram.Memory

open Sutram.Core Runs

variable {V R : Type}

/-! ## What a tenant finds out -/

theorem getMemoryItem_of (db : MemoryDb V) (t id : Uuid) :
    getMemoryItem (db.of t) t id = getMemoryItem db t id := by
  rw [getMemoryItem, getMemoryItem, find?_of]

/-- What a tenant finds out about the service. -/
structure Alike (t : Uuid) (w v : Tenants V R) : Prop where
  answers : (w.records t).answers = (v.records t).answers
  items : ∀ id, getMemoryItem w.db t id = getMemoryItem v.db t id
  cached : ∀ key, listed t key →
    (w.cache.find? fun e => e.key = key) = v.cache.find? fun e => e.key = key
  searches : ∀ (svc : MemoryService V R) (body : MemorySearchRequest),
    (gather svc body.query t (typeValues body.memoryTypes)).run w.db =
      (gather svc body.query t (typeValues body.memoryTypes)).run v.db

theorem alike_of_view_eq {t : Uuid} {w v : Tenants V R} (h : w.of t = v.of t) : Alike t w v where
  answers := congrArg World.answers h
  items id := by
    rw [← getMemoryItem_of w.db, ← getMemoryItem_of v.db]
    exact congrArg (fun u : World V R => getMemoryItem u.db t id) h
  cached key hkey := by
    rw [← Tenants.find?_cache hkey, ← Tenants.find?_cache hkey, h]
  searches svc body := by
    rw [← run_gatherLive, ← run_gatherLive]
    exact (factors_gatherLive _ _).run_eq (congrArg (Backends.mk · svc.embed) (congrArg World.db h))

/-! ## What is shown -/

/-- Every answer to a tenant, from the database or from the cache, shows items of the tenant
whose stores are committed. -/
theorem answers_owned (svc : MemoryService V R) (w : Tenants V R)
    (as : List ((String → String → Option V) × Request))
    (hrun : run (serveGiven svc) .initial as = some w) :
    ∀ t, ∀ a ∈ (w.records t).answers, ∀ r ∈ a.results,
      r.item.tenantId = t ∧ r.item.id ∈ (w.records t).stored :=
  ((projects_given svc .nil).keep_run Tenants.apart_initial hrun).answers

/-- One answer from the database, and one from the cache. -/
theorem answers_owned_two :
    ∃ w, run (serveGiven sampleService) .initial
        (twoTenants.map fun r => (sampleService.embed, r)) = some w ∧
      (w.records sampleTenant).answers.map (fun a => (a.hit.isSome, a.results.length)) =
        [(true, 1), (false, 1)] ∧
      ∀ t, ∀ a ∈ (w.records t).answers, ∀ r ∈ a.results,
        r.item.tenantId = t ∧ r.item.id ∈ (w.records t).stored := by
  have hend : (run (serveGiven sampleService) .initial
      (twoTenants.map fun r => (sampleService.embed, r))).any fun w =>
      (w.records sampleTenant).answers.map (fun a => (a.hit.isSome, a.results.length)) =
        [(true, 1), (false, 1)] := by decide +kernel
  obtain ⟨w, hrun, hanswers⟩ := exists_of_any hend
  exact ⟨w, hrun, hanswers, answers_owned sampleService w _ hrun⟩

end Sutram.Memory
