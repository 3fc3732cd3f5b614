/-
The pages of `GET /audit-logs`.

Every page is a query of its own, ordered by `timestamp` alone.  Records of one time may
come in another order in each of them, so that a record at the border of two pages is on
both or on neither.
-/
import Mathlib.Order.Basic
import Sutram.Library.Paging
import Sutram.Library.Table
import Sutram.Observability.Handler

namespace Sutram.Observability.AuditApi

open Sutram.Core

variable {D : Type}

/-! ## The route -/

/-- A row of `audit_log`, with its key and the time the server gave it. -/
structure AuditRecord (D : Type) where
  id : Uuid
  row : AuditLogORM
  timestamp : D
deriving DecidableEq

abbrev AuditLog (D : Type) := Table fun r : AuditRecord D => r.id

structure Settings where
  auditLogMaxPageSize : Int := 1000

structure Query where
  limit : Int := 100
  offset : Int := 0
  action : Option String := none

inductive QueryError where
  /-- 422 -/
  | unprocessable
  /-- PostgreSQL raises: `LIMIT must not be negative`. -/
  | negativeLimit
deriving DecidableEq

structure RecordOut where
  id : String
  tenantId : String
  action : String
  resourceId : Option String
  timestamp : String
deriving DecidableEq

structure AuditPage where
  records : List RecordOut
  limit : Int
  offset : Int
deriving DecidableEq

def recordOut (isoformat : D → String) (r : AuditRecord D) : RecordOut where
  id := r.id.str
  tenantId := r.row.tenantId.str
  action := r.row.action
  resourceId := r.row.resourceId.map Uuid.str
  timestamp := isoformat r.timestamp

/-- `if action:`: the empty text filters nothing. -/
def matchesAction (action : Option String) (r : AuditRecord D) : Bool :=
  match action with
  | none | some "" => true
  | some action => r.row.action = action

/-- The WHERE clause. -/
def matching (log : AuditLog D) (tenantId : Uuid) (action : Option String) :
    List (AuditRecord D) :=
  log.select fun r => r.row.tenantId = tenantId && matchesAction action r

/-- `ORDER BY timestamp DESC` -/
def newest [LinearOrder D] (r : AuditRecord D) : Dᵒᵈ := OrderDual.toDual r.timestamp

/-- `get_audit_logs`.  `ordered` are the matching records in the order the database puts
them in for this query. -/
def getAuditLogs (s : Settings) (isoformat : D → String) (ordered : List (AuditRecord D))
    (q : Query) : Except QueryError AuditPage :=
  if 1000 < q.limit ∨ q.offset < 0 then .error .unprocessable
  else
    let effectiveLimit := min q.limit s.auditLogMaxPageSize
    if effectiveLimit < 0 then .error .negativeLimit
    else
      .ok
        { records := (Paging.window effectiveLimit.toNat q.offset.toNat ordered).map
            (recordOut isoformat)
          limit := effectiveLimit
          offset := q.offset }

/-! ## All pages -/

section Pages

variable (s : Settings) (isoformat : D → String)

/-- The records of the page at an offset, when the database orders the query for that
offset as `ordered` says. -/
def fetchRecords (ordered : Nat → List (AuditRecord D)) (limit : Int) (action : Option String)
    (offset : Nat) : Option (List RecordOut) :=
  (getAuditLogs s isoformat (ordered offset) { limit, offset, action }).toOption.map
    AuditPage.records

variable {s isoformat} {log : AuditLog D} {tenantId : Uuid} {action : Option String} {limit : Int}

theorem nodup_recordOut :
    ((matching log tenantId action).map (recordOut isoformat)).Nodup := by
  have hids : ((matching log tenantId action).map AuditRecord.id).Nodup :=
    log.nodup.sublist (List.filter_sublist.map _)
  refine List.Nodup.of_map RecordOut.id ?_
  rw [List.map_map]
  rw [List.nodup_map_iff_inj_on hids.of_map]
  intro a ha b hb h
  exact List.inj_on_of_nodup_map hids ha hb (Uuid.str_injective h)

/-- A page is a window of the smaller of the two limits. -/
theorem fetchRecords_eq (ordered : Nat → List (AuditRecord D)) (hmax : limit ≤ 1000)
    (hlimit : 0 ≤ min limit s.auditLogMaxPageSize) :
    fetchRecords s isoformat ordered limit action =
      Paging.fetchWindow (fun o => (ordered o).map (recordOut isoformat))
        (min limit s.auditLogMaxPageSize).toNat := by
  funext offset
  have hvalid : ¬ (1000 < limit ∨ (offset : Int) < 0) := by omega
  rw [fetchRecords, getAuditLogs, if_neg hvalid]
  dsimp only
  rw [if_neg (not_lt.mpr hlimit)]
  simp [Paging.fetchWindow, Paging.window, Except.toOption]

theorem fetchRecords_eq_none (ordered : Nat → List (AuditRecord D))
    (hlimit : min limit s.auditLogMaxPageSize < 0) (offset : Nat) :
    fetchRecords s isoformat ordered limit action offset = none := by
  rw [fetchRecords, getAuditLogs]
  dsimp only
  rw [if_pos hlimit]
  split <;> rfl

variable [LinearOrder D]

/-- However the database orders each query, the pages at 0, `limit`, `2 * limit` and so on
have each matching record once. -/
def PagesComplete (s : Settings) (isoformat : D → String) (log : AuditLog D) (tenantId : Uuid)
    (action : Option String) (limit : Int) : Prop :=
  ∀ ordered : Nat → List (AuditRecord D),
    (∀ offset, OrderBy.Answers newest (matching log tenantId action) (ordered offset)) →
    ∃ pages, Paging.Fetches (fetchRecords s isoformat ordered limit action) limit.toNat 0 pages ∧
      pages.flatten.Perm ((matching log tenantId action).map (recordOut isoformat))

/-- For every audit log, filter, page size from 1 to 1000 and setting: the pages have each
matching record once, however ties are ordered, exactly when the setting does not cut the
pages short, or one page has all records, and records of one time never lie on two
pages. -/
theorem pagesComplete_iff (s : Settings) (isoformat : D → String) (log : AuditLog D)
    (tenantId : Uuid) (action : Option String) (limit : Int) (hmin : 1 ≤ limit)
    (hmax : limit ≤ 1000) :
    PagesComplete s isoformat log tenantId action limit ↔
      (limit ≤ s.auditLogMaxPageSize ∨
          ((matching log tenantId action).length : Int) ≤ s.auditLogMaxPageSize) ∧
        Paging.TiesOnOnePage newest (matching log tenantId action) limit.toNat := by
  rcases lt_or_ge (min limit s.auditLogMaxPageSize) 0 with hneg | hpos
  · -- A negative setting makes every query fail.
    have hfails : ¬ PagesComplete s isoformat log tenantId action limit := by
      intro h
      obtain ⟨pages, hpages, -⟩ := h _ fun _ => .of_insertionSort (.refl _)
      have hsome := hpages.isSome
      rw [fetchRecords_eq_none _ hneg] at hsome
      cases hsome
    refine iff_of_false hfails fun h => ?_
    omega
  · have hstep : 0 < limit.toNat := by omega
    have hcount : (min limit s.auditLogMaxPageSize).toNat ≤ limit.toNat := by omega
    have hpages : PagesComplete s isoformat log tenantId action limit ↔
        Paging.ShowsEachOnce newest (matching log tenantId action) (recordOut isoformat)
          (min limit s.auditLogMaxPageSize).toNat limit.toNat := by
      simp only [PagesComplete, fetchRecords_eq _ hmax hpos]
      rfl
    have hsize : ((min limit s.auditLogMaxPageSize).toNat = limit.toNat ∨
        (matching log tenantId action).length ≤ (min limit s.auditLogMaxPageSize).toNat) ↔
        (limit ≤ s.auditLogMaxPageSize ∨
          ((matching log tenantId action).length : Int) ≤ s.auditLogMaxPageSize) := by
      omega
    rw [hpages, Paging.showsEachOnce_iff nodup_recordOut hstep hcount, hsize]

end Pages

/-! ## Two records and pages of one -/

def written (id : Uuid) (timestamp : Nat) : AuditRecord Nat where
  id := id
  row := ⟨.repdigit 7, "memory.written", some (.repdigit 3)⟩
  timestamp := timestamp

def twoRecords (first second : Nat) : AuditLog Nat where
  rows := [written (.repdigit 1) first, written (.repdigit 2) second]
  nodup := by
    simp only [List.map_cons, List.map_nil, written]
    decide

/-- The query for the first page puts the first record first, and those for later pages
the second. -/
def swapped (offset : Nat) : List (AuditRecord Nat) :=
  if offset = 0 then [written (.repdigit 1) 5, written (.repdigit 2) 5]
  else [written (.repdigit 2) 5, written (.repdigit 1) 5]

theorem answers_swapped (offset : Nat) :
    OrderBy.Answers newest (matching (twoRecords 5 5) (.repdigit 7) none) (swapped offset) := by
  have hrows : matching (twoRecords 5 5) (.repdigit 7) none =
      [written (.repdigit 1) 5, written (.repdigit 2) 5] := by decide
  rw [hrows, swapped]
  split
  · exact ⟨.refl _, by simp [newest, written]⟩
  · exact ⟨.swap _ _ _, by simp [newest, written]⟩

theorem fetches_swapped :
    Paging.Fetches (fetchRecords {} toString swapped 1 none) 1 0
      [[recordOut toString (written (.repdigit 1) 5)],
        [recordOut toString (written (.repdigit 1) 5)]] :=
  .next (by decide +kernel) (List.cons_ne_nil _ _)
    (.next (by decide +kernel) (List.cons_ne_nil _ _) (.last (by decide +kernel)))

/-- The first record is on both pages and the second on neither. -/
theorem record_on_both_pages :
    Paging.Fetches (fetchRecords {} toString swapped 1 none) 1 0
        [[recordOut toString (written (.repdigit 1) 5)],
          [recordOut toString (written (.repdigit 1) 5)]] ∧
      ¬ PagesComplete {} toString (twoRecords 5 5) (.repdigit 7) none 1 := by
  refine ⟨fetches_swapped, fun h => ?_⟩
  obtain ⟨pages, hpages, hperm⟩ := h swapped answers_swapped
  rw [hpages.unique fetches_swapped] at hperm
  revert hperm
  decide +kernel

theorem pagesComplete_of_two_times :
    ((1 : Int) ≤ 1 ∧ (1 : Int) ≤ 1000) ∧
      PagesComplete {} toString (twoRecords 5 6) (.repdigit 7) none 1 :=
  ⟨by decide, (pagesComplete_iff {} toString (twoRecords 5 6) (.repdigit 7) none 1 (by decide)
    (by decide)).mpr (by decide +kernel)⟩

end Sutram.Observability.AuditApi
