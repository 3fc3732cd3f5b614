/-
Webhook subscriptions after their deletion.

`delete_webhook` only clears the flag `active` of the row, and nothing sets it again.  An
attempt looks at the flag when it reads the subscription, and not again before its POST, so
only one that has read by then gets to a POST.
-/
import Sutram.Workflow.Subscriptions

namespace Sutram.Workflow.Subscriptions

open Sutram.Core Runs DeliveryBodies

variable {svc : Service} {security : RowSecurity}

/-! ## A deleted subscription -/

/-- The subscription is there and will not be used. -/
structure Deleted (webhookId : Uuid) (db : Database) : Prop where
  known : webhookId ∈ db.webhookSubscriptions.rows.map (·.id)
  inactive : ∀ sub ∈ db.webhookSubscriptions.rows, sub.id = webhookId → sub.active = false

theorem deleted_of_deleteWebhook {webhookId tenantId : Uuid} {db : Database}
    (h : (deleteWebhook webhookId tenantId db).2 = ⟨204, .empty⟩) :
    Deleted webhookId (deleteWebhook webhookId tenantId db).1 := by
  unfold deleteWebhook at h ⊢
  split at h
  · cases h
  · rename_i sub hfind
    have hid : sub.id = webhookId := by
      have := Table.of_find? hfind
      simp only [Bool.and_eq_true, decide_eq_true_eq] at this
      exact this.1
    constructor
    · rw [Table.modify_keys, ← hid]
      exact List.mem_map_of_mem (Table.mem_of_find? hfind)
    · intro row hrow hrowId
      obtain ⟨old, -, rfl⟩ := List.mem_map.mp hrow
      by_cases hold : old.id = sub.id
      · rw [if_pos hold]
        rfl
      · rw [if_neg hold] at hrowId
        exact absurd (hrowId.trans hid.symm) hold

theorem deleted_respond {webhookId : Uuid} {now : Nat} {tenantId : Uuid} {draws : Draws}
    {db : Database} {r : RouteRequest} (hI : Deleted webhookId db) :
    Deleted webhookId (respond svc now tenantId draws db r).1 := by
  constructor
  · obtain ⟨sub, hsub, hid⟩ := List.mem_map.mp hI.known
    by_cases hcreate : ∃ body, r = .createWebhook body
    · obtain ⟨body, rfl⟩ := hcreate
      simp only [respond, createWebhook]
      split
      · exact hI.known
      · split
        · exact hI.known
        · split
          · exact hI.known
          · rename_i hinsert
            exact (Table.mem_keys_of_insert hinsert).mpr (.inl hI.known)
    · by_cases hdelete : ∃ id, r = .deleteWebhook id
      · obtain ⟨id, rfl⟩ := hdelete
        simp only [respond, deleteWebhook]
        split
        · exact hI.known
        · rw [Table.modify_keys]
          exact hI.known
      · rw [subscriptions_respond (fun body h => hcreate ⟨body, h⟩) fun id h => hdelete ⟨id, h⟩]
        exact hI.known
  · intro sub hsub hid
    rcases subscription_of_respond hsub with ⟨old, hold, rfl | rfl⟩ | ⟨hnew, -⟩
    · exact hI.inactive sub hold hid
    · rfl
    · exact absurd (hid ▸ hI.known) hnew

theorem deleted_webhookStep {webhookId : Uuid} {w w' : WebhookWorld} {a : WebhookAction}
    (hI : Deleted webhookId w.db) (h : webhookStep svc security w a = some w') :
    Deleted webhookId w'.db := by
  rcases subscriptions_webhookStep h with ⟨tenantId, draws, r, -, hdb⟩ | ⟨-, hsame⟩
  · rw [hdb]
    exact deleted_respond hI
  · exact ⟨by rw [hsame]; exact hI.known, by rw [hsame]; exact hI.inactive⟩

/-- The action lets attempt `i` read. -/
def Reads (i : Nat) (a : WebhookAction × Uuid) : Prop :=
  ∃ deliveryId tenantId attempt, a.1 = .attempt i deliveryId tenantId attempt

/-- The POST is issued by an attempt that has read before the actions. -/
def ReadBefore (as : List (WebhookAction × Uuid)) (m : Sent) : Prop :=
  ∃ before after i, as = before ++ (.post i, m.uuid4) :: after ∧ ∀ a ∈ before, ¬Reads i a

theorem ReadBefore.append {as : List (WebhookAction × Uuid)} {m : Sent} (h : ReadBefore as m)
    (a : WebhookAction × Uuid) : ReadBefore (as ++ [a]) m := by
  obtain ⟨before, after, i, rfl, hreads⟩ := h
  exact ⟨before, after ++ [a], i, by simp, hreads⟩

/-- A delivery with the id is stored, and it is of another subscription. -/
def OfOther (webhookId : Uuid) (s : Served) (deliveryId : Uuid) : Prop :=
  ∃ row ∈ s.db.webhookDeliveries.rows, row.id = deliveryId ∧ row.subscriptionId ≠ webhookId

/-- The attempts that have read since the deletion, and the POSTs beyond those of `before`
that such attempts have issued, are of other subscriptions. -/
structure Silent (webhookId : Uuid) (before : List Sent) (as : List (WebhookAction × Uuid))
    (s : Served) : Prop where
  deleted : Deleted webhookId s.db
  read : ∀ i, ∀ flight ∈ s.sending.world.flights i,
    (∀ a ∈ as, ¬Reads i a) ∨ OfOther webhookId s flight.delivery.id
  sent : ∃ later, s.sending.sent = before ++ later ∧ ∀ m ∈ later,
    ReadBefore as m ∨ OfOther webhookId s m.deliveryId

theorem silent_step {webhookId : Uuid} {before : List Sent} {as : List (WebhookAction × Uuid)}
    {s s' : Served} {a : WebhookAction × Uuid} (hI : Silent webhookId before as s)
    (h : serveStep svc security s a = some s') : Silent webhookId before (as ++ [a]) s' := by
  obtain ⟨-, hstep, hsent⟩ := sendStep_eq_some (serveStep_eq_some h).1
  obtain ⟨later, hlater, hothers⟩ := hI.sent
  have hkept {deliveryId : Uuid} (hother : OfOther webhookId s deliveryId) :
      OfOther webhookId s' deliveryId := by
    obtain ⟨row, hrow, hid, hsub⟩ := hother
    obtain ⟨row', hrow', hsame⟩ := keeps_deliveries hstep row hrow
    simp only [addressed, Prod.mk.injEq] at hsame
    exact ⟨row', hrow', hsame.1.trans hid, hsame.2.1 ▸ hsub⟩
  refine ⟨deleted_webhookStep hI.deleted hstep, fun i flight hflight => ?_, later ++ _,
    by rw [hsent, hlater, List.append_assoc], fun m hm => ?_⟩
  · rcases flight_of_webhookStep hstep hflight with ⟨old, hold, hdelivery, -⟩ | ⟨-, hread⟩
    · rw [hdelivery]
      rcases hI.read i old hold with hreads | hother
      · by_cases ha : Reads i a
        · -- A slot that reads has been empty.
          obtain ⟨deliveryId, tenantId, attempt, ha⟩ := ha
          rw [ha, webhookStep, startAttempt, hold] at hstep
          cases hstep
        · left
          rw [List.forall_mem_append, List.forall_mem_singleton]
          exact ⟨hreads, ha⟩
      · exact .inr (hkept hother)
    · refine .inr (hkept ⟨flight.delivery, hread.delivery_mem, rfl, fun heq => ?_⟩)
      have hinactive := hI.deleted.inactive flight.subscription hread.sub_mem
        (hread.subscriptionId.trans heq)
      rw [hread.active] at hinactive
      cases hinactive
  · rcases List.mem_append.mp hm with hm | hm
    · rcases hothers m hm with hbefore | hother
      · exact .inl (hbefore.append a)
      · exact .inr (hkept hother)
    · rw [Option.mem_toList, Option.map_eq_some_iff] at hm
      obtain ⟨p, hp, rfl⟩ := hm
      obtain ⟨i, flight, hflight, ha, rfl⟩ := flight_of_posting hp
      rcases hI.read i flight hflight with hreads | hother
      · exact .inl ⟨as, [], i, by rw [← ha], hreads⟩
      · exact .inr (hkept hother)

def publicService : Service := hookService publicAnswer

/-- One delivery is received, and an attempt has read a second one. -/
def firstRun : List (WebhookAction × Uuid) :=
  sampleRun "secret" ++
    [(.enqueue { sampleDelivery with id := .repdigit 4 }, .repdigit 9),
      (.attempt 1 (.repdigit 4) (.repdigit 7) 0, .repdigit 9)]

def deletion : WebhookAction × Uuid :=
  (.request (.repdigit 7) ⟨.nil, "", "", true⟩ (.deleteWebhook (.repdigit 1)), .repdigit 9)

/-- The attempt goes on, and a third delivery is attempted without success. -/
def attemptAfterwards : List (WebhookAction × Uuid) :=
  [(.post 1, .repdigit 6), (.enqueue { sampleDelivery with id := .repdigit 5 }, .repdigit 9),
    (.attempt 0 (.repdigit 5) (.repdigit 7) 0, .repdigit 9)]

end Sutram.Workflow.Subscriptions
