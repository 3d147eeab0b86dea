/-
# Tozalist.Worker.SweepCoverage -- which rows a retention sweep removes

Six tables carry an `expires_at`: both kinds of checks, batches, leads, webhook deliveries and
audit events.  The sweep has a purge for the first four.  Deliveries go only with their
endpoint, and audit events are never removed; but when an organisation, a user or an API key
goes, the events that refer to it are set null.

* `Retained` -- every expired row is gone, every other row of an organisation not due for purge is
  as before;
* `Retainable` -- what the tables must be like for that;
* `retained_iff` -- a sweep that completes is the one exactly when the tables are the other.
-/
import Tozalist.Worker.LifecycleSweep

namespace Tozalist.Worker.Lifecycle

set_option autoImplicit false

open Db (Uuid Date AuditEvent EmailCheck PhoneCheck Batch WebhookDelivery WebhookEndpoint
  RetentionDatabase)
open Db.RetentionDatabase (setNull setNull_eq_some setNull_of_not IsPurgeEvent)
open Theory (Interruptible)

/-! ## Retention -/

/-- The organisation is purged or removed by the sweep. -/
def Leaves (db : RetentionDatabase) (now : Date) (id : Uuid) : Prop :=
  id ∈ db.dueForPurge now ∨ db.Removed now id

instance (db : RetentionDatabase) (now : Date) (id : Uuid) : Decidable (Leaves db now id) :=
  inferInstanceAs (Decidable (_ ∨ _))

/-- No row with a deadline is past it. -/
structure Complete (now : Date) (after : RetentionDatabase) : Prop where
  emailChecks : ∀ c ∈ after.emailChecks, ¬ c.expiresAt ≤ now.timestamp
  phoneChecks : ∀ c ∈ after.phoneChecks, ¬ c.expiresAt ≤ now.timestamp
  batches : ∀ b ∈ after.batches, ¬ b.expiresAt ≤ now.timestamp
  leads : ∀ l ∈ after.leads, ¬ l.expiresAt ≤ now.timestamp
  webhookDeliveries : ∀ d ∈ after.webhookDeliveries, ¬ d.expiresAt ≤ now
  auditEvents : ∀ e ∈ after.auditEvents, ¬ e.expiresAt ≤ now.timestamp

/-- The rows before their deadline, of organisations not due for purge, are as before. -/
structure Careful (now : Date) (before after : RetentionDatabase) : Prop where
  emailChecks : ∀ c ∈ before.emailChecks, ¬ c.expiresAt ≤ now.timestamp →
    c.orgId ∉ before.dueForPurge now → c ∈ after.emailChecks
  phoneChecks : ∀ c ∈ before.phoneChecks, ¬ c.expiresAt ≤ now.timestamp →
    c.orgId ∉ before.dueForPurge now → c ∈ after.phoneChecks
  batches : ∀ b ∈ before.batches, ¬ b.expiresAt ≤ now.timestamp →
    b.orgId ∉ before.dueForPurge now → b ∈ after.batches
  webhookDeliveries : ∀ d ∈ before.webhookDeliveries, ¬ d.expiresAt ≤ now →
    ∀ w ∈ before.webhookEndpoints, w.id = d.endpointId → w.orgId ∉ before.dueForPurge now →
      d ∈ after.webhookDeliveries
  auditEvents : ∀ e ∈ before.auditEvents, ¬ e.expiresAt ≤ now.timestamp →
    ∀ id ∈ e.orgId, id ∉ before.dueForPurge now → e ∈ after.auditEvents

/-- Retention is complete and does not overreach. -/
def Retained (now : Date) (before after : RetentionDatabase) : Prop :=
  Complete now after ∧ Careful now before after

/-- No expired audit event; no expired delivery but of an endpoint whose organisation is purged or
removed; and no row before its deadline belongs to an organisation that is removed without being
due, nor, an audit event, has an actor of an organisation that is purged or removed. -/
structure Retainable (now : Date) (db : RetentionDatabase) : Prop where
  noExpiredEvents : ∀ e ∈ db.auditEvents, ¬ e.expiresAt ≤ now.timestamp
  noExpiredDeliveries : ∀ d ∈ db.webhookDeliveries, d.expiresAt ≤ now →
    ∃ w ∈ db.webhookEndpoints, w.id = d.endpointId ∧ Leaves db now w.orgId
  emailChecks : ∀ c ∈ db.emailChecks, ¬ c.expiresAt ≤ now.timestamp → db.Removed now c.orgId →
    c.orgId ∈ db.dueForPurge now
  phoneChecks : ∀ c ∈ db.phoneChecks, ¬ c.expiresAt ≤ now.timestamp → db.Removed now c.orgId →
    c.orgId ∈ db.dueForPurge now
  batches : ∀ b ∈ db.batches, ¬ b.expiresAt ≤ now.timestamp → db.Removed now b.orgId →
    b.orgId ∈ db.dueForPurge now
  webhookDeliveries : ∀ d ∈ db.webhookDeliveries, ¬ d.expiresAt ≤ now →
    ∀ w ∈ db.webhookEndpoints, w.id = d.endpointId → db.Removed now w.orgId →
      w.orgId ∈ db.dueForPurge now
  auditEvents : ∀ e ∈ db.auditEvents, ∀ id ∈ e.orgId, id ∉ db.dueForPurge now →
    ¬ db.Removed now id ∧
      (∀ u ∈ db.users, some u.id = e.actorUserId → ¬ Leaves db now u.orgId) ∧
      ∀ k ∈ db.apiKeys, some k.id = e.actorApiKeyId → ¬ Leaves db now k.orgId

/-! ## The tables after a sweep -/

section Swept

variable {db : RetentionDatabase} {now : Date} {events : List AuditEvent} {last : AuditEvent}

/-- The organisations that are deleted at the end. -/
theorem retired_cleared (id : Uuid) :
    ((cleared db now events).ledgerPurged now).Retired id ↔ db.Removed now id := by
  have clear := @cleared_dueForPurge now ⟨db, ⟨[], 0⟩⟩ events
  apply (RetentionDatabase.retired_ledgerPurged clear id).trans
  exact @RetentionDatabase.removed_markPurged
    (((db.purgeExpiredChecks now).2.dropExpiredBatches now).deleteChildren
      fun id => id ∈ db.dueForPurge now) now (db.dueForPurge now) (fun _ due => due) id

/-- The rows of a table whose organisations stay. -/
theorem mem_kept {ρ : Type} {rows : List ρ} {expired : ρ → Prop} [DecidablePred expired]
    {org : ρ → Uuid} {r : ρ} :
    r ∈ ((rows.filter fun r => ¬ expired r).filter fun r => ¬ org r ∈ db.dueForPurge now).filter
        (fun r => ¬ ((cleared db now events).ledgerPurged now).Retired (org r)) ↔
      r ∈ rows ∧ ¬ expired r ∧ ¬ Leaves db now (org r) := by
  simp only [List.mem_filter, decide_eq_true_eq, retired_cleared, Leaves, not_or]
  tauto

theorem mem_emailChecks {c : EmailCheck} :
    c ∈ (db.swept now events last).emailChecks ↔
      c ∈ db.emailChecks ∧ ¬ c.expiresAt ≤ now.timestamp ∧ ¬ Leaves db now c.orgId :=
  @mem_kept db now events EmailCheck db.emailChecks (fun c => c.expiresAt ≤ now.timestamp) _ (·.orgId) c

theorem mem_phoneChecks {c : PhoneCheck} :
    c ∈ (db.swept now events last).phoneChecks ↔
      c ∈ db.phoneChecks ∧ ¬ c.expiresAt ≤ now.timestamp ∧ ¬ Leaves db now c.orgId :=
  @mem_kept db now events PhoneCheck db.phoneChecks (fun c => c.expiresAt ≤ now.timestamp) _ (·.orgId) c

theorem mem_batches {b : Batch} :
    b ∈ (db.swept now events last).batches ↔
      b ∈ db.batches ∧ ¬ b.expiresAt ≤ now.timestamp ∧ ¬ Leaves db now b.orgId :=
  @mem_kept db now events Batch db.batches (fun b => b.expiresAt ≤ now.timestamp) _ (·.orgId) b

/-- A delivery goes with its endpoint, and only so. -/
theorem mem_webhookDeliveries {d : WebhookDelivery} :
    d ∈ (db.swept now events last).webhookDeliveries ↔
      d ∈ db.webhookDeliveries ∧
        ¬ ∃ w ∈ db.webhookEndpoints, w.id = d.endpointId ∧ Leaves db now w.orgId := by
  have cascade := RetentionDatabase.exists_filter_or db.webhookEndpoints (·.id) (·.orgId)
    (fun id => id ∈ db.dueForPurge now)
    (fun id => ((cleared db now events).ledgerPurged now).Retired id) d.endpointId
  show d ∈ (db.webhookDeliveries.filter _).filter (fun d : WebhookDelivery => decide (¬ ∃ w ∈
    db.webhookEndpoints.filter (fun w : WebhookEndpoint => decide (¬ w.orgId ∈ db.dueForPurge now)),
      w.id = d.endpointId ∧ ((cleared db now events).ledgerPurged now).Retired w.orgId)) ↔ _
  simp only [retired_cleared] at cascade ⊢
  unfold Leaves
  rw [← cascade, List.mem_filter, List.mem_filter, decide_eq_true_eq, decide_eq_true_eq, not_or,
    and_assoc]
  exact Iff.rfl

/-- A user of an organisation that leaves. -/
def UserLeaves (db : RetentionDatabase) (now : Date) (id : Uuid) : Prop :=
  ∃ u ∈ db.users, u.id = id ∧ Leaves db now u.orgId

/-- An API key of one. -/
def ApiKeyLeaves (db : RetentionDatabase) (now : Date) (id : Uuid) : Prop :=
  ∃ k ∈ db.apiKeys, k.id = id ∧ Leaves db now k.orgId

instance (db : RetentionDatabase) (now : Date) (id : Uuid) : Decidable (UserLeaves db now id) :=
  inferInstanceAs (Decidable (∃ u ∈ db.users, _))

instance (db : RetentionDatabase) (now : Date) (id : Uuid) : Decidable (ApiKeyLeaves db now id) :=
  inferInstanceAs (Decidable (∃ k ∈ db.apiKeys, _))

/-- An audit event after a sweep. -/
def forgotten (db : RetentionDatabase) (now : Date) (e : AuditEvent) : AuditEvent :=
  { e with
    orgId := setNull (db.Removed now) e.orgId
    actorUserId := setNull (UserLeaves db now) e.actorUserId
    actorApiKeyId := setNull (ApiKeyLeaves db now) e.actorApiKeyId }

/-- **The audit events** are all still there; what they refer to is set null where it left. -/
theorem auditEvents_swept (purges : ∀ e ∈ events, IsPurgeEvent (db.dueForPurge now) now e) :
    (db.swept now events last).auditEvents =
      (db.auditEvents ++ events).map (forgotten db now) ++ [last] := by
  have users : ∀ id, ((∃ u ∈ db.users, u.id = id ∧ u.orgId ∈ db.dueForPurge now) ∨
      ∃ u ∈ db.users.filter (fun u => ¬ u.orgId ∈ db.dueForPurge now), u.id = id ∧
        ((cleared db now events).ledgerPurged now).Retired u.orgId) ↔ UserLeaves db now id := by
    intro id
    rw [RetentionDatabase.exists_filter_or db.users (·.id) (·.orgId) (fun id => id ∈ db.dueForPurge now)]
    simp only [retired_cleared]
    rfl
  have keys : ∀ id, ((∃ k ∈ db.apiKeys, k.id = id ∧ k.orgId ∈ db.dueForPurge now) ∨
      ∃ k ∈ db.apiKeys.filter (fun k => ¬ k.orgId ∈ db.dueForPurge now), k.id = id ∧
        ((cleared db now events).ledgerPurged now).Retired k.orgId) ↔ ApiKeyLeaves db now id := by
    intro id
    rw [RetentionDatabase.exists_filter_or db.apiKeys (·.id) (·.orgId)
      (fun id => id ∈ db.dueForPurge now)]
    simp only [retired_cleared]
    rfl
  show (((((((db.auditEvents.map _).map _) ++ events).map _).map _).map _) ++ [last]) = _
  congr 1
  rw [List.map_append, List.map_append, List.map_append, List.map_append]
  simp only [List.map_map]
  congr 1
  · apply List.map_congr_left
    intro e _
    simp only [Function.comp, RetentionDatabase.setNull_setNull, forgotten]
    congr 1
    · exact RetentionDatabase.setNull_congr retired_cleared _
    · exact RetentionDatabase.setNull_congr users _
    · exact RetentionDatabase.setNull_congr keys _
  · apply List.map_congr_left
    intro e member
    obtain ⟨-, user, key, -⟩ := purges e member
    simp only [Function.comp, forgotten, user, key]
    congr 1
    exact RetentionDatabase.setNull_congr retired_cleared _

/-- An audit event of an organisation is as before exactly when nothing it refers to leaves. -/
theorem mem_auditEvents (purges : ∀ e ∈ events, IsPurgeEvent (db.dueForPurge now) now e)
    (orgless : last.orgId = none) {e : AuditEvent} (member : e ∈ db.auditEvents) {id : Uuid}
    (org : e.orgId = some id) :
    e ∈ (db.swept now events last).auditEvents ↔
      ¬ db.Removed now id ∧ (∀ u ∈ e.actorUserId, ¬ UserLeaves db now u) ∧
        ∀ k ∈ e.actorApiKeyId, ¬ ApiKeyLeaves db now k := by
  rw [auditEvents_swept purges, List.mem_append, List.mem_map]
  constructor
  · rintro (⟨before, listed, rfl⟩ | isLast)
    · refine ⟨(setNull_eq_some.1 org).2, fun u is => (setNull_eq_some.1 is).2,
        fun k is => (setNull_eq_some.1 is).2⟩
    · obtain rfl := List.mem_singleton.1 isLast
      rw [orgless] at org
      cases org
  · rintro ⟨stays, user, key⟩
    refine .inl ⟨e, List.mem_append_left _ member, ?_⟩
    unfold forgotten
    rw [setNull_of_not user, setNull_of_not key, setNull_of_not]
    intro x is
    rw [org] at is
    exact Option.some.inj is ▸ stays

end Swept

/-! ## The sweep -/

section Sweep

variable {db : RetentionDatabase} {now : Date} {events : List AuditEvent} {last : AuditEvent}

/-- Events of a sweep are kept for another ninety days. -/
theorem not_expired_addDays (now : Date) :
    ¬ (now.addDays Db.auditRetentionDays).timestamp ≤ now.timestamp := by
  intro earlier
  obtain ⟨n, is⟩ : ∃ n : Int, now = n := ⟨now, rfl⟩
  have bound : (n + 90 * 24 * 60 * 60 * 1000) * 1000 ≤ n * 1000 := is ▸ earlier
  omega

theorem complete_iff (purges : ∀ e ∈ events, IsPurgeEvent (db.dueForPurge now) now e)
    (young : ¬ last.expiresAt ≤ now.timestamp) :
    Complete now (db.swept now events last) ↔
      (∀ e ∈ db.auditEvents, ¬ e.expiresAt ≤ now.timestamp) ∧
        ∀ d ∈ db.webhookDeliveries, d.expiresAt ≤ now →
          ∃ w ∈ db.webhookEndpoints, w.id = d.endpointId ∧ Leaves db now w.orgId := by
  constructor
  · intro complete
    constructor
    · intro e member
      apply complete.auditEvents (forgotten db now e)
      rw [auditEvents_swept purges]
      exact List.mem_append_left _ (List.mem_map_of_mem (List.mem_append_left _ member))
    · intro d member expired
      by_contra stays
      exact complete.webhookDeliveries d (mem_webhookDeliveries.2 ⟨member, stays⟩) expired
  · rintro ⟨noEvents, deliveries⟩
    refine ⟨fun c member => (mem_emailChecks.1 member).2.1,
      fun c member => (mem_phoneChecks.1 member).2.1, fun b member => (mem_batches.1 member).2.1,
      ?_, ?_, ?_⟩
    · intro l member expired
      exact of_decide_eq_true (List.mem_filter.1
        (show l ∈ db.leads.filter fun l => ¬ l.Due now from member)).2 (.inl expired)
    · intro d member expired
      obtain ⟨listed, stays⟩ := mem_webhookDeliveries.1 member
      exact stays (deliveries d listed expired)
    · intro e member
      rw [auditEvents_swept purges, List.mem_append, List.mem_map] at member
      rcases member with ⟨before, listed, rfl⟩ | isLast
      · rcases List.mem_append.1 listed with old | purge
        · exact noEvents before old
        · show ¬ before.expiresAt ≤ _
          rw [(purges before purge).2.2.2.2]
          exact not_expired_addDays now
      · obtain rfl := List.mem_singleton.1 isLast
        exact young

/-- **Retention after a sweep.** -/
theorem retained_swept_iff (purges : ∀ e ∈ events, IsPurgeEvent (db.dueForPurge now) now e)
    (young : ¬ last.expiresAt ≤ now.timestamp) (orgless : last.orgId = none) :
    Retained now db (db.swept now events last) ↔ Retainable now db := by
  unfold Retained
  rw [complete_iff purges young]
  constructor
  · rintro ⟨⟨noEvents, deliveries⟩, careful⟩
    refine ⟨noEvents, deliveries, ?_, ?_, ?_, ?_, ?_⟩
    · intro c member fresh removed
      by_contra notDue
      exact (mem_emailChecks.1 (careful.emailChecks c member fresh notDue)).2.2 (.inr removed)
    · intro c member fresh removed
      by_contra notDue
      exact (mem_phoneChecks.1 (careful.phoneChecks c member fresh notDue)).2.2 (.inr removed)
    · intro b member fresh removed
      by_contra notDue
      exact (mem_batches.1 (careful.batches b member fresh notDue)).2.2 (.inr removed)
    · intro d member fresh w listed is removed
      by_contra notDue
      exact (mem_webhookDeliveries.1 (careful.webhookDeliveries d member fresh w listed is
        notDue)).2 ⟨w, listed, is, .inr removed⟩
    · intro e member id org notDue
      have there := careful.auditEvents e member (noEvents e member) id org notDue
      obtain ⟨stays, user, key⟩ := (mem_auditEvents purges orgless member org).1 there
      exact ⟨stays, fun u listed is leaves => user u.id is.symm ⟨u, listed, rfl, leaves⟩,
        fun k listed is leaves => key k.id is.symm ⟨k, listed, rfl, leaves⟩⟩
  · intro retainable
    refine ⟨⟨retainable.noExpiredEvents, retainable.noExpiredDeliveries⟩, ?_, ?_, ?_, ?_, ?_⟩
    · intro c member fresh notDue
      refine mem_emailChecks.2 ⟨member, fresh, fun leaves => notDue ?_⟩
      exact leaves.elim id (retainable.emailChecks c member fresh)
    · intro c member fresh notDue
      refine mem_phoneChecks.2 ⟨member, fresh, fun leaves => notDue ?_⟩
      exact leaves.elim id (retainable.phoneChecks c member fresh)
    · intro b member fresh notDue
      refine mem_batches.2 ⟨member, fresh, fun leaves => notDue ?_⟩
      exact leaves.elim id (retainable.batches b member fresh)
    · intro d member fresh w listed is notDue
      refine mem_webhookDeliveries.2 ⟨member, ?_⟩
      rintro ⟨w', listed', is', leaves⟩
      obtain rfl := List.inj_on_of_nodup_map db.endpointIds listed' listed (is'.trans is.symm)
      exact notDue (leaves.elim id (retainable.webhookDeliveries d member fresh w' listed' is'))
    · intro e member fresh id org notDue
      obtain ⟨stays, users, keys⟩ := retainable.auditEvents e member id org notDue
      refine (mem_auditEvents purges orgless member org).2 ⟨stays, ?_, ?_⟩
      · rintro x is ⟨u, listed, rfl, leaves⟩
        exact users u listed is.symm leaves
      · rintro x is ⟨k, listed, rfl, leaves⟩
        exact keys k listed is.symm leaves

/-- **A sweep that completes** leaves no expired row and every other row as it was exactly when the
tables were `Retainable`. -/
theorem retained_iff (env : Environment) (now : Date) {w w' : World} {counts : LifecycleRunCounts}
    (completes : Interruptible.exec (runLifecycleSweep env now) w = (.ok counts, w')) :
    Retained now w.db w'.db ↔ Retainable now w.db := by
  obtain ⟨-, events, counts', purges, is⟩ := (runLifecycleSweep_ends env now w).of_ok completes
  rw [is]
  exact retained_swept_iff purges (not_expired_addDays now) rfl

/-- A batch that does not expire yet. -/
def youngBatch : Batch :=
  { expiredBatch with
    id := .numbered 3
    inputObjectKey := Shared.batchInputKey (.numbered 1) (.numbered 3)
    expiresAt := 5000 }

theorem youngBatch_keys : ∀ b ∈ [expiredBatch, youngBatch], ∀ key ∈ b.objectKeys,
    Shared.StartsWith (Shared.orgObjectPrefix b.orgId) key := by
  decide

theorem youngBatch_ids : ([expiredBatch, youngBatch].map (·.id)).Nodup := by
  decide

/-- A delivery to the endpoint of the organisation, to be kept for another millisecond. -/
def youngDelivery : WebhookDelivery :=
  { id := .numbered 6, endpointId := .numbered 5, eventType := "batch.completed",
    payload := ⟨"batch.completed", ⟨.numbered 2, "done", 1, ⟨1, 0, 0, 0⟩⟩⟩, status := .delivered,
    attempts := 1, attemptLog := [], lastError := none, nextRetryAt := none, expiresAt := 2 }

/-- The upload of the second batch. -/
def youngEvent : AuditEvent :=
  { id := .numbered 8, orgId := some (.numbered 1), actorUserId := some (.numbered 4),
    actorApiKeyId := none, action := "batch.created", targetType := "batch", targetId := "",
    metadata := [], createdAt := 0, expiresAt := 5000 }

/-- An organisation with two batches, a user, an endpoint with a delivery, and an audit event. -/
def officeWorld : World where
  db :=
    { expiredWorld.db with
      organizations := [⟨⟨.numbered 1, none, 30, false⟩, "Office", none⟩]
      users := [⟨.numbered 4, .numbered 1⟩]
      batches := [expiredBatch, youngBatch]
      webhookEndpoints := [⟨.numbered 5, .numbered 1, "", "", ["batch.completed"], true, none⟩]
      webhookDeliveries := [youngDelivery]
      auditEvents := [youngEvent]
      organizationIds := List.nodup_singleton _
      batchIds := youngBatch_ids
      endpointIds := List.nodup_singleton _
      batchKeys := youngBatch_keys }
  bucket := { objects := expiredBatch.objectKeys ++ youngBatch.objectKeys, requests := 0 }

/-- The batch past its deadline goes; the other batch, the delivery and the audit event stay. -/
theorem retained_iff_officeWorld :
    let swept := (Interruptible.exec (runLifecycleSweep (plainEnvironment .done) 1) officeWorld).2
    Retained 1 officeWorld.db swept.db ∧ expiredBatch ∉ swept.db.batches ∧
      youngBatch ∈ swept.db.batches ∧ youngDelivery ∈ swept.db.webhookDeliveries ∧
      youngEvent ∈ swept.db.auditEvents := by
  obtain ⟨counts, finished, completes⟩ := runLifecycleSweep_succeeds (plainEnvironment .done) 1
    officeWorld (fun _ => rfl) (by decide)
  have retainable : Retainable 1 officeWorld.db :=
    { noExpiredEvents := by decide
      noExpiredDeliveries := by decide
      emailChecks := by decide
      phoneChecks := by decide
      batches := by decide
      webhookDeliveries := by decide
      auditEvents := by decide }
  have retained := (retained_iff (plainEnvironment .done) 1 completes).2 retainable
  rw [completes]
  refine ⟨retained, fun listed => retained.1.batches expiredBatch listed (by decide), ?_, ?_, ?_⟩
  · exact retained.2.batches youngBatch (by decide) (by decide) (by decide)
  · exact retained.2.webhookDeliveries youngDelivery (List.mem_singleton_self _) (by decide) _
      (List.mem_singleton_self _) rfl (by decide)
  · exact retained.2.auditEvents youngEvent (List.mem_singleton_self _) (by decide) (.numbered 1)
      rfl (by decide)

/-- The sample with an audit event past its deadline. -/
def staleEventWorld : World :=
  { expiredWorld with
    db := expiredWorld.db.record
      { id := .numbered 3, orgId := none, actorUserId := none, actorApiKeyId := none,
        action := sweepAction, targetType := "system", targetId := "retention-sweep", metadata := [],
        createdAt := 0, expiresAt := 1000 } }

/-- It is never removed. -/
theorem expired_event_stays :
    ¬ ∀ (env : Environment) (now : Date) (w w' : World) (counts : LifecycleRunCounts),
      Interruptible.exec (runLifecycleSweep env now) w = (.ok counts, w') →
        Retained now w.db w'.db := by
  intro retained
  have completes : Interruptible.exec (runLifecycleSweep (plainEnvironment .done) 1)
      staleEventWorld = (.ok ⟨0, 0, 1, 1, 0, 0, 0, 0, 0, 0⟩,
        (Interruptible.exec (runLifecycleSweep (plainEnvironment .done) 1) staleEventWorld).2) :=
    Prod.ext rfl rfl
  have complete := (retained _ 1 _ _ _ completes).1
  obtain ⟨-, events, counts, purges, is⟩ :=
    (runLifecycleSweep_ends (plainEnvironment .done) 1 staleEventWorld).of_ok completes
  rw [is, complete_iff purges (not_expired_addDays 1)] at complete
  exact complete.1 _ List.mem_cons_self (by decide)

end Sweep

end Tozalist.Worker.Lifecycle
