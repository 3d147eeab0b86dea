/-
# Tozalist.Db.Retention -- the purges of the retention sweep

The tables the hourly sweep reads or writes, with their foreign keys, and the purges of
`packages/db/src/lifecycle.ts`.  A deleted user or API key is set null in the audit events,
a deleted organisation too; everything else an organisation owns goes with it.

Each purge is one statement or one transaction, so it happens whole or not at all.
-/
import Tozalist.Db.Lifecycle
import Tozalist.Db.Webhooks
import Tozalist.Shared.ObjectStorage

namespace Tozalist.Db

set_option autoImplicit false

open Theory (Txn)
open Shared (orgObjectPrefix StartsWith)

/-! ## Tables -/

/-- `organizations`, with the columns of the purge. -/
structure OrganizationRow extends Organization where
  name : String
  purgedAt : Option Timestamp
  deriving DecidableEq, Repr

/-- `users`. -/
structure User where
  id : Uuid
  orgId : Uuid
  deriving DecidableEq, Repr

/-- `api_keys`. -/
structure ApiKey where
  id : Uuid
  orgId : Uuid
  deriving DecidableEq, Repr

/-- `leads`. -/
structure Lead where
  id : Uuid
  expiresAt : Timestamp
  deletedAt : Option Timestamp
  deriving DecidableEq, Repr

/-- `invoice_requests`. -/
structure InvoiceRequest where
  id : Uuid
  orgId : Uuid
  requestedByUserId : Option Uuid
  deriving DecidableEq, Repr

/-- The tables of the sweep.  Organisations, batches and endpoints have a primary key, and the
objects of a batch lie under the prefix of its organisation. -/
@[ext] structure RetentionDatabase where
  organizations : List OrganizationRow
  users : List User
  apiKeys : List ApiKey
  creditLedger : List CreditLedgerEntry
  emailChecks : List EmailCheck
  phoneChecks : List PhoneCheck
  batches : List Batch
  webhookEndpoints : List WebhookEndpoint
  webhookDeliveries : List WebhookDelivery
  invoiceRequests : List InvoiceRequest
  leads : List Lead
  auditEvents : List AuditEvent
  organizationIds : (organizations.map (·.id)).Nodup
  batchIds : (batches.map (·.id)).Nodup
  endpointIds : (webhookEndpoints.map (·.id)).Nodup
  batchKeys : ∀ b ∈ batches, ∀ key ∈ b.objectKeys, StartsWith (orgObjectPrefix b.orgId) key

namespace RetentionDatabase

/-- The part the other transactions work on. -/
def core (db : RetentionDatabase) : Database :=
  { organizations := db.organizations.map OrganizationRow.toOrganization
    creditLedger := db.creditLedger
    emailChecks := db.emailChecks
    phoneChecks := db.phoneChecks
    batches := db.batches
    auditEvents := db.auditEvents }

/-! ## Foreign keys -/

/-- `ON DELETE SET NULL` of a column. -/
def setNull (gone : Uuid → Prop) [DecidablePred gone] (column : Option Uuid) : Option Uuid :=
  column.filter fun id => ¬ gone id

/-- Delete the users of the organisations that `gone` selects. -/
def deleteUsers (db : RetentionDatabase) (gone : Uuid → Prop) [DecidablePred gone] :
    RetentionDatabase :=
  let deleted := fun id => ∃ u ∈ db.users, u.id = id ∧ gone u.orgId
  { db with
    users := db.users.filter fun u => ¬ gone u.orgId
    invoiceRequests := db.invoiceRequests.map fun r =>
      { r with requestedByUserId := setNull deleted r.requestedByUserId }
    auditEvents := db.auditEvents.map fun e =>
      { e with actorUserId := setNull deleted e.actorUserId } }

/-- Delete their API keys. -/
def deleteApiKeys (db : RetentionDatabase) (gone : Uuid → Prop) [DecidablePred gone] :
    RetentionDatabase :=
  let deleted := fun id => ∃ k ∈ db.apiKeys, k.id = id ∧ gone k.orgId
  { db with
    apiKeys := db.apiKeys.filter fun k => ¬ gone k.orgId
    auditEvents := db.auditEvents.map fun e =>
      { e with actorApiKeyId := setNull deleted e.actorApiKeyId } }

theorem endpointIds_filter (db : RetentionDatabase) (p : WebhookEndpoint → Bool) :
    ((db.webhookEndpoints.filter p).map (·.id)).Nodup :=
  db.endpointIds.sublist ((List.filter_sublist).map _)

/-- Delete their webhook endpoints; the deliveries go with them. -/
def deleteEndpoints (db : RetentionDatabase) (gone : Uuid → Prop) [DecidablePred gone] :
    RetentionDatabase :=
  { db with
    webhookEndpoints := db.webhookEndpoints.filter fun e => ¬ gone e.orgId
    webhookDeliveries := db.webhookDeliveries.filter fun d =>
      ¬ ∃ e ∈ db.webhookEndpoints, e.id = d.endpointId ∧ gone e.orgId
    endpointIds := db.endpointIds_filter _ }

theorem batchIds_filter (db : RetentionDatabase) (p : Batch → Bool) :
    ((db.batches.filter p).map (·.id)).Nodup :=
  db.batchIds.sublist ((List.filter_sublist).map _)

theorem batchKeys_filter (db : RetentionDatabase) (p : Batch → Bool) :
    ∀ b ∈ db.batches.filter p, ∀ key ∈ b.objectKeys, StartsWith (orgObjectPrefix b.orgId) key :=
  fun b member => db.batchKeys b (List.mem_of_mem_filter member)

/-- The tables with only the batches that `p` selects. -/
def withBatches (db : RetentionDatabase) (p : Batch → Bool) : RetentionDatabase :=
  { db with
    batches := db.batches.filter p
    batchIds := db.batchIds_filter p
    batchKeys := db.batchKeys_filter p }

/-- Delete their checks, batches and invoice requests. -/
def deleteOwned (db : RetentionDatabase) (gone : Uuid → Prop) [DecidablePred gone] :
    RetentionDatabase :=
  { db.withBatches fun b => ¬ gone b.orgId with
    emailChecks := db.emailChecks.filter fun c => ¬ gone c.orgId
    phoneChecks := db.phoneChecks.filter fun c => ¬ gone c.orgId
    invoiceRequests := db.invoiceRequests.filter fun r => ¬ gone r.orgId }

/-- Everything the organisations own goes; the audit events stay. -/
def deleteChildren (db : RetentionDatabase) (gone : Uuid → Prop) [DecidablePred gone] :
    RetentionDatabase :=
  (((db.deleteUsers gone).deleteApiKeys gone).deleteOwned gone).deleteEndpoints gone

theorem organizationIds_filter (db : RetentionDatabase) (p : OrganizationRow → Bool) :
    ((db.organizations.filter p).map (·.id)).Nodup :=
  db.organizationIds.sublist ((List.filter_sublist).map _)

theorem organizationIds_map (db : RetentionDatabase) {f : OrganizationRow → OrganizationRow}
    (same : ∀ o, (f o).id = o.id) : ((db.organizations.map f).map (·.id)).Nodup := by
  have ids : (db.organizations.map f).map (·.id) = db.organizations.map (·.id) := by
    rw [List.map_map]
    exact List.map_congr_left fun o _ => same o
  rw [ids]
  exact db.organizationIds

/-- Delete organisations, with what hangs off them; their audit events are set null. -/
def deleteOrganizations (db : RetentionDatabase) (gone : Uuid → Prop) [DecidablePred gone] :
    RetentionDatabase :=
  let left := db.deleteChildren gone
  { left with
    organizations := left.organizations.filter fun o => ¬ gone o.id
    auditEvents := left.auditEvents.map fun e => { e with orgId := setNull gone e.orgId }
    organizationIds := left.organizationIds_filter _ }

end RetentionDatabase

/-! ## Expired rows -/

/-- `ExpiredCheckCounts`. -/
structure ExpiredCheckCounts where
  emailChecks : ℕ
  phoneChecks : ℕ
  deriving DecidableEq, Repr

/-- A lead past its expiry, or whose erasure was asked for. -/
def Lead.Due (lead : Lead) (now : Date) : Prop :=
  lead.expiresAt ≤ now.timestamp ∨ lead.deletedAt ≠ none

instance (lead : Lead) (now : Date) : Decidable (lead.Due now) :=
  inferInstanceAs (Decidable (_ ∨ _))

namespace RetentionDatabase

/-- `purgeExpiredChecks`: what it removes, and what it leaves. -/
def purgeExpiredChecks (db : RetentionDatabase) (now : Date) :
    ExpiredCheckCounts × RetentionDatabase :=
  ({ emailChecks := (db.emailChecks.filter fun c => c.expiresAt ≤ now.timestamp).length
     phoneChecks := (db.phoneChecks.filter fun c => c.expiresAt ≤ now.timestamp).length },
    { db with
      emailChecks := db.emailChecks.filter fun c => ¬ c.expiresAt ≤ now.timestamp
      phoneChecks := db.phoneChecks.filter fun c => ¬ c.expiresAt ≤ now.timestamp })

/-- `deleteBatchesByIds`. -/
def deleteBatchesByIds (db : RetentionDatabase) (ids : List Uuid) : ℕ × RetentionDatabase :=
  ((db.batches.filter fun b => b.id ∈ ids).length, db.withBatches fun b => ¬ b.id ∈ ids)

/-- It is the transaction on the tables of the batches. -/
theorem deleteBatchesByIds_core (db : RetentionDatabase) (ids : List Uuid) :
    Txn.transaction (Db.deleteBatchesByIds ids) db.core =
      (.ok (db.deleteBatchesByIds ids).1, (db.deleteBatchesByIds ids).2.core) := rfl

/-- `purgeExpiredLeads`. -/
def purgeExpiredLeads (db : RetentionDatabase) (now : Date) : ℕ × RetentionDatabase :=
  ((db.leads.filter fun l => l.Due now).length,
    { db with leads := db.leads.filter fun l => ¬ l.Due now })

end RetentionDatabase

/-! ## Organisations -/

/-- `ORG_PURGE_GRACE_DAYS`. -/
def orgPurgeGraceDays : Int := 30

/-- `PURGED_ORG_NAME`. -/
def purgedOrgName : String := "deleted organization"

/-- Soft-deleted for the grace period, and not purged. -/
def OrganizationRow.Due (org : OrganizationRow) (now : Date) : Prop :=
  (∃ t ∈ org.deletedAt, t ≤ (now.addDays (-orgPurgeGraceDays)).timestamp) ∧ org.purgedAt = none

instance (org : OrganizationRow) (now : Date) : Decidable (org.Due now) :=
  inferInstanceAs (Decidable (_ ∧ _))

/-- The row of a purged organisation. -/
def OrganizationRow.purge (org : OrganizationRow) (now : Date) : OrganizationRow :=
  { org with name := purgedOrgName, purgedAt := some now.timestamp }

namespace RetentionDatabase

/-- `listOrganizationsDueForPurge`. -/
def dueForPurge (db : RetentionDatabase) (now : Date) : List Uuid :=
  (db.organizations.filter fun o => o.Due now).map (·.id)

/-- The audit event of a purge. -/
def purgeEvent (db : RetentionDatabase) (orgId : Uuid) : AuditEventInput :=
  { orgId := some orgId
    action := "org.purged"
    targetType := "organization"
    targetId := orgId.text
    metadata :=
      [("users", .number (db.users.filter fun u => u.orgId = orgId).length),
        ("api_keys", .number (db.apiKeys.filter fun k => k.orgId = orgId).length),
        ("email_checks", .number (db.emailChecks.filter fun c => c.orgId = orgId).length),
        ("phone_checks", .number (db.phoneChecks.filter fun c => c.orgId = orgId).length),
        ("batches", .number (db.batches.filter fun b => b.orgId = orgId).length),
        ("webhook_endpoints", .number (db.webhookEndpoints.filter fun e => e.orgId = orgId).length),
        ("invoice_requests",
          .number (db.invoiceRequests.filter fun r => r.orgId = orgId).length)] }

/-- Insert an audit event: `recordAuditEvent`. -/
def record (db : RetentionDatabase) (event : AuditEvent) : RetentionDatabase :=
  { db with auditEvents := db.auditEvents ++ [event] }

theorem id_purgeWhere (gone : Uuid → Prop) [DecidablePred gone] (now : Date)
    (o : OrganizationRow) : (if gone o.id then o.purge now else o).id = o.id := by
  split <;> rfl

/-- Set name and marker of organisations. -/
def markPurged (db : RetentionDatabase) (gone : Uuid → Prop) [DecidablePred gone] (now : Date) :
    RetentionDatabase :=
  { db with
    organizations := db.organizations.map fun o => if gone o.id then o.purge now else o
    organizationIds := db.organizationIds_map (id_purgeWhere gone now) }

/-- `hardDeleteOrganizationData`. -/
def hardDeleteOrganizationData (db : RetentionDatabase) (orgId : Uuid) (draw : Draw) (now : Date) :
    RetentionDatabase :=
  ((db.deleteChildren fun id => id = orgId).markPurged (fun id => id = orgId) now).record
    ((db.purgeEvent orgId).row draw now)

/-- The tables without the ledger rows past their retention. -/
def ledgerPurged (db : RetentionDatabase) (now : Date) : RetentionDatabase :=
  { db with creditLedger := db.creditLedger.filter fun e => ¬ e.Expired now }

/-- `purgeExpiredLedgerEntries`; `none` is the trigger's refusal. -/
def purgeExpiredLedgerEntries (db : RetentionDatabase) (dbNow : Timestamp) (now : Date) :
    Option (ℕ × RetentionDatabase) :=
  if ∃ e ∈ db.creditLedger, e.Expired now ∧
      ¬ e.createdAt ≤ minusYears dbNow ledgerRetentionYears then none
  else
    some ((db.creditLedger.filter fun e => e.Expired now).length, db.ledgerPurged now)

/-- It is the transaction on the ledger. -/
theorem purgeExpiredLedgerEntries_core (db : RetentionDatabase) (dbNow : Timestamp) (now : Date) :
    Txn.transaction (Db.purgeExpiredLedgerEntries dbNow now) db.core =
      match db.purgeExpiredLedgerEntries dbNow now with
      | none => (.error .appendOnly, db.core)
      | some (count, after) => (.ok count, after.core) := by
  unfold purgeExpiredLedgerEntries
  by_cases young : ∃ e ∈ db.creditLedger, e.Expired now ∧
      ¬ e.createdAt ≤ minusYears dbNow ledgerRetentionYears
  · rw [if_pos young]
    have aborts : (Db.purgeExpiredLedgerEntries dbNow now).run db.core = .error .appendOnly := by
      show (if ∃ e ∈ db.core.creditLedger, e.Expired now ∧
          ¬ e.createdAt ≤ minusYears dbNow ledgerRetentionYears then
        (throw .appendOnly : Tx ℕ) else _).run db.core = _
      rw [if_pos (show ∃ e ∈ db.core.creditLedger, _ from young)]
      rfl
    unfold Txn.transaction
    rw [aborts]
  · rw [if_neg young]
    apply Txn.transaction_of_commits
    rw [Db.purgeExpiredLedgerEntries, Txn.commits_bind]
    refine ⟨db.core, db.core, (Txn.commits_get _ _ _).2 ⟨rfl, rfl⟩, ?_⟩
    rw [if_neg (show ¬ ∃ e ∈ db.core.creditLedger, _ from young)]
    exact rfl

/-- An organisation whose ledger is gone after its purge. -/
def Retired (db : RetentionDatabase) (id : Uuid) : Prop :=
  (∃ o ∈ db.organizations, o.id = id ∧ o.purgedAt ≠ none) ∧ ∀ e ∈ db.creditLedger, e.orgId ≠ id

instance (db : RetentionDatabase) (id : Uuid) : Decidable (db.Retired id) :=
  inferInstanceAs (Decidable (_ ∧ _))

/-- `deleteRetiredOrganizations`. -/
def deleteRetiredOrganizations (db : RetentionDatabase) : ℕ × RetentionDatabase :=
  ((db.organizations.filter fun o => db.Retired o.id).length, db.deleteOrganizations db.Retired)

/-! ## Purges in a row -/

theorem setNull_setNull (first second : Uuid → Prop) [DecidablePred first] [DecidablePred second]
    (column : Option Uuid) :
    setNull second (setNull first column) = setNull (fun id => first id ∨ second id) column := by
  cases column with
  | none => rfl
  | some id =>
      by_cases h : first id <;> by_cases h' : second id <;> simp [setNull, Option.filter, h, h']

theorem setNull_congr {first second : Uuid → Prop} [DecidablePred first] [DecidablePred second]
    (same : ∀ id, first id ↔ second id) (column : Option Uuid) :
    setNull first column = setNull second column := by
  unfold setNull
  congr 1
  funext id
  exact decide_eq_decide.2 (not_congr (same id))

theorem setNull_eq_some {gone : Uuid → Prop} [DecidablePred gone] {column : Option Uuid}
    {id : Uuid} : setNull gone column = some id ↔ column = some id ∧ ¬ gone id := by
  unfold setNull
  rw [Option.filter_eq_some_iff, decide_eq_true_eq]

theorem setNull_of_not {gone : Uuid → Prop} [DecidablePred gone] {column : Option Uuid}
    (kept : ∀ id ∈ column, ¬ gone id) : setNull gone column = column := by
  cases column with
  | none => rfl
  | some id => exact setNull_eq_some.2 ⟨rfl, kept id rfl⟩

/-- A row that refers to a deleted one. -/
theorem exists_filter_or {ρ : Type} (rows : List ρ) (id org : ρ → Uuid) (first second : Uuid → Prop)
    [DecidablePred first] [DecidablePred second] (x : Uuid) :
    ((∃ r ∈ rows, id r = x ∧ first (org r)) ∨
      ∃ r ∈ rows.filter (fun r => ¬ first (org r)), id r = x ∧ second (org r)) ↔
      ∃ r ∈ rows, id r = x ∧ (first (org r) ∨ second (org r)) := by
  constructor
  · rintro (⟨r, member, is, here⟩ | ⟨r, member, is, here⟩)
    · exact ⟨r, member, is, .inl here⟩
    · exact ⟨r, List.mem_of_mem_filter member, is, .inr here⟩
  · rintro ⟨r, member, is, here⟩
    by_cases h : first (org r)
    · exact .inl ⟨r, member, is, h⟩
    · exact .inr ⟨r, List.mem_filter.2 ⟨member, decide_eq_true h⟩, is, here.resolve_left h⟩

theorem filter_filter_not {ρ : Type} (rows : List ρ) (first second : ρ → Prop)
    [DecidablePred first] [DecidablePred second] :
    (rows.filter fun r => ¬ first r).filter (fun r => ¬ second r) =
      rows.filter fun r => ¬ (first r ∨ second r) := by
  rw [List.filter_filter]
  apply List.filter_congr
  intro r _
  by_cases h : first r <;> simp [h]

theorem map_filter_map_filter {ρ : Type} (rows : List ρ) {f g h : ρ → ρ} {p q : ρ → Bool}
    (same : ∀ r, p (g r) = p r) (both : ∀ r, g (f r) = h r) :
    ((((rows.map f).filter p).map g).filter q) = (rows.map h).filter fun r => p r && q r := by
  induction rows with
  | nil => rfl
  | cons r rows ih =>
      have here : p (f r) = p (h r) := by rw [← both r, same]
      simp only [List.map_cons, List.filter_cons, here]
      cases p (h r) with
      | false => simpa using ih
      | true =>
          simp only [List.map_cons, List.filter_cons, both, Bool.true_and, if_true]
          split <;> simp [ih]

/-- Deleting what more organisations own, one set after the other. -/
theorem deleteChildren_deleteChildren (db : RetentionDatabase) (first second : Uuid → Prop)
    [DecidablePred first] [DecidablePred second] :
    (db.deleteChildren first).deleteChildren second =
      db.deleteChildren fun id => first id ∨ second id := by
  have users := exists_filter_or db.users (·.id) (·.orgId) first second
  have keys := exists_filter_or db.apiKeys (·.id) (·.orgId) first second
  have endpoints := exists_filter_or db.webhookEndpoints (·.id) (·.orgId) first second
  apply RetentionDatabase.ext
  · rfl
  · exact filter_filter_not db.users (first ·.orgId) (second ·.orgId)
  · exact filter_filter_not db.apiKeys (first ·.orgId) (second ·.orgId)
  · rfl
  · exact filter_filter_not db.emailChecks (first ·.orgId) (second ·.orgId)
  · exact filter_filter_not db.phoneChecks (first ·.orgId) (second ·.orgId)
  · exact filter_filter_not db.batches (first ·.orgId) (second ·.orgId)
  · exact filter_filter_not db.webhookEndpoints (first ·.orgId) (second ·.orgId)
  · refine (filter_filter_not db.webhookDeliveries _ _).trans (List.filter_congr fun d _ => ?_)
    exact decide_eq_decide.2 (not_congr (endpoints d.endpointId))
  · refine (map_filter_map_filter db.invoiceRequests ?_ ?_).trans (List.filter_congr fun r _ => ?_)
    · exact fun r => rfl
    · intro r
      show InvoiceRequest.mk _ _ _ = InvoiceRequest.mk _ _ _
      rw [setNull_setNull]
      exact congrArg _ (setNull_congr users _)
    · by_cases h : first r.orgId <;> simp [h]
  · rfl
  · show ((((db.auditEvents.map _).map _).map _).map _) = (db.auditEvents.map _).map _
    simp only [List.map_map]
    apply List.map_congr_left
    intro e _
    simp only [Function.comp, setNull_setNull]
    congr 1
    · exact setNull_congr users _
    · exact setNull_congr keys _

theorem deleteChildren_congr (db : RetentionDatabase) {first second : Uuid → Prop}
    [DecidablePred first] [DecidablePred second] (same : ∀ id, first id ↔ second id) :
    db.deleteChildren first = db.deleteChildren second := by
  obtain rfl : first = second := funext fun id => propext (same id)
  congr 1

theorem deleteChildren_of_not (db : RetentionDatabase) {gone : Uuid → Prop} [DecidablePred gone]
    (none_ : ∀ id, ¬ gone id) : db.deleteChildren gone = db := by
  have keeps : ∀ {ρ : Type} (rows : List ρ) (org : ρ → Uuid),
      (rows.filter fun r => ¬ gone (org r)) = rows := fun rows org =>
    List.filter_eq_self.2 fun r _ => decide_eq_true (none_ (org r))
  have column : ∀ {ρ : Type} (rows : List ρ) (id org : ρ → Uuid) (x : Option Uuid),
      setNull (fun y => ∃ r ∈ rows, id r = y ∧ gone (org r)) x = x := fun rows id org x =>
    setNull_of_not fun _ _ ⟨r, _, _, is⟩ => none_ (org r) is
  apply RetentionDatabase.ext
  · rfl
  · exact keeps db.users (·.orgId)
  · exact keeps db.apiKeys (·.orgId)
  · rfl
  · exact keeps db.emailChecks (·.orgId)
  · exact keeps db.phoneChecks (·.orgId)
  · exact keeps db.batches (·.orgId)
  · exact keeps db.webhookEndpoints (·.orgId)
  · exact List.filter_eq_self.2 fun d _ => decide_eq_true fun ⟨e, _, _, is⟩ => none_ e.orgId is
  · apply (keeps _ InvoiceRequest.orgId).trans
    refine (List.map_congr_left fun r _ => ?_).trans (List.map_id _)
    exact congrArg (InvoiceRequest.mk r.id r.orgId) (column db.users (·.id) (·.orgId) _)
  · rfl
  · show (db.auditEvents.map _).map _ = db.auditEvents
    rw [List.map_map]
    refine (List.map_congr_left fun e _ => ?_).trans (List.map_id _)
    have user := column db.users (·.id) (·.orgId) e.actorUserId
    have key := column (db.deleteUsers gone).apiKeys (·.id) (·.orgId) e.actorApiKeyId
    show { e with actorUserId := setNull _ e.actorUserId,
                  actorApiKeyId := setNull _ e.actorApiKeyId } = e
    rw [user, key]

theorem markPurged_markPurged (db : RetentionDatabase) (first second : Uuid → Prop)
    [DecidablePred first] [DecidablePred second] (now : Date) :
    (db.markPurged first now).markPurged second now =
      db.markPurged (fun id => first id ∨ second id) now := by
  apply RetentionDatabase.ext
  case organizations =>
    show (db.organizations.map _).map _ = db.organizations.map _
    rw [List.map_map]
    apply List.map_congr_left
    intro o _
    have id_ := id_purgeWhere first now o
    by_cases h : first o.id
    · by_cases h' : second o.id <;> simp [h, h', OrganizationRow.purge]
    · by_cases h' : second o.id <;> simp [h, h']
  all_goals rfl

theorem markPurged_congr (db : RetentionDatabase) {first second : Uuid → Prop}
    [DecidablePred first] [DecidablePred second] (same : ∀ id, first id ↔ second id) (now : Date) :
    db.markPurged first now = db.markPurged second now := by
  obtain rfl : first = second := funext fun id => propext (same id)
  congr 1

/-- The tables with more audit events. -/
def withEvents (db : RetentionDatabase) (events : List AuditEvent) : RetentionDatabase :=
  { db with auditEvents := db.auditEvents ++ events }

/-- Events without actors refer to nothing that is deleted. -/
theorem deleteChildren_withEvents (db : RetentionDatabase) {events : List AuditEvent}
    (actorless : ∀ e ∈ events, e.actorUserId = none ∧ e.actorApiKeyId = none) (gone : Uuid → Prop)
    [DecidablePred gone] :
    (db.withEvents events).deleteChildren gone = (db.deleteChildren gone).withEvents events := by
  apply RetentionDatabase.ext
  case auditEvents =>
    show ((db.auditEvents ++ events).map _).map _ = (db.auditEvents.map _).map _ ++ events
    rw [List.map_append, List.map_append]
    congr 1
    rw [List.map_map]
    refine (List.map_congr_left fun e member => ?_).trans (List.map_id _)
    obtain ⟨user, key⟩ := actorless e member
    cases e
    cases user
    cases key
    rfl
  all_goals rfl

theorem markPurged_withEvents (db : RetentionDatabase) (events : List AuditEvent)
    (gone : Uuid → Prop) [DecidablePred gone] (now : Date) :
    (db.withEvents events).markPurged gone now = (db.markPurged gone now).withEvents events := rfl

theorem record_withEvents (db : RetentionDatabase) (events : List AuditEvent) (event : AuditEvent) :
    (db.withEvents events).record event = db.withEvents (events ++ [event]) := by
  apply RetentionDatabase.ext
  case auditEvents => exact List.append_assoc _ _ _
  all_goals rfl

/-- The tables after the purges of organisations. -/
def purgeOrganizations (db : RetentionDatabase) (ids : List Uuid) (now : Date) :
    RetentionDatabase :=
  (db.deleteChildren fun id => id ∈ ids).markPurged (fun id => id ∈ ids) now

theorem purgeOrganizations_nil (db : RetentionDatabase) (now : Date) :
    db.purgeOrganizations [] now = db := by
  have mark : db.organizations.map (fun o => if o.id ∈ [] then o.purge now else o) =
      db.organizations :=
    (List.map_congr_left fun o _ => if_neg List.not_mem_nil).trans (List.map_id _)
  have children : db.deleteChildren (fun id => id ∈ []) = db :=
    db.deleteChildren_of_not fun _ => List.not_mem_nil
  unfold purgeOrganizations
  rw [children]
  apply RetentionDatabase.ext
  case organizations => exact mark
  all_goals rfl

/-- The event of a purge. -/
def IsPurgeEvent (ids : List Uuid) (now : Date) (e : AuditEvent) : Prop :=
  (∃ id ∈ ids, e.orgId = some id) ∧ e.actorUserId = none ∧ e.actorApiKeyId = none ∧
    e.action = "org.purged" ∧ e.expiresAt = (now.addDays auditRetentionDays).timestamp

/-- **One more purge.** -/
theorem hardDelete_purgeOrganizations (db : RetentionDatabase) (ids : List Uuid)
    {events : List AuditEvent} {now : Date} (purged : ∀ e ∈ events, IsPurgeEvent ids now e)
    (id : Uuid) (draw : Draw) :
    ∃ event, IsPurgeEvent [id] now event ∧
      ((db.purgeOrganizations ids now).withEvents events).hardDeleteOrganizationData id draw now =
        (db.purgeOrganizations (ids ++ [id]) now).withEvents (events ++ [event]) := by
  refine ⟨(((db.purgeOrganizations ids now).withEvents events).purgeEvent id).row draw now,
    ⟨⟨id, List.mem_singleton_self id, rfl⟩, rfl, rfl, rfl, rfl⟩, ?_⟩
  have same : ∀ x, (x ∈ ids ∨ x = id) ↔ x ∈ ids ++ [id] := fun x => by simp
  have children := (deleteChildren_deleteChildren db (fun x => x ∈ ids) (fun x => x = id)).trans
    (deleteChildren_congr db same)
  have marks := (markPurged_markPurged (db.deleteChildren fun x => x ∈ ids ++ [id])
    (fun x => x ∈ ids) (fun x => x = id) now).trans (markPurged_congr _ same now)
  unfold hardDeleteOrganizationData
  rw [deleteChildren_withEvents _ fun e member =>
    ⟨(purged e member).2.1, (purged e member).2.2.1⟩]
  have moved : (db.purgeOrganizations ids now).deleteChildren (fun x => x = id) =
      (db.deleteChildren fun x => x ∈ ids ++ [id]).markPurged (fun x => x ∈ ids) now := by
    rw [← children]
    rfl
  rw [moved, markPurged_withEvents, marks, record_withEvents]
  rfl

/-- The organisation is gone at the end of a sweep: purged by then, and no ledger row of it is
younger than its retention. -/
def Removed (db : RetentionDatabase) (now : Date) (id : Uuid) : Prop :=
  (∃ o ∈ db.organizations, o.id = id ∧ (o.purgedAt ≠ none ∨ o.Due now)) ∧
    ∀ e ∈ db.creditLedger, e.orgId = id → e.Expired now

instance (db : RetentionDatabase) (now : Date) (id : Uuid) : Decidable (db.Removed now id) :=
  inferInstanceAs (Decidable (_ ∧ _))

theorem mem_dueForPurge {db : RetentionDatabase} {now : Date} {id : Uuid} :
    id ∈ db.dueForPurge now ↔ ∃ o ∈ db.organizations, o.id = id ∧ o.Due now := by
  simp only [dueForPurge, List.mem_map, List.mem_filter, decide_eq_true_eq]
  constructor
  · rintro ⟨o, ⟨member, due⟩, is⟩
    exact ⟨o, member, is, due⟩
  · rintro ⟨o, member, is, due⟩
    exact ⟨o, ⟨member, due⟩, is⟩

theorem not_due_purge (o : OrganizationRow) (now : Date) : ¬ (o.purge now).Due now :=
  fun due => nomatch due.2

/-- An organisation is due as its row is. -/
theorem due_of_mem {db : RetentionDatabase} {now : Date} {o : OrganizationRow}
    (member : o ∈ db.organizations) (due : o.id ∈ db.dueForPurge now) : o.Due now := by
  obtain ⟨other, listed, same, is⟩ := mem_dueForPurge.1 due
  rwa [← List.inj_on_of_nodup_map db.organizationIds listed member same]

section Mark

variable {db : RetentionDatabase} {now : Date} {ids : List Uuid}

theorem mem_markPurged {o : OrganizationRow} :
    o ∈ (db.markPurged (fun id => id ∈ ids) now).organizations ↔
      (o ∈ db.organizations ∧ o.id ∉ ids) ∨
        ∃ before ∈ db.organizations, before.id ∈ ids ∧ o = before.purge now := by
  show o ∈ db.organizations.map _ ↔ _
  rw [List.mem_map]
  constructor
  · rintro ⟨before, member, rfl⟩
    by_cases h : before.id ∈ ids
    · exact .inr ⟨before, member, h, if_pos h⟩
    · rw [if_neg h]
      exact .inl ⟨member, h⟩
  · rintro (⟨member, h⟩ | ⟨before, member, h, rfl⟩)
    · exact ⟨o, member, if_neg h⟩
    · exact ⟨before, member, if_pos h⟩

/-- The purged are no longer due. -/
theorem mem_dueForPurge_markPurged {id : Uuid} :
    id ∈ (db.markPurged (fun id => id ∈ ids) now).dueForPurge now ↔
      id ∈ db.dueForPurge now ∧ id ∉ ids := by
  rw [mem_dueForPurge, mem_dueForPurge]
  constructor
  · rintro ⟨o, member, rfl, due⟩
    rcases mem_markPurged.1 member with ⟨listed, h⟩ | ⟨before, -, -, rfl⟩
    · exact ⟨⟨o, listed, rfl, due⟩, h⟩
    · exact absurd due (not_due_purge before now)
  · rintro ⟨⟨o, member, rfl, due⟩, h⟩
    exact ⟨o, mem_markPurged.2 (.inl ⟨member, h⟩), rfl, due⟩

/-- What a sweep removes in the end does not depend on how far its purges are. -/
theorem removed_markPurged (due : ∀ id ∈ ids, id ∈ db.dueForPurge now) (id : Uuid) :
    (db.markPurged (fun id => id ∈ ids) now).Removed now id ↔ db.Removed now id := by
  apply and_congr_left
  intro _
  constructor
  · rintro ⟨o, member, rfl, state⟩
    rcases mem_markPurged.1 member with ⟨listed, -⟩ | ⟨before, listed, h, rfl⟩
    · exact ⟨o, listed, rfl, state⟩
    · exact ⟨before, listed, rfl, .inr (due_of_mem listed (due _ h))⟩
  · rintro ⟨o, member, rfl, state⟩
    by_cases h : o.id ∈ ids
    · exact ⟨o.purge now, mem_markPurged.2 (.inr ⟨o, member, h, rfl⟩), rfl, .inl nofun⟩
    · exact ⟨o, mem_markPurged.2 (.inl ⟨member, h⟩), rfl, state⟩

end Mark

/-- When nothing is due, the retired organisations are those that a sweep removes. -/
theorem retired_ledgerPurged {db : RetentionDatabase} {now : Date} (none_ : db.dueForPurge now = [])
    (id : Uuid) : (db.ledgerPurged now).Retired id ↔ db.Removed now id := by
  refine and_congr ?_ ?_
  · constructor
    · rintro ⟨o, member, rfl, purged⟩
      exact ⟨o, member, rfl, .inl purged⟩
    · rintro ⟨o, member, rfl, purged | due⟩
      · exact ⟨o, member, rfl, purged⟩
      · have listed : o.id ∈ db.dueForPurge now := mem_dueForPurge.2 ⟨o, member, rfl, due⟩
        rw [none_] at listed
        cases listed
  · simp only [ledgerPurged, List.mem_filter, decide_eq_true_eq]
    constructor
    · intro gone e member is
      by_contra young
      exact gone e ⟨member, young⟩ is
    · rintro gone e ⟨member, young⟩ is
      exact young (gone e member is)

/-- The tables without the batches past their expiry. -/
def dropExpiredBatches (db : RetentionDatabase) (now : Date) : RetentionDatabase :=
  db.withBatches fun b => ¬ b.expiresAt ≤ now.timestamp

/-- The tables after a sweep; `events` are those of the purges, `last` is its own. -/
def swept (db : RetentionDatabase) (now : Date) (events : List AuditEvent) (last : AuditEvent) :
    RetentionDatabase :=
  let kept := (db.purgeExpiredChecks now).2.dropExpiredBatches now
  let purged := (kept.purgeOrganizations (db.dueForPurge now) now).withEvents events
  let aged := (purged.purgeExpiredLeads now).2.ledgerPurged now
  aged.deleteRetiredOrganizations.2.record last

end RetentionDatabase

end Tozalist.Db
