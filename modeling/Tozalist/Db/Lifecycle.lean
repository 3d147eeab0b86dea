/-
# Tozalist.Db.Lifecycle -- wiping, sweeping, and the retention of the ledger

`packages/db/src/lifecycle.ts`, as far as it removes batches or ledger rows:
`listExpiredBatches` and `deleteBatchesByIds` of the hourly sweep,
`wipeCheckDataForOrg` behind "Delete all check data", and `ledgerRetentionCutoff` with
`purgeExpiredLedgerEntries`, whose rows the append-only trigger examines again.
`softDeleteOrganization` of `accounts.ts` is here too.

Neither removal of batches looks at their status or writes to the ledger.
-/
import Tozalist.Db.Batches
import Tozalist.Theory.Calendar

namespace Tozalist.Db

set_option autoImplicit false

open Theory (Txn)
open Theory.Calendar (CivilDate dateOf dayOf clampDay)

/-! ## Batches past their expiry -/

/-- `BatchPurgeTarget`. -/
structure BatchPurgeTarget where
  id : Uuid
  orgId : Uuid
  inputObjectKey : String
  resultObjectKey : Option String
  deriving DecidableEq, Repr

def Batch.target (b : Batch) : BatchPurgeTarget :=
  { id := b.id, orgId := b.orgId, inputObjectKey := b.inputObjectKey,
    resultObjectKey := b.resultObjectKey }

/-- The rows `listExpiredBatches` selects from. -/
def Database.expiredBatches (db : Database) (now : Date) : List BatchPurgeTarget :=
  (db.batches.filter fun b => b.expiresAt ≤ now.timestamp).map Batch.target

/-- `listExpiredBatches`: a page of at most `limit` of them.  Without an order, any such
page is an answer. -/
def Database.IsExpiredPage (db : Database) (now : Date) (limit : ℕ)
    (page : List BatchPurgeTarget) : Prop :=
  List.Subperm page (db.expiredBatches now) ∧
    page.length = min limit (db.expiredBatches now).length

instance (db : Database) (now : Date) (limit : ℕ) (page : List BatchPurgeTarget) :
    Decidable (db.IsExpiredPage now limit page) :=
  inferInstanceAs (Decidable (_ ∧ _))

/-- `deleteBatchesByIds`. -/
def deleteBatchesByIds (ids : List Uuid) : Tx ℕ := do
  let db ← get
  modify fun db => db.deleteBatches fun b => b.id ∈ ids
  return (db.batches.filter fun b => b.id ∈ ids).length

theorem deleteBatchesByIds_transaction (ids : List Uuid) (db : Database) :
    (Txn.transaction (deleteBatchesByIds ids) db).2 = db.deleteBatches fun b => b.id ∈ ids :=
  rfl

/-! ## Wiping an organisation's check data -/

/-- `CheckDataWipeResult`. -/
structure CheckDataWipeResult where
  emailChecks : ℕ
  phoneChecks : ℕ
  batches : ℕ
  batchObjects : ℕ
  deriving DecidableEq, Repr

/-- The objects of a batch. -/
def Batch.objectKeys (b : Batch) : List String :=
  match b.resultObjectKey with
  | none => [b.inputObjectKey]
  | some key => [b.inputObjectKey, key]

/-- The database without an organisation's checks and batches. -/
def Database.wiped (db : Database) (orgId : Uuid) : Database :=
  { db.deleteBatches (fun b => b.orgId = orgId) with
    emailChecks := db.emailChecks.filter fun c => c.orgId ≠ orgId
    phoneChecks := db.phoneChecks.filter fun c => c.orgId ≠ orgId }

/-- `wipeCheckDataForOrg`; `deleteObjects` says whether the storage did as it was told. -/
def wipeCheckDataForOrg (orgId : Uuid) (deleteObjects : List String → Bool) :
    Tx (Option CheckDataWipeResult) := do
  match ← lockOrganization orgId with
  | none => return none
  | some _ => do
      let db ← get
      let objectKeys := (db.batches.filter fun b => b.orgId = orgId).flatMap Batch.objectKeys
      if ¬ deleteObjects objectKeys then throw .storage
      else do
        modify fun db => db.wiped orgId
        return some
          { emailChecks := (db.emailChecks.filter fun c => c.orgId = orgId).length
            phoneChecks := (db.phoneChecks.filter fun c => c.orgId = orgId).length
            batches := (db.batches.filter fun b => b.orgId = orgId).length
            batchObjects := objectKeys.length }

/-- The organisation exists and is not deleted. -/
def Database.ActiveOrg (db : Database) (orgId : Uuid) : Prop :=
  ∃ org ∈ db.organizations, org.id = orgId ∧ org.Active

instance (db : Database) (orgId : Uuid) : Decidable (db.ActiveOrg orgId) :=
  inferInstanceAs (Decidable (∃ org ∈ db.organizations, org.id = orgId ∧ org.Active))

/-- **A wipe** changes nothing, or removes every check and batch of an active
organisation. -/
theorem wipeCheckDataForOrg_commits {orgId : Uuid} {deleteObjects : List String → Bool}
    {db db' : Database} {result : Option CheckDataWipeResult}
    (commits : Txn.Commits (wipeCheckDataForOrg orgId deleteObjects) db result db') :
    db' = db ∨ (db.ActiveOrg orgId ∧
      deleteObjects ((db.batches.filter fun b => b.orgId = orgId).flatMap Batch.objectKeys) = true ∧
        db' = db.wiped orgId) := by
  simp only [wipeCheckDataForOrg, Txn.commits_bind, lockOrganization_commits] at commits
  obtain ⟨_, _, ⟨rfl, rfl⟩, commits⟩ := commits
  split at commits
  · exact .inl ((Txn.commits_pure _ _ _ _).1 commits).2
  · rename_i org found
    have active := List.find?_some found
    simp only [decide_eq_true_eq] at active
    simp only [Txn.commits_bind, Txn.commits_get, Txn.commits_ite, Txn.commits_throw, and_false,
      false_or, Txn.commits_modify, Txn.commits_pure] at commits
    obtain ⟨_, _, ⟨rfl, rfl⟩, gone, _, _, rfl, -, rfl⟩ := commits
    exact .inr ⟨⟨org, List.mem_of_find?_eq_some found, active.1, active.2⟩, by simpa using gone,
      rfl⟩

/-- A wipe of an active organisation whose objects were deleted goes through. -/
theorem wipeCheckDataForOrg_transaction {orgId : Uuid} {db : Database} (active : db.ActiveOrg orgId) :
    (Txn.transaction (wipeCheckDataForOrg orgId fun _ => true) db).2 = db.wiped orgId := by
  obtain ⟨o, member, is, stands⟩ := active
  have found : (db.organizations.find? fun o => o.id = orgId ∧ o.Active).isSome :=
    List.find?_isSome.2 ⟨o, member, by simp [is, stands]⟩
  obtain ⟨org, found⟩ := Option.isSome_iff_exists.1 found
  have commits : ∃ result, Txn.Commits (wipeCheckDataForOrg orgId fun _ => true) db result
      (db.wiped orgId) := by
    simp only [wipeCheckDataForOrg, Txn.commits_bind, lockOrganization_commits, found]
    exact ⟨_, _, _, ⟨rfl, rfl⟩, rfl⟩
  obtain ⟨result, commits⟩ := commits
  rw [Txn.transaction_of_commits commits]

/-! ## Soft deletion -/

/-- The organisations after `softDeleteOrganization`. -/
def Organization.softDelete (orgId : Uuid) (now : Date) (org : Organization) : Organization :=
  if org.id = orgId ∧ org.Active then { org with deletedAt := some now.timestamp } else org

/-- The audit event of a deletion. -/
def softDeleteEvent (orgId actorUserId : Uuid) : AuditEventInput :=
  { orgId := some orgId
    actorUserId := some actorUserId
    action := "org.deleted"
    targetType := "organization"
    targetId := orgId.text
    metadata := [("purge", .text "scheduled_by_retention_sweep")] }

/-- `softDeleteOrganization`. -/
def softDeleteOrganization (orgId actorUserId : Uuid) (draw : Draw) (now : Date) : Tx Bool := do
  let db ← get
  if ¬ db.ActiveOrg orgId then return false
  else do
    modify fun db =>
      { db with organizations := db.organizations.map (Organization.softDelete orgId now) }
    recordAuditEvent (softDeleteEvent orgId actorUserId) draw now
    return true

/-- **A soft deletion** touches neither ledger nor batches, and makes nobody active. -/
theorem softDeleteOrganization_commits {orgId actorUserId : Uuid} {draw : Draw} {now : Date}
    {db db' : Database} {result : Bool}
    (commits : Txn.Commits (softDeleteOrganization orgId actorUserId draw now) db result db') :
    db'.creditLedger = db.creditLedger ∧ db'.batches = db.batches ∧
      ∀ org, db'.ActiveOrg org → db.ActiveOrg org := by
  simp only [softDeleteOrganization, Txn.commits_bind, Txn.commits_get, Txn.commits_ite,
    Txn.commits_pure, Txn.commits_modify, recordAuditEvent] at commits
  obtain ⟨_, _, ⟨rfl, rfl⟩, ⟨-, -, rfl⟩ | ⟨-, _, _, rfl, _, _, rfl, -, rfl⟩⟩ := commits
  · exact ⟨rfl, rfl, fun _ => id⟩
  · refine ⟨rfl, rfl, ?_⟩
    rintro org ⟨o', member, same, active⟩
    obtain ⟨o, inside, rfl⟩ := List.mem_map.1 member
    rw [Organization.softDelete] at same active
    split at active
    · cases active
    · rename_i untouched
      rw [if_neg untouched] at same
      exact ⟨o, inside, same, active⟩

/-! ## Retention of the ledger -/

/-- `LEDGER_RETENTION_YEARS`. -/
def ledgerRetentionYears : Int := 3

/-- Milliseconds of a day. -/
def msPerDay : Int := 86400000

/-- `ledgerRetentionCutoff`: `setUTCFullYear` keeps month, day and time, and runs over
into March where the day does not exist. -/
def ledgerRetentionCutoff (now : Date) : Date :=
  let date := dateOf (now / msPerDay)
  dayOf { date with year := date.year - ledgerRetentionYears } * msPerDay + now % msPerDay

/-- `t - interval 'n years'`: a day that does not exist becomes the last one of its month. -/
def minusYears (t : Timestamp) (years : Int) : Timestamp :=
  let usPerDay := msPerDay * 1000
  let date := dateOf (t / usPerDay)
  dayOf (clampDay { date with year := date.year - years }) * usPerDay + t % usPerDay

/-- A row the purge selects. -/
def CreditLedgerEntry.Expired (entry : CreditLedgerEntry) (now : Date) : Prop :=
  entry.createdAt ≤ (ledgerRetentionCutoff now).timestamp

instance (entry : CreditLedgerEntry) (now : Date) : Decidable (entry.Expired now) :=
  inferInstanceAs (Decidable (_ ≤ _))

/-- `purgeExpiredLedgerEntries`; the trigger lets a row go only when it is old by the
database's clock too, and one that is not aborts the statement. -/
def purgeExpiredLedgerEntries (dbNow : Timestamp) (now : Date) : Tx ℕ := do
  let db ← get
  if ∃ e ∈ db.creditLedger, e.Expired now ∧
      ¬ e.createdAt ≤ minusYears dbNow ledgerRetentionYears then throw .appendOnly
  else do
    modify fun db => { db with creditLedger := db.creditLedger.filter fun e => ¬ e.Expired now }
    return (db.creditLedger.filter fun e => e.Expired now).length

/-- **A purge** that commits leaves exactly the rows younger than the cutoff. -/
theorem purgeExpiredLedgerEntries_commits {dbNow : Timestamp} {now : Date} {db db' : Database}
    {count : ℕ} (commits : Txn.Commits (purgeExpiredLedgerEntries dbNow now) db count db') :
    db' = { db with creditLedger := db.creditLedger.filter fun e => ¬ e.Expired now } := by
  simp only [purgeExpiredLedgerEntries, Txn.commits_bind, Txn.commits_get, Txn.commits_ite,
    Txn.commits_throw, and_false, false_or, Txn.commits_modify, Txn.commits_pure] at commits
  obtain ⟨_, _, ⟨rfl, rfl⟩, -, _, _, rfl, -, rfl⟩ := commits
  rfl

end Tozalist.Db
