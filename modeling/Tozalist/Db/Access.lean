/-
# Tozalist.Db.Access -- keys, and what an organisation may see

`findActiveApiKeyByHash` and `touchApiKeyLastUsed` of `packages/db/src/api-keys.ts`, and the
reads and deletions that go by an organisation: `getEmailCheckForOrg` and `getChecksPerDay` of
`checks.ts`, `deleteEmailCheckForOrg` and `deletePhoneCheckForOrg` of `lifecycle.ts`,
`getBatchForOrg` of `batches.ts`, `getOrgSettings` of `accounts.ts`.

All but `getChecksPerDay` ask whether the organisation is still there.
-/
import Tozalist.Db.Lifecycle
import Tozalist.Db.Pages
import Tozalist.Db.Retention

namespace Tozalist.Db

set_option autoImplicit false

open Theory (Txn)

/-! ## Keys -/

/-- A row of `api_keys`, without the columns that are only shown. -/
structure ApiKeyRow extends ApiKey where
  keyHash : String
  revokedAt : Option Timestamp
  expiresAt : Option Timestamp
  lastUsedAt : Option Timestamp
  deriving DecidableEq, Repr

/-- `AuthenticatedKey`. -/
structure AuthenticatedKey where
  apiKeyId : Uuid
  orgId : Uuid
  deriving DecidableEq, Repr

/-- Why a key is not active. -/
inductive KeyFailure where
  | unknownKey
  | revokedKey
  | expiredKey
  | orgDeleted
  deriving DecidableEq, Repr

/-- The reason's token. -/
def KeyFailure.text : KeyFailure → String
  | .unknownKey => "unknown_key"
  | .revokedKey => "revoked_key"
  | .expiredKey => "expired_key"
  | .orgDeleted => "org_deleted"

/-- The key with a hash, and its organisation. -/
def keyRow (db : Database) (apiKeys : List ApiKeyRow) (keyHash : String) :
    Option (ApiKeyRow × Organization) :=
  (apiKeys.filter fun k => k.keyHash = keyHash).findSome? fun k =>
    (db.organizations.find? fun o => o.id = k.orgId).map fun org => (k, org)

/-- `findActiveApiKeyByHash`. -/
def findActiveApiKeyByHash (db : Database) (apiKeys : List ApiKeyRow) (keyHash : String)
    (now : Date) : Except KeyFailure AuthenticatedKey :=
  match keyRow db apiKeys keyHash with
  | none => .error .unknownKey
  | some (key, org) =>
      if key.revokedAt ≠ none then .error .revokedKey
      else if ∃ t ∈ key.expiresAt, t ≤ now.timestamp then .error .expiredKey
      else if ¬ org.Active then .error .orgDeleted
      else .ok ⟨key.id, key.orgId⟩

/-- **An active key** is one of the keys with the hash, and of an active organisation. -/
theorem findActiveApiKeyByHash_ok {db : Database} {apiKeys : List ApiKeyRow} {keyHash : String}
    {now : Date} {key : AuthenticatedKey}
    (active : findActiveApiKeyByHash db apiKeys keyHash now = .ok key) :
    db.ActiveOrg key.orgId ∧ ∃ k ∈ apiKeys, k.keyHash = keyHash ∧ k.orgId = key.orgId := by
  unfold findActiveApiKeyByHash at active
  split at active
  · cases active
  · rename_i k org row
    obtain ⟨k', inside, found⟩ := List.exists_of_findSome?_eq_some row
    obtain ⟨org', selected, same⟩ := Option.map_eq_some_iff.1 found
    obtain ⟨rfl, rfl⟩ := Prod.mk.inj same
    obtain ⟨member, hash⟩ := List.mem_filter.1 inside
    have own := List.find?_some selected
    rw [decide_eq_true_eq] at own hash
    split at active
    · cases active
    split at active
    · cases active
    split at active
    · cases active
    · rename_i alive
      obtain rfl := Except.ok.inj active
      exact ⟨⟨org', List.mem_of_find?_eq_some selected, own, not_not.1 alive⟩,
        k', member, hash, rfl⟩

/-- `touchApiKeyLastUsed`. -/
def touchApiKeyLastUsed (apiKeys : List ApiKeyRow) (apiKeyId : Uuid) (now : Date) : List ApiKeyRow :=
  apiKeys.map fun k => if k.id = apiKeyId then { k with lastUsedAt := some now.timestamp } else k

/-! ## Rows of an active organisation -/

/-- `getOrgSettings`. -/
def getOrgSettings (db : Database) (orgId : Uuid) : Option Organization :=
  db.organizations.find? fun o => o.id = orgId ∧ o.Active

/-- `getEmailCheckForOrg`. -/
def getEmailCheckForOrg (db : Database) (id orgId : Uuid) (now : Date) : Option EmailCheck :=
  db.emailChecks.find? fun c =>
    c.id = id ∧ c.orgId = orgId ∧ db.ActiveOrg orgId ∧ now.timestamp < c.expiresAt

/-- `getBatchForOrg`. -/
def getBatchForOrg (db : Database) (id orgId : Uuid) : Option Batch :=
  db.batches.find? fun b => b.id = id ∧ b.orgId = orgId ∧ db.ActiveOrg orgId

/-- `deleteEmailCheckForOrg`. -/
def deleteEmailCheckForOrg (id orgId : Uuid) (now : Date) : Tx Bool := do
  let db ← get
  if ¬ db.ActiveOrg orgId then return false
  else do
    modify fun db => { db with
      emailChecks := db.emailChecks.filter fun c =>
        ¬ (c.id = id ∧ c.orgId = orgId ∧ now.timestamp < c.expiresAt) }
    return (db.emailChecks.filter fun c =>
      c.id = id ∧ c.orgId = orgId ∧ now.timestamp < c.expiresAt).length = 1

/-- `deletePhoneCheckForOrg`. -/
def deletePhoneCheckForOrg (id orgId : Uuid) (now : Date) : Tx Bool := do
  let db ← get
  if ¬ db.ActiveOrg orgId then return false
  else do
    modify fun db => { db with
      phoneChecks := db.phoneChecks.filter fun c =>
        ¬ (c.id = id ∧ c.orgId = orgId ∧ now.timestamp < c.expiresAt) }
    return (db.phoneChecks.filter fun c =>
      c.id = id ∧ c.orgId = orgId ∧ now.timestamp < c.expiresAt).length = 1

/-! ## Counts of days -/

/-- An entry of `getChecksPerDay`; the day is counted from the epoch. -/
structure DayCount where
  day : Int
  count : Int
  deriving DecidableEq, Repr

/-- The days, in UTC, of the checks of an organisation since an instant. -/
def checkDays (db : Database) (orgId : Uuid) (since : Date) : List Int :=
  ((db.emailChecks.filter fun c => c.orgId = orgId ∧ since.timestamp ≤ c.createdAt).map
      (·.createdAt / (msPerDay * 1000))) ++
    (db.phoneChecks.filter fun c => c.orgId = orgId ∧ since.timestamp ≤ c.createdAt).map
      (·.createdAt / (msPerDay * 1000))

/-- `getChecksPerDay`. -/
def getChecksPerDay (db : Database) (orgId : Uuid) (days : Int) (now : Date) :
    Except DbError (List DayCount) :=
  let found := checkDays db orgId (now - days * msPerDay)
  if ∀ day ∈ found, Int4 (found.count day) then
    .ok ((found.dedup.mergeSort (· ≤ ·)).map fun day => ⟨day, found.count day⟩)
  else .error .integerOutOfRange

end Tozalist.Db
