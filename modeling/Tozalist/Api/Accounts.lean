/-
# Tozalist.Api.Accounts -- organisations, users and keys

The tables behind the dashboard's accounts, with the operations of `packages/db/src/accounts.ts`,
those of `packages/db/src/api-keys.ts` and `createInvoiceRequest` of `packages/db/src/billing.ts`.

A transaction that takes no lock before it writes is cut after its `SELECT`, since others may
commit in between; what follows is one commit, and a unique index may still refuse it.  Rows of
organisations, users and keys are not removed here: that is the retention sweep's work.
-/
import Tozalist.Api.SecondFactor
import Tozalist.Db.Crypto

namespace Tozalist.Api

set_option autoImplicit false

open Db
open Theory (Txn)

/-! ## Rows -/

/-- `organizations`, with the name. -/
structure Tenant extends Organization where
  name : JsString
  deriving DecidableEq

/-- `users`, with the columns of the login. -/
structure Account extends UserRow where
  passwordHash : String
  role : Role
  deriving DecidableEq

/-- `api_keys`, with the columns that are shown. -/
structure KeyRow extends ApiKeyRow where
  name : JsString
  keyPrefix : JsString
  createdAt : Timestamp
  deriving DecidableEq

/-- `invoice_requests` -/
structure InvoiceRequest where
  id : Uuid
  orgId : Uuid
  requestedByUserId : Uuid
  planCode : String
  createdAt : Timestamp
  deriving DecidableEq

/-- A row of `audit_events`, without its generated columns. -/
structure AccountEventRow extends AuditEventInput where
  expiresAt : Timestamp

/-- An event's row with the columns that the database generates. -/
def AccountEventRow.stored (r : AccountEventRow) (draw : Draw) : AuditEvent :=
  { id := draw.auditId
    orgId := r.orgId
    actorUserId := r.actorUserId
    actorApiKeyId := r.actorApiKeyId
    action := r.action
    targetType := r.targetType
    targetId := r.targetId
    metadata := r.metadata
    createdAt := draw.now
    expiresAt := r.expiresAt }

/-- The tables. -/
structure Accounts where
  organizations : List Tenant
  users : List Account
  apiKeys : List KeyRow
  invoiceRequests : List InvoiceRequest
  auditEvents : List AccountEventRow

/-- What the process, PostgreSQL and the random source supply to a statement. -/
structure Chance where
  /-- `new Date()` -/
  now : Date
  /-- `clock()` -/
  clock : Date
  /-- `now()` of the transaction -/
  dbNow : Timestamp
  /-- whether the connection holds -/
  delivery : Txn.Delivery
  orgId : Uuid
  userId : Uuid
  rowId : Uuid
  csrfBytes : List UInt8
  passwordSalt : String
  mfa : MfaDraw
  keyBlocks : List (List UInt8)
  minted : (randomBase62 apiKeyRandomLength keyBlocks).isSome
  /-- the marker of the `last_used_at` throttle was free -/
  lastUsedMarker : Bool

/-- What the routes use of the platform. -/
structure AccountPlatform extends MfaPlatform where
  toLowerCase : JsString → JsString
  /-- `argon2Hash`, with the salt that it draws -/
  argon2Hash : String → JsString → String
  argon2Verify : String → JsString → Bool

/-- What a transaction refuses: PostgreSQL does, or the code throws. -/
inductive AccountError where
  | refused (error : DbError)
  | thrown (message : String)
  deriving DecidableEq, Repr

/-- A transaction body on the accounts. -/
abbrev Work (α : Type) : Type := Txn Accounts AccountError α

/-- `hashPassword` -/
def hashPassword (p : AccountPlatform) (salt : String) (password : JsString) :
    Except AccountError String :=
  let encoded := p.argon2Hash salt password
  if "$argon2id$".toList <+: encoded.toList then .ok encoded
  else .error (.thrown "password hashing did not produce an Argon2id hash")

/-- `generateApiKey`, of the blocks that were drawn. -/
def Chance.apiKey (p : AccountPlatform) (e : Chance) : GeneratedApiKey :=
  (generateApiKey p.sha256Hex e.keyBlocks).get (by
    rw [generateApiKey, Option.isSome_map]
    exact e.minted)

/-! ## Events -/

def orgCreatedEvent (orgId userId : Uuid) : AuditEventInput :=
  { orgId := some orgId
    actorUserId := some userId
    action := "org.created"
    targetType := "organization"
    targetId := orgId.text }

def userCreatedEvent (orgId userId : Uuid) : AuditEventInput :=
  { orgId := some orgId
    actorUserId := some userId
    action := "user.created"
    targetType := "user"
    targetId := userId.text
    metadata := [("role", .text "admin")] }

def loginEvent (user : Account) : AuditEventInput :=
  { orgId := some user.orgId
    actorUserId := some user.id
    action := "user.login"
    targetType := "user"
    targetId := user.id.text
    metadata := [("mfa_pending", .bool user.mfaSecret.isSome)] }

def logoutEvent (session : SessionData) : AuditEventInput :=
  { orgId := some session.orgId
    actorUserId := some session.userId
    action := "user.logout"
    targetType := "user"
    targetId := session.userId.text }

def settingsEvent (orgId actorUserId : Uuid) (fields : List String) : AuditEventInput :=
  { orgId := some orgId
    actorUserId := some actorUserId
    action := "org.settings_updated"
    targetType := "organization"
    targetId := orgId.text
    metadata := [("fields", .array (fields.map Metadata.text))] }

def keyCreatedEvent (key : KeyRow) (actorUserId : Option Uuid) : AuditEventInput :=
  { orgId := some key.orgId
    actorUserId
    action := "api_key.created"
    targetType := "api_key"
    targetId := key.id.text
    metadata := [("name", .string key.name), ("key_prefix", .string key.keyPrefix)] }

def keyRevokedEvent (key : KeyRow) (actorUserId : Option Uuid) : AuditEventInput :=
  { orgId := some key.orgId
    actorUserId
    action := "api_key.revoked"
    targetType := "api_key"
    targetId := key.id.text }

def invoiceRequestedEvent (request : InvoiceRequest) : AuditEventInput :=
  { orgId := some request.orgId
    actorUserId := some request.requestedByUserId
    action := "billing.invoice_requested"
    targetType := "invoice_request"
    targetId := request.id.text
    metadata := [("plan_code", .text request.planCode)] }

def authFailedEvent (requestId route : String) (category : String) : AuditEventInput :=
  { action := "api.auth_failed"
    targetType := "request"
    targetId := requestId
    metadata := [("category", .text category), ("route", .text route)] }

namespace Accounts

/-! ## Queries -/

variable (a : Accounts)

/-- The `SELECT` of `signupOrgWithAdmin`. -/
def emailTaken (email : JsString) : Bool :=
  a.users.any fun u => u.email = email ∧ u.deletedAt = none

/-- `findUserForLogin`, with `orgDeletedAt`. -/
def findUserForLogin (email : JsString) : Option (Account × Option Timestamp) :=
  (a.users.filter fun u => u.email = email ∧ u.deletedAt = none).findSome? fun u =>
    (a.organizations.find? fun o => o.id = u.orgId).map fun org => (u, org.deletedAt)

/-- `getUserById` -/
def getUserById (id : Uuid) : Option Account :=
  a.users.find? fun u => u.id = id ∧ u.deletedAt = none

/-- `getOrgSettings` -/
def getOrgSettings (orgId : Uuid) : Option Tenant :=
  a.organizations.find? fun o => o.id = orgId ∧ o.Active

/-- `listApiKeysForOrg` -/
def listApiKeysForOrg (orgId : Uuid) : List KeyRow :=
  (a.apiKeys.filter fun k => k.orgId = orgId).mergeSort fun k k' => k'.createdAt ≤ k.createdAt

/-- The tables that `findActiveApiKeyByHash` joins with the keys. -/
def database : Database :=
  { organizations := a.organizations.map (·.toOrganization)
    creditLedger := []
    emailChecks := []
    phoneChecks := []
    batches := []
    auditEvents := [] }

/-- `findActiveApiKeyByHash` -/
def findActiveApiKeyByHash (keyHash : String) (now : Date) : Except KeyFailure AuthenticatedKey :=
  Db.findActiveApiKeyByHash a.database (a.apiKeys.map (·.toApiKeyRow)) keyHash now

variable {a}

/-! ## Transactions -/

/-- The row that `recordAuditEvent` writes. -/
def eventRow (event : AuditEventInput) (now : Date) : AccountEventRow :=
  { event with expiresAt := (now.addDays auditRetentionDays).timestamp }

def logged (a : Accounts) (event : AuditEventInput) (now : Date) : Accounts :=
  { a with auditEvents := a.auditEvents ++ [eventRow event now] }

/-- `recordAuditEvent` -/
def recordAuditEvent (event : AuditEventInput) (now : Date) : Work Unit := modify (·.logged event now)

/-- The rows of a sign-up. -/
def withSignup (a : Accounts) (e : Chance) (orgName email : JsString) (passwordHash : String) :
    Accounts :=
  { a with
    organizations := a.organizations ++ [⟨⟨e.orgId, none, 30, false⟩, orgName⟩]
    users := a.users ++ [⟨⟨e.userId, e.orgId, email, none, [], none⟩, passwordHash, .admin⟩] }

/-- The `INSERT`s of `signupOrgWithAdmin`, and its audit events. -/
def signupOrgWithAdmin (e : Chance) (orgName email : JsString) (passwordHash : String) :
    Work (Uuid × Uuid) := do
  let a ← get
  if ¬ Storable orgName then throw (.refused .invalidText)
  else if ∃ o ∈ a.organizations, o.id = e.orgId then
    throw (.refused (.uniqueViolation "organizations_pkey"))
  else if ∃ u ∈ a.users, u.id = e.userId then throw (.refused (.uniqueViolation "users_pkey"))
  else if ∃ u ∈ a.users, u.email = email then
    throw (.refused (.uniqueViolation "users_email_unique"))
  else do
    modify (·.withSignup e orgName email passwordHash)
    recordAuditEvent (orgCreatedEvent e.orgId e.userId) e.now
    recordAuditEvent (userCreatedEvent e.orgId e.userId) e.now
    return (e.orgId, e.userId)

/-- The users after an `UPDATE` of one of them. -/
def setUser (userId : Uuid) (update : UserRow → UserRow) (users : List Account) : List Account :=
  users.map fun u => if u.id = userId then { u with toUserRow := update u.toUserRow } else u

/-- `enrollMfa` -/
def enrollMfa (p : AccountPlatform) (e : Chance) (userId : Uuid) : Work Unit := do
  let a ← get
  match a.getUserById userId with
  | none => throw (.thrown "user not found for MFA enrollment")
  | some user => do
      modify fun a => { a with
        users := setUser userId (·.enrollMfa p.toMfaPlatform e.mfa) a.users }
      recordAuditEvent (mfaEnrolledEvent user.toUserRow) e.now

/-- `consumeRecoveryCode` -/
def consumeRecoveryCode (p : AccountPlatform) (e : Chance) (userId : Uuid) (code : JsString) :
    Work Bool := do
  let a ← get
  match a.getUserById userId with
  | none => return false
  | some user =>
      if p.sha256Hex code ∉ user.mfaRecoveryCodes then return false
      else do
        modify fun a => { a with
          users := setUser userId
            (·.consumeRecoveryCode p.toMfaPlatform user.mfaRecoveryCodes code) a.users }
        recordAuditEvent (recoveryCodeUsedEvent user.toUserRow) e.now
        return true

/-- The organisations after an `UPDATE` of an active one. -/
def setOrganization (orgId : Uuid) (update : Tenant → Tenant) (organizations : List Tenant) :
    List Tenant :=
  organizations.map fun o => if o.id = orgId ∧ o.Active then update o else o

/-- `updateOrgSettings` -/
def updateOrgSettings (e : Chance) (orgId actorUserId : Uuid) (name : Option JsString)
    (retentionDays : Option Int) : Work Bool := do
  let a ← get
  if name = none ∧ retentionDays = none then throw (.thrown "No values to set")
  else if ¬ ∀ n ∈ name, Storable n then throw (.refused .invalidText)
  else
    match a.getOrgSettings orgId with
    | none => return false
    | some _ => do
        modify fun a => { a with
          organizations := setOrganization orgId (fun o => { o with
            name := name.getD o.name
            retentionDays := retentionDays.getD o.retentionDays }) a.organizations }
        recordAuditEvent (settingsEvent orgId actorUserId
          ((name.map fun _ => "name").toList ++
            (retentionDays.map fun _ => "retentionDays").toList)) e.now
        return true

/-- `softDeleteOrganization` -/
def softDeleteOrganization (e : Chance) (orgId actorUserId : Uuid) : Work Bool := do
  let a ← get
  match a.getOrgSettings orgId with
  | none => return false
  | some _ => do
      modify fun a => { a with
        organizations := setOrganization orgId (fun o => { o with
          deletedAt := some e.now.timestamp }) a.organizations }
      recordAuditEvent (softDeleteEvent orgId actorUserId) e.now
      return true

theorem stored_eventRow (event : AuditEventInput) (draw : Draw) (now : Date) :
    (eventRow event now).stored draw = event.row draw now := rfl

/-- **A deletion** is the one of `Db.softDeleteOrganization`: the same answer, the same
organisations, and the same event. -/
theorem softDeleteOrganization_database (a : Accounts) (e : Chance) (orgId actorUserId : Uuid)
    (draw : Draw) :
    ∃ deleted a' events,
      Txn.transaction (softDeleteOrganization e orgId actorUserId) a = (.ok deleted, a') ∧
      a'.auditEvents = a.auditEvents ++ events ∧
      Txn.transaction (Db.softDeleteOrganization orgId actorUserId draw e.now) a.database =
        (.ok deleted, { a'.database with auditEvents := events.map (·.stored draw) }) := by
  cases found : a.getOrgSettings orgId with
  | none =>
      have inactive : ¬ a.database.ActiveOrg orgId := by
        rintro ⟨o, member, is, active⟩
        obtain ⟨tenant, listed, rfl⟩ := List.mem_map.1 member
        have other := List.find?_eq_none.1 found tenant listed
        exact other (decide_eq_true ⟨is, active⟩)
      refine ⟨false, a, [], ?_, (List.append_nil _).symm, ?_⟩
      · apply Txn.transaction_of_commits
        rw [softDeleteOrganization, Txn.commits_bind]
        refine ⟨a, a, (Txn.commits_get _ _ _).2 ⟨rfl, rfl⟩, ?_⟩
        rw [found]
        exact rfl
      · apply Txn.transaction_of_commits
        rw [Db.softDeleteOrganization, Txn.commits_bind]
        refine ⟨a.database, a.database, (Txn.commits_get _ _ _).2 ⟨rfl, rfl⟩, ?_⟩
        rw [if_pos inactive]
        exact rfl
  | some tenant =>
      have active : a.database.ActiveOrg orgId := by
        have is := List.find?_some found
        obtain ⟨is, active⟩ := of_decide_eq_true is
        exact ⟨tenant.toOrganization, List.mem_map_of_mem (List.mem_of_find?_eq_some found), is,
          active⟩
      have organizations : (setOrganization orgId (fun o => { o with
          deletedAt := some e.now.timestamp }) a.organizations).map (·.toOrganization) =
            a.database.organizations.map (Organization.softDelete orgId e.now) := by
        rw [setOrganization, database, List.map_map, List.map_map]
        refine List.map_congr_left fun o _ => ?_
        simp only [Function.comp, Organization.softDelete]
        split <;> rfl
      refine ⟨true, ({ a with organizations := setOrganization orgId (fun o => { o with
          deletedAt := some e.now.timestamp }) a.organizations } : Accounts).logged
            (softDeleteEvent orgId actorUserId) e.now,
        [eventRow (softDeleteEvent orgId actorUserId) e.now], ?_, rfl, ?_⟩
      · apply Txn.transaction_of_commits
        rw [softDeleteOrganization, Txn.commits_bind]
        refine ⟨a, a, (Txn.commits_get _ _ _).2 ⟨rfl, rfl⟩, ?_⟩
        rw [found]
        exact rfl
      · apply Txn.transaction_of_commits
        rw [Db.softDeleteOrganization, Txn.commits_bind]
        refine ⟨a.database, a.database, (Txn.commits_get _ _ _).2 ⟨rfl, rfl⟩, ?_⟩
        rw [if_neg (not_not.2 active)]
        exact congrArg (fun rows => Except.ok (true, Database.mk rows [] [] [] []
          [(softDeleteEvent orgId actorUserId).row draw e.now])) organizations.symm

/-- The `SELECT` of `createApiKeyForOrg`: why there will be no key. -/
def createApiKeyRefusal (a : Accounts) (orgId : Uuid) : Option String :=
  match a.organizations.find? fun o => o.id = orgId with
  | none => some "org_not_found"
  | some org => if org.deletedAt ≠ none then some "org_deleted" else none

/-- The row of a key that is created. -/
def newKey (p : AccountPlatform) (e : Chance) (orgId : Uuid) (name : JsString) : KeyRow :=
  { id := e.rowId
    orgId
    keyHash := (e.apiKey p).keyHash
    revokedAt := none
    expiresAt := none
    lastUsedAt := none
    name
    keyPrefix := (e.apiKey p).keyPrefix
    createdAt := e.dbNow }

/-- The `INSERT` of `createApiKeyForOrg`, and its audit event. -/
def createApiKeyForOrg (p : AccountPlatform) (e : Chance) (orgId : Uuid) (name : JsString)
    (actorUserId : Option Uuid) : Work KeyRow := do
  let a ← get
  let key := newKey p e orgId name
  if ¬ Storable name then throw (.refused .invalidText)
  else if ∃ k ∈ a.apiKeys, k.id = key.id then throw (.refused (.uniqueViolation "api_keys_pkey"))
  else if ∃ k ∈ a.apiKeys, k.keyHash = key.keyHash then
    throw (.refused (.uniqueViolation "api_keys_key_hash_unique"))
  else do
    modify fun a => { a with apiKeys := a.apiKeys ++ [key] }
    recordAuditEvent (keyCreatedEvent key actorUserId) e.now
    return key

/-- The keys after an `UPDATE` of one that is not revoked. -/
def revokeKey (apiKeyId : Uuid) (now : Date) (apiKeys : List KeyRow) : List KeyRow :=
  apiKeys.map fun k =>
    if k.id = apiKeyId ∧ k.revokedAt = none then { k with revokedAt := some now.timestamp } else k

/-- The `UPDATE` of `revokeApiKeyById`, and its audit event; whether a key was revoked. -/
def revokeApiKeyById (e : Chance) (apiKeyId : Uuid) (actorUserId : Option Uuid) : Work Bool := do
  let a ← get
  match a.apiKeys.find? fun k => k.id = apiKeyId ∧ k.revokedAt = none with
  | none => return false
  | some key => do
      modify fun a => { a with apiKeys := revokeKey apiKeyId e.now a.apiKeys }
      recordAuditEvent (keyRevokedEvent key actorUserId) e.now
      return true

/-- `touchApiKeyLastUsed` -/
def touchApiKeyLastUsed (e : Chance) (apiKeyId : Uuid) : Work Unit :=
  modify fun a => { a with
    apiKeys := a.apiKeys.map fun k =>
      if k.id = apiKeyId then { k with lastUsedAt := some e.now.timestamp } else k }

/-- The `INSERT` of `createInvoiceRequest`, and its audit event. -/
def createInvoiceRequest (e : Chance) (orgId userId : Uuid) (planCode : String) :
    Work InvoiceRequest := do
  let a ← get
  let request : InvoiceRequest := ⟨e.rowId, orgId, userId, planCode, e.dbNow⟩
  if ∃ r ∈ a.invoiceRequests, r.id = request.id then
    throw (.refused (.uniqueViolation "invoice_requests_pkey"))
  else do
    modify fun a => { a with invoiceRequests := a.invoiceRequests ++ [request] }
    recordAuditEvent (invoiceRequestedEvent request) e.clock
    return request

/-! ## What a transaction commits -/

theorem signupOrgWithAdmin_commits {e : Chance} {orgName email : JsString} {passwordHash : String}
    {b : Accounts} {ids : Uuid × Uuid}
    (commits : Txn.Commits (signupOrgWithAdmin e orgName email passwordHash) a ids b) :
    ids = (e.orgId, e.userId) ∧ (∀ o ∈ a.organizations, o.id ≠ e.orgId) ∧
      (∀ u ∈ a.users, u.id ≠ e.userId) ∧
      b = ((a.withSignup e orgName email passwordHash).logged
        (orgCreatedEvent e.orgId e.userId) e.now).logged
          (userCreatedEvent e.orgId e.userId) e.now := by
  simp only [signupOrgWithAdmin, recordAuditEvent, Txn.commits_bind, Txn.commits_get,
    Txn.commits_ite, Txn.commits_throw, and_false, false_or, Txn.commits_modify,
    Txn.commits_pure] at commits
  obtain ⟨_, _, ⟨rfl, rfl⟩, -, org, user, -, _, _, rfl, _, _, rfl, _, _, rfl, rfl, rfl⟩ := commits
  exact ⟨rfl, fun o member same => org ⟨o, member, same⟩,
    fun u member same => user ⟨u, member, same⟩, rfl⟩

theorem enrollMfa_commits {p : AccountPlatform} {e : Chance} {userId : Uuid} {a b : Accounts}
    (commits : Txn.Commits (enrollMfa p e userId) a () b) :
    ∃ user, a.getUserById userId = some user ∧
      b = ({ a with
        users := setUser userId (·.enrollMfa p.toMfaPlatform e.mfa) a.users }).logged
          (mfaEnrolledEvent user.toUserRow) e.now := by
  simp only [enrollMfa, Txn.commits_bind, Txn.commits_get] at commits
  obtain ⟨_, _, ⟨rfl, rfl⟩, rest⟩ := commits
  split at rest
  · simp only [Txn.commits_throw] at rest
  · rename_i user found
    simp only [recordAuditEvent, Txn.commits_bind, Txn.commits_modify] at rest
    obtain ⟨_, _, rfl, rfl⟩ := rest
    exact ⟨user, found, rfl⟩

theorem consumeRecoveryCode_commits {p : AccountPlatform} {e : Chance} {userId : Uuid}
    {code : JsString} {a b : Accounts} {consumed : Bool}
    (commits : Txn.Commits (consumeRecoveryCode p e userId code) a consumed b) :
    consumed = false ∧ b = a ∨
    consumed = true ∧ ∃ user, a.getUserById userId = some user ∧
      p.sha256Hex code ∈ user.mfaRecoveryCodes ∧
      b = ({ a with
        users := setUser userId
          (·.consumeRecoveryCode p.toMfaPlatform user.mfaRecoveryCodes code) a.users }).logged
          (recoveryCodeUsedEvent user.toUserRow) e.now := by
  simp only [consumeRecoveryCode, Txn.commits_bind, Txn.commits_get] at commits
  obtain ⟨_, _, ⟨rfl, rfl⟩, rest⟩ := commits
  split at rest
  · obtain ⟨rfl, rfl⟩ := (Txn.commits_pure _ _ _ _).1 rest
    exact .inl ⟨rfl, rfl⟩
  · rename_i user found
    simp only [recordAuditEvent, Txn.commits_ite, Txn.commits_bind, Txn.commits_modify,
      Txn.commits_pure] at rest
    obtain ⟨-, rfl, rfl⟩ | ⟨there, _, _, rfl, _, _, rfl, rfl, rfl⟩ := rest
    · exact .inl ⟨rfl, rfl⟩
    · exact .inr ⟨rfl, user, found, not_not.1 there, rfl⟩

theorem updateOrgSettings_commits {e : Chance} {orgId actorUserId : Uuid} {name : Option JsString}
    {retentionDays : Option Int} {a b : Accounts} {updated : Bool}
    (commits : Txn.Commits (updateOrgSettings e orgId actorUserId name retentionDays) a updated b) :
    b = a ∨ ∃ fields, b = ({ a with
        organizations := setOrganization orgId (fun o => { o with
          name := name.getD o.name
          retentionDays := retentionDays.getD o.retentionDays }) a.organizations }).logged
        (settingsEvent orgId actorUserId fields) e.now := by
  simp only [updateOrgSettings, Txn.commits_bind, Txn.commits_get, Txn.commits_ite,
    Txn.commits_throw, and_false, false_or] at commits
  obtain ⟨_, _, ⟨rfl, rfl⟩, -, -, rest⟩ := commits
  split at rest
  · exact .inl ((Txn.commits_pure _ _ _ _).1 rest).2
  · simp only [recordAuditEvent, Txn.commits_bind, Txn.commits_modify, Txn.commits_pure] at rest
    obtain ⟨_, _, rfl, _, _, rfl, -, rfl⟩ := rest
    exact .inr ⟨_, rfl⟩

theorem softDeleteOrganization_commits {e : Chance} {orgId actorUserId : Uuid} {a b : Accounts}
    {deleted : Bool}
    (commits : Txn.Commits (softDeleteOrganization e orgId actorUserId) a deleted b) :
    b = a ∨ b = ({ a with
        organizations := setOrganization orgId (fun o => { o with
          deletedAt := some e.now.timestamp }) a.organizations }).logged
        (softDeleteEvent orgId actorUserId) e.now := by
  simp only [softDeleteOrganization, Txn.commits_bind, Txn.commits_get] at commits
  obtain ⟨_, _, ⟨rfl, rfl⟩, rest⟩ := commits
  split at rest
  · exact .inl ((Txn.commits_pure _ _ _ _).1 rest).2
  · simp only [recordAuditEvent, Txn.commits_bind, Txn.commits_modify, Txn.commits_pure] at rest
    obtain ⟨_, _, rfl, _, _, rfl, -, rfl⟩ := rest
    exact .inr rfl

theorem createApiKeyForOrg_commits {p : AccountPlatform} {e : Chance} {orgId : Uuid}
    {name : JsString} {actorUserId : Option Uuid} {a b : Accounts} {key : KeyRow}
    (commits : Txn.Commits (createApiKeyForOrg p e orgId name actorUserId) a key b) :
    key = newKey p e orgId name ∧ (∀ k ∈ a.apiKeys, k.id ≠ key.id) ∧
      (∀ k ∈ a.apiKeys, k.keyHash ≠ key.keyHash) ∧
      b = ({ a with apiKeys := a.apiKeys ++ [key] }).logged (keyCreatedEvent key actorUserId)
        e.now := by
  simp only [createApiKeyForOrg, recordAuditEvent, Txn.commits_bind, Txn.commits_get,
    Txn.commits_ite, Txn.commits_throw, and_false, false_or, Txn.commits_modify,
    Txn.commits_pure] at commits
  obtain ⟨_, _, ⟨rfl, rfl⟩, -, id, hash, _, _, rfl, _, _, rfl, rfl, rfl⟩ := commits
  exact ⟨rfl, fun k member same => id ⟨k, member, same⟩,
    fun k member same => hash ⟨k, member, same⟩, rfl⟩

theorem revokeApiKeyById_commits {e : Chance} {apiKeyId : Uuid} {actorUserId : Option Uuid}
    {a b : Accounts} {revoked : Bool}
    (commits : Txn.Commits (revokeApiKeyById e apiKeyId actorUserId) a revoked b) :
    revoked = false ∧ b = a ∨
    revoked = true ∧ ∃ key ∈ a.apiKeys, key.id = apiKeyId ∧ key.revokedAt = none ∧
      b = ({ a with apiKeys := revokeKey apiKeyId e.now a.apiKeys }).logged
        (keyRevokedEvent key actorUserId) e.now := by
  simp only [revokeApiKeyById, Txn.commits_bind, Txn.commits_get] at commits
  obtain ⟨_, _, ⟨rfl, rfl⟩, rest⟩ := commits
  split at rest
  · obtain ⟨rfl, rfl⟩ := (Txn.commits_pure _ _ _ _).1 rest
    exact .inl ⟨rfl, rfl⟩
  · rename_i key found
    have is := List.find?_some found
    rw [decide_eq_true_eq] at is
    simp only [recordAuditEvent, Txn.commits_bind, Txn.commits_modify, Txn.commits_pure] at rest
    obtain ⟨_, _, rfl, _, _, rfl, rfl, rfl⟩ := rest
    exact .inr ⟨rfl, key, List.mem_of_find?_eq_some found, is.1, is.2, rfl⟩

theorem createInvoiceRequest_commits {e : Chance} {orgId userId : Uuid} {planCode : String}
    {a b : Accounts} {request : InvoiceRequest}
    (commits : Txn.Commits (createInvoiceRequest e orgId userId planCode) a request b) :
    request.orgId = orgId ∧ request.requestedByUserId = userId ∧
      b = ({ a with invoiceRequests := a.invoiceRequests ++ [request] }).logged
        (invoiceRequestedEvent request) e.clock := by
  simp only [createInvoiceRequest, recordAuditEvent, Txn.commits_bind, Txn.commits_get,
    Txn.commits_ite, Txn.commits_throw, and_false, false_or, Txn.commits_modify,
    Txn.commits_pure] at commits
  obtain ⟨_, _, ⟨rfl, rfl⟩, -, _, _, rfl, _, _, rfl, rfl, rfl⟩ := commits
  exact ⟨rfl, rfl, rfl⟩

end Accounts

end Tozalist.Api
