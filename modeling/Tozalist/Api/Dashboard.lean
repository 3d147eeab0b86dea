/-
# Tozalist.Api.Dashboard -- sessions and account routes

`apps/api/src/internal/session.ts`, the account routes of `internal/routes.ts`, the invoice
request of `internal/billing.ts`, the operators' `cli/create-key.ts` and `cli/revoke-key.ts`, and
the key check of `plugins/auth.ts`, statement by statement on the tables of `Api.Accounts`.

A session is sealed into a cookie and read back from it; nobody else can seal one.  So what a
request presents is a session that some reply has set, or nothing (`Admitted`).  Requests here
have passed the schema of their routes, and a reply is what the rendered answer is made of.
-/
import Tozalist.Api.Accounts
import Tozalist.Js.Base64
import Tozalist.Theory.Interleaving

namespace Tozalist.Api.Dashboard

set_option autoImplicit false

open Db
open Theory (Request Txn)

/-! ## Requests and replies -/

/-- `Plan` -/
structure Plan where
  code : String
  priceUzs : ℕ
  checks : ℕ
  deriving DecidableEq, Repr

/-- `PLANS` -/
def plans : List Plan :=
  [⟨"PILOT", 500000, 10000⟩, ⟨"TEAM", 1500000, 50000⟩, ⟨"API", 3500000, 200000⟩]

/-- `getPlan` -/
def getPlan (code : JsString) : Option Plan := plans.find? fun plan => Js.ofString plan.code = code

/-- What a request asks for: a route of the dashboard with its body, a command of an operator,
or an API request that shows a key. -/
inductive Ask where
  | signup (orgName email password : JsString)
  | login (email password : JsString)
  | logout
  | enroll
  | verify (code : JsString)
  | me
  | keys
  | createKey (name : JsString)
  | revokeKey (id : Uuid)
  | settings
  | updateSettings (orgName : Option JsString) (retentionDays : Option Int)
  | deleteOrg (confirmName : JsString)
  | requestInvoice (plan : JsString)
  | createKeyCommand (org : Uuid) (name : JsString)
  | revokeKeyCommand (keyId : Uuid)
  | authenticate (authorization : Authorization) (requestId route : String)
  deriving DecidableEq

/-- A request, with what `readSession` finds in its cookie and its `x-csrf-token`. -/
structure Arrival where
  caller : DashboardCaller
  ask : Ask
  deriving DecidableEq

/-- What a reply does with the session cookie. -/
inductive CookieChange where
  | keep
  /-- `writeSession` -/
  | seal (session : SessionData)
  /-- `clearSession` -/
  | clear
  deriving DecidableEq

/-- What the answer is rendered from. -/
inductive Body where
  | error (code : ErrorCode) (message : String)
  | signedUp (csrfToken : String)
  | loggedIn (mfaRequired mfaSetupRequired : Bool) (csrfToken : String)
  | loggedOut
  | enrolled (otpauthUri secret : JsString) (recoveryCodes : List JsString)
  | mfaVerified
  | me (user : Account) (orgName : JsString) (session : SessionData)
  | keys (keys : List KeyRow)
  | keyCreated (keyId : Uuid) (keyPrefix plaintext : JsString)
  | keyRevoked (revoked alreadyRevoked : Bool)
  | settings (orgName : JsString) (retentionDays : Int)
  | updated
  | deleted
  | invoice (requestId : Uuid) (plan : Plan) (bankDetails : JsString)
  /-- how a command exits, and what it says -/
  | exited (code : ℕ) (line : String)
  | keyPrinted (keyId orgId : Uuid) (keyPrefix plaintext : JsString)
  | authenticated (key : AuthenticatedKey)
  deriving DecidableEq

structure Reply where
  body : Body
  cookie : CookieChange := .keep
  deriving DecidableEq

/-- The sessions that requests present are sealed. -/
def Admitted (given : List Reply) (q : Arrival) : Prop :=
  ∀ session ∈ q.caller.session, ∃ r ∈ given, r.cookie = .seal session

instance (given : List Reply) (q : Arrival) : Decidable (Admitted given q) :=
  inferInstanceAs (Decidable (∀ _ ∈ _, _))

/-! ## Statements -/

/-- A part of a route. -/
abbrev Route (α : Type) : Type := Request (Accounts × Chance) Accounts Reply α

/-- `sendError`, with a message. -/
def refuseWith {α : Type} (code : ErrorCode) (message : String) : Route α :=
  .reply { body := .error code message }

/-- `sendError`, with the default message. -/
def refuse {α : Type} (code : ErrorCode) : Route α := refuseWith code code.defaultMessage

/-- The reply of the error handler, where the cookie may have been set before. -/
def internalError (cookie : CookieChange) : Reply :=
  ⟨.error .internalError ErrorCode.internalError.defaultMessage, cookie⟩

/-- A query with a text in it; PostgreSQL takes no NUL. -/
def selectBy {α : Type} (text : JsString) (read : Accounts → Chance → α) : Route α :=
  Request.perform fun m =>
    if m.2.delivery = .answered ∧ Storable text then (.ok (read m.1 m.2), m.1)
    else (.error (internalError .keep), m.1)

/-- A query. -/
def select {α : Type} (read : Accounts → Chance → α) : Route α := selectBy [] read

/-- A transaction. -/
def transact {α : Type} (cookie : CookieChange) (body : Chance → Work α) : Route α :=
  Request.perform fun m =>
    match Txn.attempt m.2.delivery (body m.2) m.1 with
    | (some a, after) => (.ok a, after)
    | (none, after) => (.error (internalError cookie), after)

/-- `newCsrfToken` -/
def newCsrfToken (bytes : List UInt8) : String := Js.base64url bytes

/-- `requireSession` of `routes.ts`. -/
def requireSession (caller : DashboardCaller) (mfa csrf : Bool) : Route SessionData :=
  match caller.session with
  | none => refuse .unauthorized
  | some session => do
      match ← select fun a _ => a.getOrgSettings session.orgId with
      | none => .reply ⟨.error .unauthorized ErrorCode.unauthorized.defaultMessage, .clear⟩
      | some _ =>
          if mfa = true ∧ session.mfaVerified = false then
            refuseWith .unauthorized "Multi-factor verification is required."
          else if csrf = true ∧ caller.csrf ≠ some session.csrfToken then
            refuseWith .unauthorized "The request is missing a valid CSRF token."
          else return session

/-- `requireSession` and the check of the role. -/
def requireAdmin (caller : DashboardCaller) : Route SessionData := do
  let session ← requireSession caller true true
  if session.role ≠ .admin then refuse .unauthorized else return session

/-- `requireSession` of `billing.ts`. -/
def requireBillingSession (caller : DashboardCaller) (csrf admin : Bool) : Route SessionData :=
  match caller.session with
  | none => refuse .unauthorized
  | some session =>
      if session.mfaVerified = false then refuse .unauthorized
      else do
        match ← select fun a _ => a.getOrgSettings session.orgId with
        | none => refuse .unauthorized
        | some _ =>
            if csrf = true ∧ caller.csrf ≠ some session.csrfToken then
              refuseWith .unauthorized "The request is missing a valid CSRF token."
            else if admin = true ∧ session.role ≠ .admin then refuse .unauthorized
            else return session

/-! ## Routes -/

section Routes

variable (p : AccountPlatform) (caller : DashboardCaller)

/-- `POST /internal/signup` -/
def signup (orgName email password : JsString) : Route Reply := do
  let orgName := Js.trim orgName
  let email := p.toLowerCase (Js.trim email)
  let (taken, hashed) ← selectBy email fun a e =>
    (a.emailTaken email, hashPassword p e.passwordSalt password)
  match hashed with
  | .error _ => .reply (internalError .keep)
  | .ok passwordHash =>
      if taken = true then
        refuseWith .validationError "This email address is already registered."
      else do
        let (orgId, userId, csrfBytes) ← transact .keep fun e => do
          let (orgId, userId) ← Accounts.signupOrgWithAdmin e orgName email passwordHash
          return (orgId, userId, e.csrfBytes)
        let session : SessionData := ⟨userId, orgId, .admin, false, newCsrfToken csrfBytes⟩
        return ⟨.signedUp session.csrfToken, .seal session⟩

/-- The one message for every failure of a login. -/
def rejected : Route Reply := refuseWith .unauthorized "The email or password is incorrect."

/-- `POST /internal/login` -/
def login (email password : JsString) : Route Reply := do
  let email := p.toLowerCase (Js.trim email)
  let (found, csrfBytes) ← selectBy email fun a e => (a.findUserForLogin email, e.csrfBytes)
  match found with
  | none => rejected
  | some (user, orgDeletedAt) =>
      if orgDeletedAt ≠ none then rejected
      else if p.argon2Verify user.passwordHash password = false then rejected
      else do
        let session : SessionData := ⟨user.id, user.orgId, user.role, false, newCsrfToken csrfBytes⟩
        -- the cookie is set before the event is written
        transact (.seal session) fun e => Accounts.recordAuditEvent (loginEvent user) e.now
        return ⟨.loggedIn user.mfaSecret.isSome (user.mfaSecret.isNone && user.role == .admin)
          session.csrfToken, .seal session⟩

/-- `POST /internal/logout` -/
def logout : Route Reply := do
  let session ← requireSession caller false true
  transact .keep fun e => Accounts.recordAuditEvent (logoutEvent session) e.now
  return ⟨.loggedOut, .clear⟩

/-- `POST /internal/mfa/enroll` -/
def enroll : Route Reply := do
  let session ← requireSession caller false true
  match ← select fun a _ => a.getUserById session.userId with
  | none => refuse .unauthorized
  | some user =>
      if user.mfaSecret ≠ none then
        refuseWith .validationError "Multi-factor auth is already enrolled."
      else do
        let draw ← transact .keep fun e => do
          Accounts.enrollMfa p e user.id
          return e.mfa
        return ⟨.enrolled (totpUri p.encodeURIComponent draw.secret user.email) draw.secret
          draw.recoveryCodes, .keep⟩

/-- How `code` is accepted: as a one-time code, or else as a recovery code. -/
def acceptedAs (user : Account) (code : JsString) (clock : Date) (secret : JsString) :
    Route (Option MfaMethod) :=
  match verifyTotp p.toUpperCase p.hmacSha1 secret code clock with
  | .error _ => .reply (internalError .keep)
  | .ok true => return some .totp
  | .ok false => do
      if ← transact .keep fun e => Accounts.consumeRecoveryCode p e user.id code then
        return some .recoveryCode
      else return none

/-- `POST /internal/mfa/verify` -/
def verify (code : JsString) : Route Reply := do
  let session ← requireSession caller false true
  let (found, clock) ← select fun a e => (a.getUserById session.userId, e.clock)
  match found with
  | none => refuseWith .validationError "Multi-factor auth is not enrolled."
  | some user =>
      match user.mfaSecret with
      | none => refuseWith .validationError "Multi-factor auth is not enrolled."
      | some secret =>
          match ← acceptedAs p user (Js.trim code) clock secret with
          | none => refuseWith .unauthorized "The verification code is not valid."
          | some method => do
              transact .keep fun e => Accounts.recordAuditEvent
                (mfaVerifiedEvent { user.toUserRow with orgId := session.orgId } method) e.now
              return ⟨.mfaVerified, .seal { session with mfaVerified := true }⟩

/-- `GET /internal/me` -/
def me : Route Reply := do
  let session ← requireSession caller false false
  match ← select fun a _ => a.getUserById session.userId with
  | none => refuse .unauthorized
  | some user =>
      match ← select fun a _ => a.getOrgSettings user.orgId with
      | none => refuse .unauthorized
      | some org => return { body := .me user org.name session }

/-- `GET /internal/keys` -/
def keys : Route Reply := do
  let session ← requireSession caller true false
  let keys ← select fun a _ => a.listApiKeysForOrg session.orgId
  return { body := .keys keys }

/-- `POST /internal/keys` -/
def createKey (name : JsString) : Route Reply := do
  let session ← requireAdmin caller
  match ← select fun a _ => a.createApiKeyRefusal session.orgId with
  | some _ => refuse .validationError
  | none => do
      let (key, plaintext) ← transact .keep fun e => do
        let key ← Accounts.createApiKeyForOrg p e session.orgId (Js.trim name) (some session.userId)
        return (key, (e.apiKey p).plaintext)
      return { body := .keyCreated key.id key.keyPrefix plaintext }

/-- `revokeApiKeyById`: whether it revoked the key, and whether there is one. -/
def revoke (keyId : Uuid) (actorUserId : Option Uuid) : Route (Bool × Bool) := do
  if ← transact .keep fun e => Accounts.revokeApiKeyById e keyId actorUserId then
    return (true, true)
  else do
    let existing ← select fun a _ => a.apiKeys.any fun k => k.id = keyId
    return (false, existing)

/-- `POST /internal/keys/:id/revoke` -/
def revokeKey (id : Uuid) : Route Reply := do
  let session ← requireAdmin caller
  let keys ← select fun a _ => a.listApiKeysForOrg session.orgId
  if ∃ key ∈ keys, key.id = id then do
    let (revoked, existing) ← revoke id (some session.userId)
    return { body := .keyRevoked revoked (!revoked && existing) }
  else refuse .notFound

/-- `GET /internal/settings` -/
def settings : Route Reply := do
  let session ← requireSession caller true false
  match ← select fun a _ => a.getOrgSettings session.orgId with
  | none => refuse .unauthorized
  | some org => return { body := .settings org.name org.retentionDays }

/-- `RETENTION_CHOICES` -/
def retentionChoices : List Int := [7, 30, 90]

/-- `POST /internal/settings` -/
def updateSettings (orgName : Option JsString) (retentionDays : Option Int) : Route Reply := do
  let session ← requireAdmin caller
  if ∃ days ∈ retentionDays, days ∉ retentionChoices then
    refuseWith .validationError "Retention must be 7, 30, or 90 days."
  else do
    if ← transact .keep fun e => Accounts.updateOrgSettings e session.orgId session.userId
        (orgName.map Js.trim) retentionDays then
      return { body := .updated }
    else refuse .unauthorized

/-- `POST /internal/org/delete` -/
def deleteOrg (confirmName : JsString) : Route Reply := do
  let session ← requireAdmin caller
  match ← select fun a _ => a.getOrgSettings session.orgId with
  | none => refuse .unauthorized
  | some org =>
      if confirmName ≠ org.name then
        refuseWith .validationError "The confirmation name does not match."
      else do
        -- what it answers is not looked at
        let _ ← transact .keep fun e =>
          Accounts.softDeleteOrganization e session.orgId session.userId
        return ⟨.deleted, .clear⟩

/-- `POST /internal/billing/invoice-request` -/
def requestInvoice (bankDetails : Option JsString) (plan : JsString) : Route Reply := do
  let session ← requireBillingSession caller true true
  match getPlan plan with
  | none => refuseWith .validationError "Unknown plan."
  | some plan =>
      match bankDetails.filter fun details => Js.trim details ≠ [] with
      | none => refuse .internalError
      | some details =>
          match ← select fun a _ => a.getUserById session.userId with
          | none => refuse .unauthorized
          | some _ =>
              match ← select fun a _ => a.getOrgSettings session.orgId with
              | none => refuse .unauthorized
              | some _ => do
                  let request ← transact .keep fun e =>
                    Accounts.createInvoiceRequest e session.orgId session.userId plan.code
                  return { body := .invoice request.id plan details }

/-- `createKeyCommand` -/
def createKeyCommand (org : Uuid) (name : JsString) : Route Reply :=
  if Js.trim name = [] then return { body := .exited 2 "error: --name is required" }
  else do
    match ← select fun a _ => a.createApiKeyRefusal org with
    | some reason => return { body := .exited 1 (if reason = "org_not_found" then
        "error: organization not found" else "error: organization is deleted") }
    | none => do
        let (key, plaintext) ← transact .keep fun e => do
          let key ← Accounts.createApiKeyForOrg p e org (Js.trim name) none
          return (key, (e.apiKey p).plaintext)
        return { body := .keyPrinted key.id key.orgId key.keyPrefix plaintext }

/-- `revokeKeyCommand` -/
def revokeKeyCommand (keyId : Uuid) : Route Reply := do
  let (revoked, existing) ← revoke keyId none
  return { body :=
    if revoked then .exited 0 ("API key " ++ keyId.text ++ " revoked")
    else if existing then
      .exited 0 ("API key " ++ keyId.text ++ " was already revoked; nothing changed")
    else .exited 1 "error: API key not found" }

/-- `auditFailure`, and what is sent then. -/
def auditFailure (requestId route category : String) : Route Reply := do
  transact .keep fun e => Accounts.recordAuditEvent (authFailedEvent requestId route category) e.now
  refuse .unauthorized

/-- The `preHandler` of `plugins/auth.ts`. -/
def authenticate (authorization : Authorization) (requestId route : String) : Route Reply :=
  match authorization with
  | .missing => auditFailure requestId route "missing_header"
  | .malformed => auditFailure requestId route "malformed_header"
  | .bearer token => do
      let (lookup, marker) ← select fun a e =>
        (a.findActiveApiKeyByHash (p.sha256Hex token) e.now, e.lastUsedMarker)
      match lookup with
      | .error reason => auditFailure requestId route reason.text
      | .ok key => do
          if marker = true then transact .keep fun e => Accounts.touchApiKeyLastUsed e key.apiKeyId
          return { body := .authenticated key }

/-- What is done for a request; `bankDetails` is the configuration's. -/
def handler (bankDetails : Option JsString) (q : Arrival) : Route Reply :=
  match q.ask with
  | .signup orgName email password => signup p orgName email password
  | .login email password => login p email password
  | .logout => logout q.caller
  | .enroll => enroll p q.caller
  | .verify code => verify p q.caller code
  | .me => me q.caller
  | .keys => keys q.caller
  | .createKey name => createKey p q.caller name
  | .revokeKey id => revokeKey q.caller id
  | .settings => settings q.caller
  | .updateSettings orgName retentionDays => updateSettings q.caller orgName retentionDays
  | .deleteOrg confirmName => deleteOrg q.caller confirmName
  | .requestInvoice plan => requestInvoice q.caller bankDetails plan
  | .createKeyCommand org name => createKeyCommand p org name
  | .revokeKeyCommand keyId => revokeKeyCommand keyId
  | .authenticate authorization requestId route => authenticate p authorization requestId route

end Routes

end Tozalist.Api.Dashboard
