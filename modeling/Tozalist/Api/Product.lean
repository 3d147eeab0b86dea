/-
# Tozalist.Api.Product -- the product routes

The handlers of the product API, statement by statement: the `/v1` routes of
`apps/api/src/routes` behind the key check of `plugins/auth.ts`, and the `/internal` routes for
checks, batches and usage of `internal/product.ts` and `internal/routes.ts` behind
`requireVerified` and `requireSession`.  Both share `performEmailCheck` and `performPhoneCheck`
of `check-service.ts` and the helpers of the database.

A request is `Theory.Serving` on the tables: others may write between two of its statements.
What comes from elsewhere (Redis, the engine, the queues, the object storage) is a parameter,
`Surroundings`.  A request here has passed the schema of its route, and a reply is what the
rendered answer is made of.
-/
import Tozalist.Api.CheckService
import Tozalist.Api.CsvInspect
import Tozalist.Db.Access
import Tozalist.Db.Statements
import Tozalist.Shared.ObjectStorage
import Tozalist.Theory.Serving

namespace Tozalist.Api

set_option autoImplicit false

open Core (EngineResponse ReasonCode normalizeEmail)
open Db
open Shared (batchInputKey)
open Theory (Serving Statement Txn)
open Worker (Record aggregated batchResultKey emptyStats typoOf)

/-! ## Replies -/

/-- `ErrorCode`. -/
inductive ErrorCode where
  | validationError
  | unauthorized
  | insufficientCredits
  | notFound
  | conflict
  | payloadTooLarge
  | rateLimited
  | internalError
  deriving DecidableEq, Repr

/-- `DEFAULT_MESSAGES`. -/
def ErrorCode.defaultMessage : ErrorCode → String
  | .validationError => "The request is invalid."
  | .unauthorized => "Authentication is required."
  | .insufficientCredits => "Not enough credits to perform this operation."
  | .notFound => "The requested resource does not exist."
  | .conflict => "The resource is in a state that does not allow this operation."
  | .payloadTooLarge => "The request body is too large."
  | .rateLimited => "Too many requests. Slow down and retry."
  | .internalError => "An internal error occurred."

/-- What the answer to a request is rendered from. -/
inductive ProductReply where
  | error (code : ErrorCode) (message : String)
  | emailCheck (check : EmailCheck) (snapshot : StoredEmailCheck) (creditsUsed : ℕ)
      (creditsRemaining : Int) (cached : Bool) (smtp : SmtpStatus)
  | phoneCheck (check : PhoneCheck) (creditsRemaining : Int)
  | checkDeleted (checkId : Uuid)
  | batchCreated (batchId : Uuid) (totalRows : ℕ) (creditsRemaining : Int)
  | batch (batch : Batch) (downloadUrl : Option String)
  | batches (page : BatchPage)
  | batchDeleted (batchId : Uuid)
  | usageSummary (summary : UsageSummary)
  | usage (balance : Int) (ledger : List RunningEntry) (checksPerDay : List DayCount)
  | wiped (result : CheckDataWipeResult)
  /-- an answer about webhook endpoints -/
  | webhooks
  deriving DecidableEq

/-- `sendError`, with the default message. -/
def sendError (code : ErrorCode) : ProductReply := .error code code.defaultMessage

/-! ## Statements -/

/-- The tables that requests touch. -/
structure Store where
  db : Database
  apiKeys : List ApiKeyRow

/-- What a statement finds: the tables, the clock of the process, and what PostgreSQL and
`randomUUID` supply. -/
structure Moment extends Store where
  now : Date
  draw : Draw

/-- A part of a handler. -/
abbrev Handler (α : Type) : Type := Serving Moment Store ProductReply α

/-- What an exception of a statement becomes: a rejected query ends in the error handler. -/
def orInternalError {ε α : Type} : Except ε α → Except ProductReply α
  | .ok a => .ok a
  | .error _ => .error (sendError .internalError)

/-- A query. -/
def query {ε α : Type} (read : Moment → Except ε α) : Handler α :=
  Serving.statement fun m => (orInternalError (read m), m.toStore)

/-- A query that cannot fail. -/
def select {α : Type} (read : Moment → α) : Handler α :=
  Serving.statement fun m => (.ok (read m), m.toStore)

/-- A transaction. -/
def transact {α : Type} (body : Moment → Tx α) : Handler α :=
  Serving.statement fun m =>
    (orInternalError (Txn.transaction (body m) m.db).1,
      { m.toStore with db := (Txn.transaction (body m) m.db).2 })

/-- `recordAuditEvent`, outside of a transaction. -/
def audit (event : AuditEventInput) : Handler Unit :=
  transact fun m => recordAuditEvent event m.draw m.now

/-! ## What is outside -/

/-- What `validatePhone` finds. -/
structure PhoneResult where
  e164 : Option String
  valid : Bool
  country : Option String
  lineTypeGuess : Option String
  reasonCodes : List ReasonCode

/-- Everything outside of the process and its database, as a request meets it. -/
structure Surroundings where
  sha256Hex : JsString → String
  toLowerCase : JsString → JsString
  validatePhone : JsString → JsString → PhoneResult
  /-- `created_at::text` in the session -/
  timeText : Timestamp → String
  /-- what is read in a cursor -/
  cursors : CursorReader
  /-- the hint of the balance cache -/
  cachedBalance : Option Int
  /-- `engine.verify`; `none` when it throws -/
  engine : JsString → Option EngineResponse
  smtpEnabled : Bool
  /-- whether the queues take a job -/
  smtpQueue : Bool
  batchQueue : Bool
  /-- whether the storage deletes what it is told to -/
  deleteObjects : List String → Bool
  /-- `presignDownload`; `none` when it throws -/
  presignDownload : String → Option String
  /-- the marker of the `last_used_at` throttle was free -/
  lastUsedMarker : Bool
  /-- how the rate limit refuses the request -/
  rateLimit : Option ErrorCode

variable (env : Surroundings)

/-! ## Who asks -/

/-- `SessionData`'s `role`. -/
inductive Role where
  | admin
  | member
  deriving DecidableEq, Repr

/-- `SessionData`. -/
structure SessionData where
  userId : Uuid
  orgId : Uuid
  role : Role
  mfaVerified : Bool
  csrfToken : String
  deriving DecidableEq, Repr

/-- What a request to `/internal` carries: what `readSession` finds in its cookie, and its
`x-csrf-token`. -/
structure DashboardCaller where
  session : Option SessionData
  csrf : Option String
  deriving DecidableEq, Repr

/-- `requireVerified`. -/
def requireVerified (caller : DashboardCaller) (csrf : Bool) : Handler SessionData :=
  match caller.session with
  | none => throw (sendError .unauthorized)
  | some session =>
      if session.mfaVerified = false then throw (sendError .unauthorized)
      else if csrf = true ∧ caller.csrf ≠ some session.csrfToken then
        throw (.error .unauthorized "The request is missing a valid CSRF token.")
      else return session

/-- `requireSession` with `mfa` and `csrf`. -/
def requireSession (caller : DashboardCaller) : Handler SessionData :=
  match caller.session with
  | none => throw (sendError .unauthorized)
  | some session => do
      -- the cookie stays valid until it expires, so the organisation is asked for
      match ← select fun m => getOrgSettings m.db session.orgId with
      | none => throw (sendError .unauthorized)
      | some _ =>
          if session.mfaVerified = false then
            throw (.error .unauthorized "Multi-factor verification is required.")
          else if caller.csrf ≠ some session.csrfToken then
            throw (.error .unauthorized "The request is missing a valid CSRF token.")
          else return session

/-- The `Authorization` header: missing, malformed, or with a token. -/
inductive Authorization where
  | missing
  | malformed
  | bearer (token : JsString)
  deriving DecidableEq, Repr

/-- What a request to `/v1` carries, and where it goes. -/
structure ApiCaller where
  authorization : Authorization
  requestId : String
  route : String
  deriving DecidableEq, Repr

/-- `auditFailure`. -/
def auditFailure (caller : ApiCaller) (category : String) : Handler Unit :=
  audit
    { action := "api.auth_failed"
      targetType := "request"
      targetId := caller.requestId
      metadata := [("category", .text category), ("route", .text caller.route)] }

/-- The `preHandler` of `authPlugin`. -/
def authenticate (caller : ApiCaller) : Handler AuthenticatedKey :=
  match caller.authorization with
  | .missing => do
      auditFailure caller "missing_header"
      throw (sendError .unauthorized)
  | .malformed => do
      auditFailure caller "malformed_header"
      throw (sendError .unauthorized)
  | .bearer token => do
      match ← select fun m => findActiveApiKeyByHash m.db m.apiKeys (env.sha256Hex token) m.now with
      | .error reason => do
          auditFailure caller reason.text
          throw (sendError .unauthorized)
      | .ok key => do
          if env.lastUsedMarker then
            Serving.statement fun m => (.ok (),
              { m.toStore with apiKeys := touchApiKeyLastUsed m.apiKeys key.apiKeyId m.now })
          return key

/-- Both `preHandler`s of `/v1`: the key, then its rate limit. -/
def requireKey (caller : ApiCaller) : Handler AuthenticatedKey := do
  let key ← authenticate env caller
  match env.rateLimit with
  | some code => throw (sendError code)
  | none => return key

/-! ## Checks -/

/-- `currentBalance`. -/
def currentBalance (orgId : Uuid) : Handler Int :=
  match env.cachedBalance with
  | some balance => return balance
  | none => query fun m => getCreditBalance m.db orgId

/-- `EmailCheckOutcome`. -/
inductive EmailCheckOutcome where
  | insufficient
  | engineFailed
  | snapshotUnreadable
  | ok (check : EmailCheck) (snapshot : StoredEmailCheck) (creditsUsed : ℕ)
      (creditsRemaining : Int) (cached : Bool) (smtp : SmtpStatus)

/-- A probe is attached to a check: the snapshot is marked, and unmarked when the queue
throws. -/
def attachProbe (checkId : Uuid) (snapshot : StoredEmailCheck) : Handler SmtpStatus := do
  transact fun _ => updateEmailCheckSnapshot checkId (pendingSnapshot snapshot)
  if env.smtpQueue then return .pending
  else do
    transact fun _ => updateEmailCheckSnapshot checkId snapshot
    return snapshot.smtpStatus

/-- The part of `performEmailCheck` for a check that is found. -/
def cachedEmailCheck (orgId : Uuid) (smtp : Bool) (balance : Int) (row : EmailCheck) :
    Handler EmailCheckOutcome :=
  match row.checksJson with
  | none => return .snapshotUnreadable
  | some snapshot =>
      if smtp = true ∧ env.smtpEnabled = true ∧ snapshot.smtpStatus = .skipped then do
        let settings ← select fun m => getOrgSettings m.db orgId
        if settings.any (·.smtpEnabled) then do
          let status ← attachProbe env row.id snapshot
          return .ok row { snapshot with smtpStatus := status } 0 balance true status
        else return .ok row snapshot 0 balance true snapshot.smtpStatus
      else return .ok row snapshot 0 balance true snapshot.smtpStatus

/-- The snapshot of a check that the engine has answered. -/
def freshSnapshot (response : EngineResponse) : StoredEmailCheck :=
  { engine := response
    score := (aggregated env.toLowerCase response).score
    disclaimer := (aggregated env.toLowerCase response).disclaimer
    typo := typoOf env.toLowerCase response
    smtpStatus := .skipped
    operationalReason := none }

/-- What `performEmailCheck` inserts. -/
def freshEmailInput (orgId : Uuid) (normalized : JsString) (response : EngineResponse) :
    NewEmailCheckInput :=
  { orgId := orgId
    emailNormalized := normalized
    emailHash := env.sha256Hex normalized
    verdict := (aggregated env.toLowerCase response).verdict
    reasonCodes := (aggregated env.toLowerCase response).reasonCodes
    checksJson := freshSnapshot env response }

/-- The part of `performEmailCheck` for a check that is not found. -/
def freshEmailCheck (orgId : Uuid) (smtp : Bool) (normalized : JsString) :
    Handler EmailCheckOutcome :=
  match env.engine normalized with
  | none => return .engineFailed
  | some response => do
      match ← transact fun m =>
        createEmailCheckWithDebit (freshEmailInput env orgId normalized response) m.draw m.now with
      | .orgUnavailable => return .insufficient
      | .insufficient _ => return .insufficient
      | .cacheHit check balance =>
          match check.checksJson with
          | none => return .snapshotUnreadable
          | some snapshot => return .ok check snapshot 0 balance true snapshot.smtpStatus
      | .created check balance org =>
          let snapshot := freshSnapshot env response
          if smtp = true ∧ org.smtpEnabled = true ∧ env.smtpEnabled = true then do
            let status ← attachProbe env check.id snapshot
            return .ok check { snapshot with smtpStatus := status } 1 balance false status
          else return .ok check snapshot 1 balance false .skipped

/-- The address `performEmailCheck` looks for. -/
def checkedAddress (email : JsString) : JsString :=
  (normalizeEmail env.toLowerCase email).normalized.getD []

/-- The part of `performEmailCheck` behind the gate of the balance. -/
def coveredEmailCheck (orgId : Uuid) (email : JsString) (smtp : Bool) (balance : Int) :
    Handler EmailCheckOutcome := do
  match ← select fun m =>
    m.db.findRecentEmailCheck orgId (env.sha256Hex (checkedAddress env email)) m.now with
  | some row => cachedEmailCheck env orgId smtp balance row
  | none => freshEmailCheck env orgId smtp (checkedAddress env email)

/-- `performEmailCheck`. -/
def performEmailCheck (orgId : Uuid) (email : JsString) (smtp : Bool) :
    Handler EmailCheckOutcome := do
  let balance ← currentBalance env orgId
  if balance < 1 then return .insufficient
  else coveredEmailCheck env orgId email smtp balance

/-- What both routes answer with the outcome of an email check. -/
def EmailCheckOutcome.reply : EmailCheckOutcome → ProductReply
  | .insufficient => sendError .insufficientCredits
  | .engineFailed => sendError .internalError
  | .snapshotUnreadable => sendError .internalError
  | .ok check snapshot creditsUsed creditsRemaining cached smtp =>
      .emailCheck check snapshot creditsUsed creditsRemaining cached smtp

/-- What `performPhoneCheck` inserts. -/
def phoneInput (orgId : Uuid) (phone country : JsString) : NewPhoneCheckInput :=
  let result := env.validatePhone phone country
  { orgId := orgId
    e164 := result.e164
    inputHash := env.sha256Hex phone
    valid := result.valid
    country := result.country
    lineTypeGuess := result.lineTypeGuess
    reasonCodes := result.reasonCodes }

/-- `performPhoneCheck`, with what both routes answer; the country defaults to `UZ`. -/
def performPhoneCheck (orgId : Uuid) (phone : JsString) (country : Option JsString) :
    Handler ProductReply := do
  match ← transact fun m =>
    createPhoneCheckWithDebit (phoneInput env orgId phone (country.getD (Js.ofString "UZ")))
      m.draw m.now with
  | .orgUnavailable => return sendError .insufficientCredits
  | .insufficient _ => return sendError .insufficientCredits
  | .created check balance => return .phoneCheck check balance

/-! ## Batches -/

/-- What comes of the upload of a file. -/
inductive Upload where
  | missing
  /-- the storage or the inspection throws -/
  | failed
  | truncated
  | file (filename : String) (records : List Record)

/-- What is said of a file that is not accepted. -/
def RejectReason.message : RejectReason → String
  | .tooManyRows => "The file exceeds the maximum of 100000 rows."
  | .empty => "The file contains no data rows."
  | .noEmailColumn => "No email column could be detected."

/-- `deleteObjects`, where a failure of the storage is thrown. -/
def deleteUpload (keys : List String) : Handler Unit :=
  if env.deleteObjects keys then return ()
  else throw (sendError .internalError)

/-- The row that is asked for with a file. -/
def uploadInput (orgId batchId : Uuid) (filename : String) (emailColumn : ℕ) (hasHeader : Bool)
    (totalRows : ℕ) : CreateBatchInput :=
  { batchId := batchId
    orgId := orgId
    filename := if filename = "" then "upload.csv" else filename
    totalRows := totalRows
    inputObjectKey := batchInputKey orgId batchId
    stats := emptyStats emailColumn hasHeader }

/-- A batch is created, and its job enqueued. -/
def enqueueBatch (input : CreateBatchInput) : Handler ProductReply := do
  match ← transact fun m => createBatchWithReservation input m.draw m.now with
  | .orgUnavailable => do
      deleteUpload env [input.inputObjectKey]
      return sendError .unauthorized
  | .insufficient _ shortfall => do
      deleteUpload env [input.inputObjectKey]
      return .error .insufficientCredits
        ("Not enough credits for this batch: " ++ toString shortfall ++ " more needed.")
  | .created _ balance => do
      if env.batchQueue then return .batchCreated input.batchId input.totalRows balance
      else do
        -- the reservation must not survive a batch that can never run
        transact fun m =>
          failBatch ⟨input.batchId, input.orgId, input.totalRows, "queue_unavailable"⟩ m.draw
        return sendError .internalError

/-- The upload of a file by an organisation, under a new batch id. -/
def uploadBatch (orgId batchId : Uuid) (upload : Upload) : Handler ProductReply :=
  match upload with
  | .missing => return .error .validationError "A CSV file upload is required."
  | .failed => return sendError .internalError
  | .truncated => do
      deleteUpload env [batchInputKey orgId batchId]
      return sendError .payloadTooLarge
  | .file filename records =>
      match inspectCsv env.toLowerCase records with
      | .rejected reason => do
          deleteUpload env [batchInputKey orgId batchId]
          return .error .validationError reason.message
      | .ok emailColumn hasHeader totalRows =>
          enqueueBatch env (uploadInput orgId batchId filename emailColumn hasHeader totalRows)

/-- A batch, with a link to its result. -/
def showBatch (orgId id : Uuid) : Handler ProductReply := do
  match ← select fun m => getBatchForOrg m.db id orgId with
  | none => return sendError .notFound
  | some batch =>
      match batch.status, batch.resultObjectKey with
      | .done, some key =>
          match env.presignDownload key with
          | some url => return .batch batch (some url)
          | none => return sendError .internalError
      | _, _ => return .batch batch none

/-- A page of batches. -/
def listBatches (orgId : Uuid) (cursor : Option String) (limit : ℕ) : Handler ProductReply := do
  match ← query fun m => listBatchesForOrg env.cursors m.db orgId cursor limit with
  | none => return sendError .validationError
  | some page => return .batches page

/-- `BATCH_PROCESSING_DELETE_MESSAGE`. -/
def batchProcessingDeleteMessage : String :=
  "The batch is currently being processed and cannot be deleted. Retry once it has completed " ++
    "or failed."

/-- The objects that go with a batch. -/
def deletedKeys (orgId id : Uuid) (inputObjectKey : String) (resultObjectKey : Option String) :
    List String :=
  [inputObjectKey, resultObjectKey.getD (batchResultKey orgId id)]

/-- A batch is deleted: its row, then its objects, then an event. -/
def deleteBatch (orgId id : Uuid) (actorUserId actorApiKeyId : Option Uuid) :
    Handler ProductReply := do
  match ← transact fun m => deleteBatchForOrg id orgId m.draw with
  | .notFound => return sendError .notFound
  | .processing => return .error .conflict batchProcessingDeleteMessage
  | .deleted inputObjectKey resultObjectKey refunded => do
      audit
        { orgId := some orgId
          actorUserId := actorUserId
          actorApiKeyId := actorApiKeyId
          action := "batch.deleted"
          targetType := "batch"
          targetId := id.text
          metadata :=
            [("objects_deleted",
                .number (deletedKeys orgId id inputObjectKey resultObjectKey).length),
              ("credits_refunded", .number refunded)] }
      return .batchDeleted id

/-! ## Usage -/

/-- The ledger, the balance and the checks of thirty days. -/
def showUsage (orgId : Uuid) (from_ to_ : Option Date) : Handler ProductReply := do
  let balance ← query fun m => getCreditBalance m.db orgId
  let ledger ← query fun m => getLedgerWithRunningBalance env.timeText m.db orgId from_ to_ 200
  let perDay ← query fun m => getChecksPerDay m.db orgId 30 m.now
  return .usage balance ledger perDay

/-- The summary of `/v1/usage`. -/
def showUsageSummary (orgId : Uuid) (cursor : Option String) (limit : ℕ) :
    Handler ProductReply := do
  match ← query fun m => getUsageSummary env.cursors m.db orgId cursor limit m.now with
  | none => return sendError .validationError
  | some summary => return .usageSummary summary

/-! ## Routes -/

/-- The `limit` of a query: twenty without one, and between one and a hundred. -/
def pageLimit (limit : Option (Option Int)) : Option ℕ :=
  match limit with
  | none => some 20
  | some none => none
  | some (some n) => if 1 ≤ n ∧ n ≤ 100 then some n.toNat else none

/-- The routes of `/v1`. -/
inductive ApiRoute where
  | emailCheck (email : JsString) (smtp : Bool)
  | getEmailCheck (id : Uuid)
  | deleteEmailCheck (id : Uuid)
  | phoneCheck (phone : JsString) (country : Option JsString)
  | deletePhoneCheck (id : Uuid)
  | createBatch (batchId : Uuid) (upload : Upload)
  | getBatch (id : Uuid)
  | listBatches (cursor : Option String) (limit : Option (Option Int))
  | deleteBatch (id : Uuid)
  | usage (cursor : Option String) (limit : Option (Option Int))
  /-- whatever the handlers for webhook endpoints do -/
  | webhooks (handler : AuthenticatedKey → Handler ProductReply)

/-- The stored check, as a later `GET` shows it. -/
def showEmailCheck (orgId id : Uuid) : Handler ProductReply := do
  match ← select fun m => getEmailCheckForOrg m.db id orgId m.now with
  | none => return sendError .notFound
  | some check =>
      match check.checksJson with
      | none => return sendError .internalError
      | some snapshot => do
          let balance ← currentBalance env orgId
          return .emailCheck check snapshot 0 balance true snapshot.smtpStatus

/-- The deletion of a check by a key. -/
def deleteCheck (key : AuthenticatedKey) (id : Uuid) (targetType : String)
    (body : Moment → Tx Bool) : Handler ProductReply := do
  if ← transact body then
    audit
      { orgId := some key.orgId
        actorApiKeyId := some key.apiKeyId
        action := "check.deleted"
        targetType := targetType
        targetId := id.text }
    return .checkDeleted id
  else return sendError .notFound

/-- The handler of a route of `/v1`. -/
def apiHandler (key : AuthenticatedKey) : ApiRoute → Handler ProductReply
  | .emailCheck email smtp => EmailCheckOutcome.reply <$> performEmailCheck env key.orgId email smtp
  | .getEmailCheck id => showEmailCheck env key.orgId id
  | .deleteEmailCheck id =>
      deleteCheck key id "email_check" fun m => deleteEmailCheckForOrg id key.orgId m.now
  | .phoneCheck phone country => performPhoneCheck env key.orgId phone country
  | .deletePhoneCheck id =>
      deleteCheck key id "phone_check" fun m => deletePhoneCheckForOrg id key.orgId m.now
  | .createBatch batchId upload => uploadBatch env key.orgId batchId upload
  | .getBatch id => showBatch env key.orgId id
  | .listBatches cursor limit =>
      match pageLimit limit with
      | none => return sendError .validationError
      | some limit => listBatches env key.orgId cursor limit
  | .deleteBatch id => deleteBatch key.orgId id none (some key.apiKeyId)
  | .usage cursor limit =>
      match pageLimit limit with
      | none => return sendError .validationError
      | some limit => showUsageSummary env key.orgId cursor limit
  | .webhooks handler => handler key

/-- The routes of `/internal` for checks, batches and usage. -/
inductive DashboardRoute where
  | emailCheck (email : JsString) (smtp : Bool)
  | phoneCheck (phone : JsString) (country : Option JsString)
  | createBatch (batchId : Uuid) (upload : Upload)
  | listBatches (cursor : Option String)
  | getBatch (id : Uuid)
  | deleteBatch (id : Uuid)
  | usage (from_ to_ : Option Date)
  | deleteAllChecks (confirm : String)

/-- The handler of `/internal/checks/delete-all`. -/
def deleteAllChecks (caller : DashboardCaller) (confirm : String) : Handler ProductReply := do
  let session ← requireSession caller
  if session.role ≠ .admin then return sendError .unauthorized
  else if confirm ≠ "DELETE" then return .error .validationError "Type DELETE to confirm."
  else do
    match ← transact fun _ => wipeCheckDataForOrg session.orgId env.deleteObjects with
    | none => return sendError .unauthorized
    | some result => do
        audit
          { orgId := some session.orgId
            actorUserId := some session.userId
            action := "check_data.deleted"
            targetType := "organization"
            targetId := session.orgId.text
            metadata :=
              [("email_checks", .number result.emailChecks),
                ("phone_checks", .number result.phoneChecks),
                ("batches", .number result.batches),
                ("batch_objects", .number result.batchObjects)] }
        return .wiped result

/-- The handler of a route of `/internal`. -/
def dashboardHandler (caller : DashboardCaller) : DashboardRoute → Handler ProductReply
  | .emailCheck email smtp => do
      let session ← requireVerified caller true
      EmailCheckOutcome.reply <$> performEmailCheck env session.orgId email smtp
  | .phoneCheck phone country => do
      let session ← requireVerified caller true
      performPhoneCheck env session.orgId phone country
  | .createBatch batchId upload => do
      let session ← requireVerified caller true
      uploadBatch env session.orgId batchId upload
  | .listBatches cursor => do
      let session ← requireVerified caller false
      listBatches env session.orgId cursor 20
  | .getBatch id => do
      let session ← requireVerified caller false
      showBatch env session.orgId id
  | .deleteBatch id => do
      let session ← requireVerified caller true
      deleteBatch session.orgId id (some session.userId) none
  | .usage from_ to_ => do
      let session ← requireVerified caller false
      showUsage env session.orgId from_ to_
  | .deleteAllChecks confirm => deleteAllChecks env caller confirm

/-- A request to the product API. -/
inductive ProductRequest where
  | api (caller : ApiCaller) (route : ApiRoute)
  | dashboard (caller : DashboardCaller) (route : DashboardRoute)

/-- What becomes of a request. -/
def handle : ProductRequest → Handler ProductReply
  | .api caller route => do
      let key ← requireKey env caller
      apiHandler env key route
  | .dashboard caller route => dashboardHandler env caller route

end Tozalist.Api
