/-
# Tozalist.Db.Checks -- grants, and checks paid for one by one

`grantCreditsWithAudit` of `billing.ts` with `recordAuditEvent`, and
`createEmailCheckWithDebit`, `createPhoneCheckWithDebit` and `findRecentEmailCheck` of
`checks.ts`.  Each is a transaction body translated line by line, followed by one
lemma that says everything a commit of it can have done to the database.
-/
import Tozalist.Db.Ledger

namespace Tozalist.Db

set_option autoImplicit false

open Core (ReasonCode Verdict)
open Theory (Txn)

/-! ## Audit events -/

/-- `AUDIT_RETENTION_DAYS`. -/
def auditRetentionDays : Int := 90

/-- `AuditEventInput`. -/
structure AuditEventInput where
  orgId : Option Uuid := none
  actorUserId : Option Uuid := none
  actorApiKeyId : Option Uuid := none
  action : String
  targetType : String
  targetId : String
  metadata : List (String × Metadata) := []

/-- The row `recordAuditEvent` writes. -/
def AuditEventInput.row (event : AuditEventInput) (draw : Draw) (now : Date) : AuditEvent :=
  { id := draw.auditId
    orgId := event.orgId
    actorUserId := event.actorUserId
    actorApiKeyId := event.actorApiKeyId
    action := event.action
    targetType := event.targetType
    targetId := event.targetId
    metadata := event.metadata
    createdAt := draw.now
    expiresAt := (now.addDays auditRetentionDays).timestamp }

/-- `recordAuditEvent`. -/
def recordAuditEvent (event : AuditEventInput) (draw : Draw) (now : Date) : Tx Unit :=
  modify fun db => { db with auditEvents := db.auditEvents ++ [event.row draw now] }

/-! ## Grants -/

/-- The input of `grantCreditsWithAudit`, for an integer amount. -/
structure GrantInput where
  orgId : Uuid
  credits : Int
  note : JsString
  deriving DecidableEq, Repr

/-- `GrantResult`. -/
inductive GrantResult where
  | ok (ledgerId : Uuid) (referenceId : String)
  | invalidInput
  | orgNotFound
  | orgDeleted
  | duplicateReference
  deriving DecidableEq, Repr

/-- `Number.isSafeInteger(credits) && credits > 0`. -/
def ValidCredits (credits : Int) : Prop := 0 < credits ∧ credits ≤ 9007199254740991

instance (credits : Int) : Decidable (ValidCredits credits) :=
  inferInstanceAs (Decidable (_ ∧ _))

/-- The ledger row of a grant; `note` is trimmed. -/
def grantEntry (sha256Hex : JsString → String) (input : GrantInput) (note : JsString)
    (draw : Draw) : CreditLedgerEntry :=
  { id := draw.ledgerId
    orgId := input.orgId
    delta := input.credits
    reason := .grant
    referenceId := some (grantReference sha256Hex input.credits note)
    note := some note
    createdAt := draw.now }

/-- A grant is no refund. -/
theorem refKey_grantEntry_ne (sha256Hex : JsString → String) (input : GrantInput)
    (note : JsString) (draw : Draw) (orgId batchId : Uuid) :
    refKey (grantEntry sha256Hex input note draw) ≠ some (refunded orgId batchId) := by
  intro same
  exact grantReference_ne_refund _ _ _ _ (Prod.ext_iff.1 (Option.some.inj same)).2

/-- The audit event of a grant. -/
def grantEvent (sha256Hex : JsString → String) (input : GrantInput) (note : JsString)
    (draw : Draw) : AuditEventInput :=
  { orgId := some input.orgId
    action := "billing.grant"
    targetType := "credit_ledger"
    targetId := draw.ledgerId.text
    metadata := [("credits", .number input.credits),
      ("reference_id", .text (grantReference sha256Hex input.credits note))] }

/-- The transaction of `grantCreditsWithAudit`, on a validated amount and note. -/
def grantTx (sha256Hex : JsString → String) (input : GrantInput) (note : JsString) (draw : Draw)
    (now : Date) : Tx GrantResult := do
  let db ← get
  match db.organizations.find? fun o => o.id = input.orgId with
  | none => return .orgNotFound
  | some org =>
      if ¬ org.Active then return .orgDeleted
      else do
        insertLedger (grantEntry sha256Hex input note draw)
        recordAuditEvent (grantEvent sha256Hex input note draw) draw now
        return .ok draw.ledgerId (grantReference sha256Hex input.credits note)

/-- `grantCreditsWithAudit`: validation before, replay detection after the transaction. -/
def grantCreditsWithAudit (sha256Hex : JsString → String) (input : GrantInput) (draw : Draw)
    (now : Date) (db : Database) : Except DbError GrantResult × Database :=
  if ¬ ValidCredits input.credits then (.ok .invalidInput, db)
  else if Js.trim input.note = [] then (.ok .invalidInput, db)
  else match Txn.transaction (grantTx sha256Hex input (Js.trim input.note) draw now) db with
    | (.ok result, db') => (.ok result, db')
    | (.error err, db') =>
        if err = .uniqueViolation referenceUniq then (.ok .duplicateReference, db')
        else (.error err, db')

/-- **A grant** changes nothing, or adds one row with a fresh reference and its event. -/
theorem grantCreditsWithAudit_cases (sha256Hex : JsString → String) (input : GrantInput)
    (draw : Draw) (now : Date) (db : Database) :
    (grantCreditsWithAudit sha256Hex input draw now db).2 = db ∨
      let entry := grantEntry sha256Hex input (Js.trim input.note) draw
      0 < input.credits ∧ ¬ Conflicts entry db.creditLedger ∧
        (grantCreditsWithAudit sha256Hex input draw now db).2 =
          { db.withEntry entry with
            auditEvents := db.auditEvents ++
              [(grantEvent sha256Hex input (Js.trim input.note) draw).row draw now] } := by
  rw [grantCreditsWithAudit]
  by_cases valid : ValidCredits input.credits
  swap
  · exact .inl (by simp [valid])
  by_cases blank : Js.trim input.note = []
  · exact .inl (by simp [valid, blank])
  rw [if_neg (not_not.2 valid), if_neg blank]
  rcases Txn.transaction_cases (grantTx sha256Hex input (Js.trim input.note) draw now) db with
    ⟨result, db', commits, eq⟩ | ⟨err, -, eq⟩
  · rw [eq]
    simp only [grantTx, Txn.commits_bind, Txn.commits_get] at commits
    obtain ⟨_, _, ⟨rfl, rfl⟩, commits⟩ := commits
    split at commits
    · exact .inl ((Txn.commits_pure _ _ _ _).1 commits).2
    · simp only [Txn.commits_ite, Txn.commits_bind, Txn.commits_pure, insertLedger_commits,
        recordAuditEvent, Txn.commits_modify] at commits
      rcases commits with ⟨-, -, rfl⟩ | ⟨-, _, _, ⟨-, free, rfl⟩, _, _, rfl, -, rfl⟩
      · exact .inl rfl
      · exact .inr ⟨valid.1, free, rfl⟩
  · rw [eq]
    simp only
    split <;> exact .inl rfl

/-! ## Email checks -/

/-- `EMAIL_CACHE_WINDOW_MS`. -/
def emailCacheWindowMs : Int := 7 * 24 * 60 * 60 * 1000

/-- Newest first, as `orderBy(desc(createdAt), desc(id))` has it. -/
def EmailCheck.newer (a b : EmailCheck) : Bool :=
  b.createdAt < a.createdAt || (a.createdAt = b.createdAt && b.id.text ≤ a.id.text)

theorem EmailCheck.newer_trans (a b c : EmailCheck) (ab : a.newer b = true)
    (bc : b.newer c = true) : a.newer c = true := by
  simp only [newer, Bool.or_eq_true, Bool.and_eq_true, decide_eq_true_eq] at ab bc ⊢
  rcases ab with ab | ⟨ab, ab'⟩ <;> rcases bc with bc | ⟨bc, bc'⟩
  · exact .inl (lt_trans bc ab)
  · exact .inl (bc ▸ ab)
  · exact .inl (ab ▸ bc)
  · exact .inr ⟨ab.trans bc, String.le_trans bc' ab'⟩

theorem EmailCheck.newer_total (a b : EmailCheck) : (a.newer b || b.newer a) = true := by
  simp only [newer, Bool.or_eq_true, Bool.and_eq_true, decide_eq_true_eq]
  rcases lt_trichotomy a.createdAt b.createdAt with lt | eq | gt
  · exact .inr (.inl lt)
  · rcases String.le_total a.id.text b.id.text with le | le
    · exact .inr (.inr ⟨eq.symm, le⟩)
    · exact .inl (.inr ⟨eq, le⟩)
  · exact .inl (.inl gt)

/-- A check an organisation may reuse at `now`. -/
def EmailCheck.Reusable (check : EmailCheck) (orgId : Uuid) (now : Date) : Prop :=
  check.orgId = orgId ∧ Date.timestamp (now - emailCacheWindowMs) < check.createdAt ∧
    now.timestamp < check.expiresAt

instance (check : EmailCheck) (orgId : Uuid) (now : Date) :
    Decidable (check.Reusable orgId now) :=
  inferInstanceAs (Decidable (_ ∧ _ ∧ _))

/-- The reusable checks of an organisation that `p` selects, newest first. -/
def Database.recentEmailChecks (db : Database) (orgId : Uuid) (p : EmailCheck → Bool)
    (now : Date) : List EmailCheck :=
  (db.emailChecks.filter fun c => p c && c.Reusable orgId now).mergeSort EmailCheck.newer

/-- Selecting more from the recent checks is asking for less. -/
theorem filter_recentEmailChecks (db : Database) (orgId : Uuid) (p q : EmailCheck → Bool)
    (now : Date) :
    (db.recentEmailChecks orgId p now).filter q =
      db.recentEmailChecks orgId (fun c => q c && p c) now := by
  rw [Database.recentEmailChecks, Database.recentEmailChecks,
    Theory.Table.filter_mergeSort EmailCheck.newer_trans EmailCheck.newer_total, List.filter_filter]
  simp only [Bool.and_assoc]

/-- `findRecentEmailCheck`. -/
def Database.findRecentEmailCheck (db : Database) (orgId : Uuid) (emailHash : String)
    (now : Date) : Option EmailCheck :=
  (db.recentEmailChecks orgId (fun c => c.emailHash = emailHash) now).head?

/-- `NewEmailCheckInput`. -/
structure NewEmailCheckInput where
  orgId : Uuid
  emailNormalized : JsString
  emailHash : String
  verdict : Verdict
  reasonCodes : List ReasonCode
  checksJson : StoredEmailCheck
  deriving DecidableEq, Repr

/-- The texts of a snapshot that came from the engine. -/
def StoredEmailCheck.texts (snapshot : StoredEmailCheck) : List String :=
  [snapshot.engine.email, snapshot.engine.syntax_.username, snapshot.engine.syntax_.domain,
    snapshot.engine.mx.error] ++ snapshot.engine.mx.records ++
      (snapshot.engine.smtp.map (·.error)).toList

/-- PostgreSQL takes the address and every text of the snapshot. -/
def NewEmailCheckInput.Fits (input : NewEmailCheckInput) : Prop :=
  Storable input.emailNormalized ∧ (∀ typo ∈ input.checksJson.typo, Storable typo) ∧
    ∀ text ∈ input.checksJson.texts, '\x00' ∉ text.toList

instance (input : NewEmailCheckInput) : Decidable input.Fits :=
  inferInstanceAs (Decidable (_ ∧ _ ∧ _))

/-- The row of a new check, as inserts write it. -/
def NewEmailCheckInput.row (input : NewEmailCheckInput) (fits : input.Fits) (id : Uuid)
    (createdAt expiresAt : Timestamp) : EmailCheck :=
  { id := id
    orgId := input.orgId
    emailNormalized := input.emailNormalized
    emailHash := input.emailHash
    verdict := input.verdict
    reasonCodes := input.reasonCodes
    checksJson := some input.checksJson
    cached := false
    creditsUsed := 1
    createdAt := createdAt
    expiresAt := expiresAt
    storable := by
      intro snapshot member typo has
      obtain rfl := Option.mem_some_iff.1 member
      exact fits.2.1 typo has }

/-- Insert one check. -/
def insertEmailCheck (input : NewEmailCheckInput) (id : Uuid) (createdAt expiresAt : Timestamp) :
    Tx EmailCheck := do
  let db ← get
  if fits : input.Fits then
    if ∃ c ∈ db.emailChecks, c.id = id then throw (.uniqueViolation "email_checks_pkey")
    else do
      let check := input.row fits id createdAt expiresAt
      modify fun db => { db with emailChecks := db.emailChecks ++ [check] }
      return check
  else throw .invalidText

theorem run_insertEmailCheck_bind {β : Type} (input : NewEmailCheckInput) (checkId : Uuid)
    (createdAt expiresAt : Timestamp) (next : EmailCheck → Tx β) (db : Database) :
    (insertEmailCheck input checkId createdAt expiresAt >>= next : Tx β).run db =
      if fits : input.Fits then
        if ∃ c ∈ db.emailChecks, c.id = checkId then
          .error (.uniqueViolation "email_checks_pkey")
        else (next (input.row fits checkId createdAt expiresAt)).run
          { db with emailChecks := db.emailChecks ++ [input.row fits checkId createdAt expiresAt] }
      else .error .invalidText := by
  rw [insertEmailCheck, bind_assoc, run_get_bind]
  split
  · split <;> rfl
  · rfl

theorem insertEmailCheck_commits {input : NewEmailCheckInput} {id : Uuid}
    {createdAt expiresAt : Timestamp} {db db' : Database} {check : EmailCheck}
    (commits : Txn.Commits (insertEmailCheck input id createdAt expiresAt) db check db') :
    ∃ fits : input.Fits, check = input.row fits id createdAt expiresAt ∧
      db' = { db with emailChecks := db.emailChecks ++ [check] } := by
  simp only [insertEmailCheck, Txn.commits_bind, Txn.commits_get] at commits
  obtain ⟨_, _, ⟨rfl, rfl⟩, commits⟩ := commits
  split at commits
  · rename_i fits
    simp only [Txn.commits_ite, Txn.commits_throw, and_false, false_or, Txn.commits_bind,
      Txn.commits_modify, Txn.commits_pure] at commits
    obtain ⟨-, _, _, rfl, rfl, rfl⟩ := commits
    exact ⟨fits, rfl, rfl⟩
  · exact absurd commits (Txn.commits_throw _ _ _ _)

/-- `EmailCheckDebitResult`. -/
inductive EmailCheckDebitResult where
  | created (check : EmailCheck) (balance : Int) (org : Organization)
  | cacheHit (check : EmailCheck) (balance : Int)
  | insufficient (balance : Int)
  | orgUnavailable

/-- The debit of one check. -/
def checkEntry (orgId checkId : Uuid) (draw : Draw) : CreditLedgerEntry :=
  { id := draw.ledgerId
    orgId := orgId
    delta := -1
    reason := .singleCheck
    referenceId := some checkId.text
    note := none
    createdAt := draw.now }

/-- The debit of a check is no refund. -/
theorem refKey_checkEntry_ne (orgId checkId : Uuid) (draw : Draw) (orgId' batchId : Uuid) :
    refKey (checkEntry orgId checkId draw) ≠ some (refunded orgId' batchId) := by
  intro same
  exact refundReference_ne_text _ _ (Prod.ext_iff.1 (Option.some.inj same)).2.symm

/-- `createEmailCheckWithDebit`. -/
def createEmailCheckWithDebit (input : NewEmailCheckInput) (draw : Draw) (now : Date) :
    Tx EmailCheckDebitResult := do
  match ← lockOrganization input.orgId with
  | none => return .orgUnavailable
  | some org =>
      let db ← get
      match db.findRecentEmailCheck input.orgId input.emailHash now with
      | some existing => return .cacheHit existing (← lockedBalance org.id)
      | none =>
          let balance ← lockedBalance org.id
          if balance < 1 then return .insufficient balance
          else do
            let check ← insertEmailCheck input draw.rowId draw.now
              (now.addDays org.retentionDays).timestamp
            insertLedger (checkEntry input.orgId draw.rowId draw)
            return .created check (balance - 1) org

/-- **An email check** changes nothing, or adds itself and its debit, within the balance. -/
theorem createEmailCheckWithDebit_commits {input : NewEmailCheckInput} {draw : Draw} {now : Date}
    {db db' : Database} {result : EmailCheckDebitResult}
    (commits : Txn.Commits (createEmailCheckWithDebit input draw now) db result db') :
    db' = db ∨ ∃ org check, org ∈ db.organizations ∧ org.id = input.orgId ∧ org.Active ∧
      result = .created check (balance input.orgId db.creditLedger - 1) org ∧
      1 ≤ balance input.orgId db.creditLedger ∧
      ¬ Conflicts (checkEntry input.orgId draw.rowId draw) db.creditLedger ∧
      db' = { db.withEntry (checkEntry input.orgId draw.rowId draw) with
        emailChecks := db.emailChecks ++ [check] } := by
  simp only [createEmailCheckWithDebit, Txn.commits_bind, lockOrganization_commits] at commits
  obtain ⟨_, _, ⟨rfl, rfl⟩, commits⟩ := commits
  split at commits
  · exact .inl ((Txn.commits_pure _ _ _ _).1 commits).2
  · rename_i org found
    have active := List.find?_some found
    simp only [decide_eq_true_eq] at active
    simp only [Txn.commits_bind, Txn.commits_get] at commits
    obtain ⟨_, _, ⟨rfl, rfl⟩, commits⟩ := commits
    split at commits
    · simp only [Txn.commits_bind, lockedBalance_commits, Txn.commits_pure] at commits
      obtain ⟨_, _, ⟨-, -, rfl⟩, -, rfl⟩ := commits
      exact .inl rfl
    · simp only [Txn.commits_bind, lockedBalance_commits, Txn.commits_ite, Txn.commits_pure,
        insertLedger_commits] at commits
      obtain ⟨_, _, ⟨-, rfl, rfl⟩, commits⟩ := commits
      rcases commits with ⟨-, -, rfl⟩ | ⟨enough, check, _, inserted, _, _, ⟨-, free, rfl⟩, rfl, rfl⟩
      · exact .inl rfl
      · obtain ⟨-, -, rfl⟩ := insertEmailCheck_commits inserted
        rw [active.1] at enough ⊢
        exact .inr ⟨org, check, List.mem_of_find?_eq_some found, active.1, active.2, rfl,
          by omega, free, rfl⟩

/-! ## Phone checks -/

/-- `NewPhoneCheckInput`. -/
structure NewPhoneCheckInput where
  orgId : Uuid
  e164 : Option String
  inputHash : String
  valid : Bool
  country : Option String
  lineTypeGuess : Option String
  reasonCodes : List ReasonCode
  deriving DecidableEq, Repr

/-- The row of a new phone check. -/
def NewPhoneCheckInput.row (input : NewPhoneCheckInput) (id : Uuid)
    (createdAt expiresAt : Timestamp) : PhoneCheck :=
  { id := id
    orgId := input.orgId
    e164 := input.e164
    inputHash := input.inputHash
    valid := input.valid
    country := input.country
    lineTypeGuess := input.lineTypeGuess
    reasonCodes := input.reasonCodes
    creditsUsed := 1
    createdAt := createdAt
    expiresAt := expiresAt }

@[simp] theorem NewPhoneCheckInput.row_id (input : NewPhoneCheckInput) (checkId : Uuid)
    (createdAt expiresAt : Timestamp) : (input.row checkId createdAt expiresAt).id = checkId := rfl

/-- Insert one phone check. -/
def insertPhoneCheck (check : PhoneCheck) : Tx PhoneCheck := do
  let db ← get
  if ∃ c ∈ db.phoneChecks, c.id = check.id then throw (.uniqueViolation "phone_checks_pkey")
  else do
    modify fun db => { db with phoneChecks := db.phoneChecks ++ [check] }
    return check

theorem run_insertPhoneCheck_bind {β : Type} (check : PhoneCheck) (next : PhoneCheck → Tx β)
    (db : Database) :
    (insertPhoneCheck check >>= next : Tx β).run db =
      if ∃ c ∈ db.phoneChecks, c.id = check.id then .error (.uniqueViolation "phone_checks_pkey")
      else (next check).run { db with phoneChecks := db.phoneChecks ++ [check] } := by
  rw [insertPhoneCheck, bind_assoc, run_get_bind]
  split <;> rfl

/-- `PhoneCheckDebitResult`. -/
inductive PhoneCheckDebitResult where
  | created (check : PhoneCheck) (balance : Int)
  | insufficient (balance : Int)
  | orgUnavailable

/-- `createPhoneCheckWithDebit`: the same locked debit, with no result cache. -/
def createPhoneCheckWithDebit (input : NewPhoneCheckInput) (draw : Draw) (now : Date) :
    Tx PhoneCheckDebitResult := do
  match ← lockOrganization input.orgId with
  | none => return .orgUnavailable
  | some org =>
      let balance ← lockedBalance org.id
      if balance < 1 then return .insufficient balance
      else do
        let check ← insertPhoneCheck
          (input.row draw.rowId draw.now (now.addDays org.retentionDays).timestamp)
        insertLedger (checkEntry input.orgId draw.rowId draw)
        return .created check (balance - 1)

/-- **A phone check** changes nothing, or adds itself and its debit, within the balance. -/
theorem createPhoneCheckWithDebit_commits {input : NewPhoneCheckInput} {draw : Draw} {now : Date}
    {db db' : Database} {result : PhoneCheckDebitResult}
    (commits : Txn.Commits (createPhoneCheckWithDebit input draw now) db result db') :
    db' = db ∨ ∃ org check, org ∈ db.organizations ∧ org.id = input.orgId ∧ org.Active ∧
      result = .created check (balance input.orgId db.creditLedger - 1) ∧
      1 ≤ balance input.orgId db.creditLedger ∧
      ¬ Conflicts (checkEntry input.orgId draw.rowId draw) db.creditLedger ∧
      db' = { db.withEntry (checkEntry input.orgId draw.rowId draw) with
        phoneChecks := db.phoneChecks ++ [check] } := by
  simp only [createPhoneCheckWithDebit, Txn.commits_bind, lockOrganization_commits] at commits
  obtain ⟨_, _, ⟨rfl, rfl⟩, commits⟩ := commits
  split at commits
  · exact .inl ((Txn.commits_pure _ _ _ _).1 commits).2
  · rename_i org found
    have active := List.find?_some found
    simp only [decide_eq_true_eq] at active
    simp only [Txn.commits_bind, lockedBalance_commits, Txn.commits_ite, Txn.commits_pure,
      insertLedger_commits, insertPhoneCheck, Txn.commits_get, Txn.commits_throw, and_false,
      false_or, Txn.commits_modify] at commits
    obtain ⟨_, _, ⟨-, rfl, rfl⟩, commits⟩ := commits
    rcases commits with ⟨-, -, rfl⟩ | ⟨enough, check, _, ⟨_, _, ⟨rfl, rfl⟩, -, _, _, rfl, rfl, rfl⟩,
      _, _, ⟨-, free, rfl⟩, rfl, rfl⟩
    · exact .inl rfl
    · rw [active.1] at enough ⊢
      exact .inr ⟨org, _, List.mem_of_find?_eq_some found, active.1, active.2, rfl,
        by omega, free, rfl⟩

end Tozalist.Db
