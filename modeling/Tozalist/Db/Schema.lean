/-
# Tozalist.Db.Schema -- the tables and what a transaction on them can do

The tables of `packages/db/src/schema` that credits, checks, batches and retention
touch, with the columns those operations read or write, and the stored shapes of
`packages/shared/src/checks.ts`.  A table is the list of its rows in insertion order.

An operation of `packages/db/src` is a transaction body `Tx`.  What PostgreSQL
decides by itself (the transaction's `now()`, generated ids) comes in as a `Draw`;
what it refuses is a `DbError`, which rolls the transaction back: a 32-bit integer
out of range, text with a NUL, a violated unique index, a row the append-only trigger
protects.

Times: a JavaScript `Date` counts milliseconds, a `timestamptz` microseconds.
-/
import Tozalist.Core.Aggregate
import Tozalist.Theory.Json
import Tozalist.Theory.Table
import Tozalist.Theory.Txn

namespace Tozalist.Db

set_option autoImplicit false

open Core (EngineResponse OperationalReason ReasonCode Verdict)
open Theory (Txn)

/-! ## Values -/

/-- A `uuid`, as its canonical text. -/
structure Uuid where
  text : String
  canonical : text.toList.length = 36 ∧
    ∀ c ∈ text.toList, c = '-' ∨ c.isDigit ∨ ('a' ≤ c ∧ c ≤ 'f')
  deriving DecidableEq, Repr

theorem Uuid.ext_text {a b : Uuid} (same : a.text = b.text) : a = b := by
  cases a; cases b; cases same; rfl

/-- A `uuid` by its last digit, for concrete runs. -/
def Uuid.numbered (digit : ℕ) : Uuid where
  text := "00000000-0000-4000-8000-00000000000" ++ toString (digit % 10)
  canonical := by
    constructor
    · have single : ∀ d : Fin 10, (toString d.val).length = 1 := by decide
      have one := single ⟨digit % 10, Nat.mod_lt digit (by decide)⟩
      rw [String.length_toList, String.length_append, one]
      decide
    · intro c member
      rw [String.toList_append, List.mem_append] at member
      rcases member with fixed | last
      · have zeros : c = '0' ∨ c = '-' ∨ c = '4' ∨ c = '8' := by
          simp at fixed
          tauto
        rcases zeros with rfl | rfl | rfl | rfl <;> decide
      · rw [show (toString (digit % 10)).toList = Nat.toDigits 10 (digit % 10) from
          Nat.toList_repr] at last
        exact .inr (.inl (Nat.isDigit_of_mem_toDigits (by decide) (by decide) last))

/-- A JavaScript `Date`: milliseconds since the epoch. -/
abbrev Date : Type := Int

/-- A `timestamptz`: microseconds since the epoch. -/
abbrev Timestamp : Type := Int

/-- A date as the driver sends it. -/
def Date.timestamp (d : Date) : Timestamp := d * 1000

/-- `days * 24 * 60 * 60 * 1000`. -/
def Date.addDays (d : Date) (days : Int) : Date := d + days * 24 * 60 * 60 * 1000

/-- What an `integer` column or a `::int` cast can hold. -/
def Int4 (n : Int) : Prop := -2147483648 ≤ n ∧ n ≤ 2147483647

instance (n : Int) : Decidable (Int4 n) := inferInstanceAs (Decidable (_ ∧ _))

/-- PostgreSQL text: no NUL. -/
def Storable (text : JsString) : Prop := (0 : UInt16) ∉ text

instance (text : JsString) : Decidable (Storable text) := inferInstanceAs (Decidable (_ ∉ _))

/-! ## Stored shapes -/

/-- `SmtpStatus`. -/
inductive SmtpStatus where
  | skipped
  | pending
  | complete
  deriving DecidableEq, Repr

/-- `StoredEmailCheck`: the snapshot in `checks_json`. -/
structure StoredEmailCheck where
  engine : EngineResponse
  score : Nat
  disclaimer : String
  typo : Option JsString
  smtpStatus : SmtpStatus
  operationalReason : Option OperationalReason
  deriving DecidableEq, Repr

/-- The `distribution` of a batch: rows per verdict. -/
structure Distribution where
  valid : Nat
  invalid : Nat
  risky : Nat
  unknown : Nat
  deriving DecidableEq, Repr

/-- `BatchStats`. -/
structure BatchStats where
  emailColumn : Nat
  hasHeader : Bool
  malformedRows : Nat
  charged : Nat
  cached : Nat
  duplicates : Nat
  engineErrors : Nat
  distribution : Distribution
  deriving DecidableEq, Repr

/-! ## Rows -/

/-- `organizations`. -/
structure Organization where
  id : Uuid
  deletedAt : Option Timestamp
  retentionDays : Int
  smtpEnabled : Bool
  deriving DecidableEq, Repr

/-- `credit_reason`. -/
inductive CreditReason where
  | grant
  | singleCheck
  | batchCheck
  | refund
  | adjustment
  deriving DecidableEq, Repr

/-- `credit_ledger`. -/
structure CreditLedgerEntry where
  id : Uuid
  orgId : Uuid
  delta : Int
  reason : CreditReason
  referenceId : Option String
  note : Option JsString
  createdAt : Timestamp
  deriving DecidableEq, Repr

/-- `email_checks`.  `checksJson` is what `parseStoredEmailCheck` reads in the column;
its texts, like the address, went through PostgreSQL. -/
structure EmailCheck where
  id : Uuid
  orgId : Uuid
  emailNormalized : JsString
  emailHash : String
  verdict : Verdict
  reasonCodes : List ReasonCode
  checksJson : Option StoredEmailCheck
  cached : Bool
  creditsUsed : Nat
  createdAt : Timestamp
  expiresAt : Timestamp
  storable : ∀ snapshot ∈ checksJson, ∀ typo ∈ snapshot.typo, Storable typo
  deriving DecidableEq

/-- `phone_checks`. -/
structure PhoneCheck where
  id : Uuid
  orgId : Uuid
  e164 : Option String
  inputHash : String
  valid : Bool
  country : Option String
  lineTypeGuess : Option String
  reasonCodes : List ReasonCode
  creditsUsed : Nat
  createdAt : Timestamp
  expiresAt : Timestamp
  deriving DecidableEq, Repr

/-- `batch_status`. -/
inductive BatchStatus where
  | pending
  | validating
  | processing
  | done
  | failed
  deriving DecidableEq, Repr

/-- A claim can still take the batch. -/
def BatchStatus.Claimable (status : BatchStatus) : Prop :=
  status = .pending ∨ status = .validating

instance (status : BatchStatus) : Decidable status.Claimable :=
  inferInstanceAs (Decidable (_ ∨ _))

/-- The batch has reached its end. -/
def BatchStatus.Terminal (status : BatchStatus) : Prop :=
  status = .done ∨ status = .failed

instance (status : BatchStatus) : Decidable status.Terminal :=
  inferInstanceAs (Decidable (_ ∨ _))

/-- `batches`.  A `stats` column that is not a `BatchStats` is `none`. -/
structure Batch where
  id : Uuid
  orgId : Uuid
  filename : String
  status : BatchStatus
  totalRows : Nat
  processedRows : Nat
  error : Option String
  stats : Option BatchStats
  inputObjectKey : String
  resultObjectKey : Option String
  createdAt : Timestamp
  completedAt : Option Timestamp
  expiresAt : Timestamp
  deriving DecidableEq, Repr

/-- A value of an audit event's `metadata`, a `jsonb` column; its numbers are whole. -/
abbrev Metadata : Type := Theory.Json Int JsString

def Metadata.text (s : String) : Metadata := .string (Js.ofString s)

/-- `audit_events`. -/
structure AuditEvent where
  id : Uuid
  orgId : Option Uuid
  actorUserId : Option Uuid
  actorApiKeyId : Option Uuid
  action : String
  targetType : String
  targetId : String
  metadata : List (String × Metadata)
  createdAt : Timestamp
  expiresAt : Timestamp
  deriving DecidableEq

/-! ## The database -/

structure Database where
  organizations : List Organization
  creditLedger : List CreditLedgerEntry
  emailChecks : List EmailCheck
  phoneChecks : List PhoneCheck
  batches : List Batch
  auditEvents : List AuditEvent

/-- What PostgreSQL or a callback refuses. -/
inductive DbError where
  | uniqueViolation (constraint : String)
  | integerOutOfRange
  | invalidText
  | appendOnly
  | storage
  deriving DecidableEq, Repr

/-- A transaction body on the database. -/
abbrev Tx (α : Type) : Type := Txn Database DbError α

/-- What the database and `randomUUID` supply to one transaction. -/
structure Draw where
  /-- `now()` -/
  now : Timestamp
  ledgerId : Uuid
  rowId : Uuid
  auditId : Uuid
  deriving DecidableEq, Repr

/-! ## Organisations -/

/-- The organisation exists and is not deleted. -/
def Organization.Active (org : Organization) : Prop := org.deletedAt = none

instance (org : Organization) : Decidable org.Active := inferInstanceAs (Decidable (_ = _))

/-- `lockOrganization`: the active organisation, locked for the transaction. -/
def lockOrganization (orgId : Uuid) : Tx (Option Organization) := do
  let db ← get
  return db.organizations.find? fun o => o.id = orgId ∧ o.Active

theorem lockOrganization_commits {orgId : Uuid} {db db' : Database} {org : Option Organization} :
    Txn.Commits (lockOrganization orgId) db org db' ↔
      org = db.organizations.find? (fun o => o.id = orgId ∧ o.Active) ∧ db' = db := by
  simp only [lockOrganization, Txn.commits_bind, Txn.commits_get, Txn.commits_pure]
  constructor
  · rintro ⟨_, _, ⟨rfl, rfl⟩, rfl, rfl⟩
    exact ⟨rfl, rfl⟩
  · rintro ⟨rfl, rfl⟩
    exact ⟨_, _, ⟨rfl, rfl⟩, rfl, rfl⟩

end Tozalist.Db
