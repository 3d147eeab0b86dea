/-
# Tozalist.Db.EmailChecks -- the writes to a check that exists

`updateEmailCheckSnapshot` of `packages/db/src/checks.ts`, with which a request marks and
unmarks a pending probe, and the helpers of `packages/db/src/email-checks.ts`, with which a
worker loads a check and writes its outcome.  Both updates go by the id of the row alone.
-/
import Tozalist.Db.Checks

namespace Tozalist.Db

set_option autoImplicit false

open Core (ReasonCode Verdict)
open Theory (Txn)

/-! ## Rows -/

/-- PostgreSQL takes every text of the snapshot. -/
def StoredEmailCheck.Fits (snapshot : StoredEmailCheck) : Prop :=
  (∀ typo ∈ snapshot.typo, Storable typo) ∧ ∀ text ∈ snapshot.texts, '\x00' ∉ text.toList

instance (snapshot : StoredEmailCheck) : Decidable snapshot.Fits :=
  inferInstanceAs (Decidable (_ ∧ _))

/-- The row with another snapshot. -/
def EmailCheck.setSnapshot (check : EmailCheck) (snapshot : StoredEmailCheck)
    (fits : snapshot.Fits) : EmailCheck :=
  { check with
    checksJson := some snapshot
    storable := by
      intro stored member typo has
      obtain rfl := Option.mem_some_iff.1 member
      exact fits.1 typo has }

/-- Rewrite the checks under an id. -/
def Database.updateEmailChecks (db : Database) (id : Uuid) (f : EmailCheck → EmailCheck) :
    Database :=
  { db with emailChecks := db.emailChecks.map fun c => if c.id = id then f c else c }

/-- The rows under the id are rewritten. -/
theorem filter_updateEmailChecks (db : Database) (id : Uuid) {f : EmailCheck → EmailCheck}
    (same : ∀ c, (f c).id = c.id) :
    (db.updateEmailChecks id f).emailChecks.filter (fun c => c.id = id) =
      (db.emailChecks.filter fun c => c.id = id).map f := by
  rw [Database.updateEmailChecks, List.filter_map]
  have select : ((fun c : EmailCheck => decide (c.id = id)) ∘ fun c =>
      if c.id = id then f c else c) = fun c => decide (c.id = id) := by
    funext c
    by_cases here : c.id = id <;> simp [here, same]
  rw [select]
  apply List.map_congr_left
  intro c inside
  exact if_pos (by simpa using (List.mem_filter.1 inside).2)

/-! ## Operations -/

/-- `updateEmailCheckSnapshot`. -/
def updateEmailCheckSnapshot (id : Uuid) (snapshot : StoredEmailCheck) : Tx Unit :=
  if fits : snapshot.Fits then
    modify fun db => db.updateEmailChecks id (·.setSnapshot snapshot fits)
  else throw .invalidText

/-- `EmailCheckForProcessing`. -/
structure EmailCheckForProcessing where
  check : EmailCheck
  orgDeletedAt : Option Timestamp

/-- `getEmailCheckForProcessing`. -/
def getEmailCheckForProcessing (db : Database) (id : Uuid) : Option EmailCheckForProcessing := do
  let check ← db.emailChecks.find? fun c => c.id = id
  let org ← db.organizations.find? fun o => o.id = check.orgId
  return ⟨check, org.deletedAt⟩

/-- `EmailCheckResultUpdate`. -/
structure EmailCheckResultUpdate where
  verdict : Verdict
  reasonCodes : List ReasonCode
  checksJson : StoredEmailCheck
  cached : Bool
  deriving DecidableEq, Repr

/-- The columns that `updateEmailCheckResult` sets. -/
def EmailCheck.setResult (check : EmailCheck) (update : EmailCheckResultUpdate)
    (fits : update.checksJson.Fits) : EmailCheck :=
  { check.setSnapshot update.checksJson fits with
    verdict := update.verdict
    reasonCodes := update.reasonCodes
    cached := update.cached }

/-- `updateEmailCheckResult`: whether there was a row. -/
def updateEmailCheckResult (id : Uuid) (update : EmailCheckResultUpdate) : Tx Bool :=
  if fits : update.checksJson.Fits then do
    let db ← get
    modify fun db => db.updateEmailChecks id (·.setResult update fits)
    return decide (∃ c ∈ db.emailChecks, c.id = id)
  else throw .invalidText

/-- A snapshot that fits is written. -/
theorem updateEmailCheckSnapshot_transaction {id : Uuid} {snapshot : StoredEmailCheck}
    (fits : snapshot.Fits) (db : Database) :
    Txn.transaction (updateEmailCheckSnapshot id snapshot) db =
      (.ok (), db.updateEmailChecks id (·.setSnapshot snapshot fits)) := by
  apply Txn.transaction_of_commits
  rw [updateEmailCheckSnapshot, dif_pos fits]
  simp

/-- **A result** that fits is written whole. -/
theorem updateEmailCheckResult_transaction {update : EmailCheckResultUpdate}
    (fits : update.checksJson.Fits) (id : Uuid) (db : Database) :
    Txn.transaction (updateEmailCheckResult id update) db =
      (.ok (decide (∃ c ∈ db.emailChecks, c.id = id)),
        db.updateEmailChecks id (·.setResult update fits)) := by
  apply Txn.transaction_of_commits
  rw [updateEmailCheckResult, dif_pos fits]
  simp

/-- A result that does not fit is not written at all. -/
theorem updateEmailCheckResult_transaction_of_not {update : EmailCheckResultUpdate}
    (unfit : ¬ update.checksJson.Fits) (id : Uuid) (db : Database) :
    Txn.transaction (updateEmailCheckResult id update) db = (.error .invalidText, db) := by
  rw [updateEmailCheckResult, dif_neg unfit]
  rfl

end Tozalist.Db
