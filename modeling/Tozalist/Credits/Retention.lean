/-
# Tozalist.Credits.Retention -- what the retention of the ledger does to a balance

A balance is the sum of the whole ledger, and `purgeExpiredLedgerEntries` deletes the
rows of more than three years ago.  What an organisation loses is what it had at the
cutoff (`balance_purged`), so a purge leaves its balance alone exactly when it had nothing
then (`purge_keeps_balance_iff`).

`purge_overdraws` is a ledger of one grant and one later reservation: the purge takes the
grant, and the balance is negative.
-/
import Tozalist.Credits.Safety

namespace Tozalist.Credits

set_option autoImplicit false

open Db
open Theory (Reachable Executable Txn)
open Theory.Table

/-- The balance by the rows written until `t`. -/
def balanceAt (t : Timestamp) (orgId : Uuid) (rows : List CreditLedgerEntry) : Int :=
  balance orgId (rows.filter fun e => e.createdAt ≤ t)

/-- The rows until a time and the rows after it make up the ledger. -/
theorem balance_split (t : Timestamp) (orgId : Uuid) (rows : List CreditLedgerEntry) :
    balance orgId rows =
      balanceAt t orgId rows + balance orgId (rows.filter fun e => ¬ e.createdAt ≤ t) := by
  have early : balanceAt t orgId rows =
      total (fun e => e.orgId = orgId ∧ e.createdAt ≤ t) (·.delta) rows := total_filter _ _ _ rows
  have late : balance orgId (rows.filter fun e => ¬ e.createdAt ≤ t) =
      total (fun e => e.orgId = orgId ∧ ¬ e.createdAt ≤ t) (·.delta) rows :=
    total_filter _ _ _ rows
  rw [early, late]
  exact total_split _ _ _ rows

/-- A purge takes from a balance what it was at the cutoff. -/
theorem balance_purged {dbNow : Timestamp} {now : Date} {db db' : Database} {count : ℕ}
    (commits : Txn.Commits (purgeExpiredLedgerEntries dbNow now) db count db') (orgId : Uuid) :
    balance orgId db'.creditLedger = balance orgId db.creditLedger -
      balanceAt (ledgerRetentionCutoff now).timestamp orgId db.creditLedger := by
  have left := purgeExpiredLedgerEntries_commits commits
  have young : db'.creditLedger = db.creditLedger.filter fun e =>
      ¬ e.createdAt ≤ (ledgerRetentionCutoff now).timestamp := by
    rw [left]
    rfl
  have split := balance_split (ledgerRetentionCutoff now).timestamp orgId db.creditLedger
  rw [young]
  omega

/-- **A purge keeps the balance of an organisation exactly when it had nothing at the
cutoff.** -/
theorem purge_keeps_balance_iff {dbNow : Timestamp} {now : Date} {db db' : Database} {count : ℕ}
    (commits : Txn.Commits (purgeExpiredLedgerEntries dbNow now) db count db') (orgId : Uuid) :
    balance orgId db'.creditLedger = balance orgId db.creditLedger ↔
      balanceAt (ledgerRetentionCutoff now).timestamp orgId db.creditLedger = 0 := by
  rw [balance_purged commits orgId]
  constructor
  · intro same
    omega
  · intro nothing
    omega

/-! ### A grant three years old, spent in part -/

/-- Three years after the epoch. -/
def threeYears : Date := 94694400000

/-- A grant of a hundred credits at the epoch, and sixty of them reserved a day later. -/
def spentLater : List Action :=
  [.grant ⟨.numbered 1, 100, Js.ofString "INV-1"⟩ (drawn 1) 0,
    .createBatch ⟨.numbered 2, .numbered 1, "list.csv", 60, "in", ⟨0, true, 0, 0, 0, 0, 0,
      ⟨0, 0, 0, 0⟩⟩⟩ ⟨86400000000, .numbered 2, .numbered 8, .numbered 9⟩ 86400000]

def worldSpentLater : World := spentLater.foldl (World.after fun _ => "") oneOrganization

/-- The database after the purge. -/
def purged : Database :=
  (Txn.transaction (purgeExpiredLedgerEntries threeYears.timestamp threeYears)
    worldSpentLater.db).2

theorem purged_commits :
    Txn.Commits (purgeExpiredLedgerEntries threeYears.timestamp threeYears)
      worldSpentLater.db 1 purged :=
  Txn.commits_of_ok (by decide +kernel)

/-- The organisation still had its hundred credits at the cutoff, and has forty. -/
theorem purge_keeps_balance_iff_spent :
    balance (.numbered 1) purged.creditLedger = balance (.numbered 1) worldSpentLater.db.creditLedger ↔
      balanceAt (ledgerRetentionCutoff threeYears).timestamp (.numbered 1)
        worldSpentLater.db.creditLedger = 0 :=
  purge_keeps_balance_iff purged_commits (.numbered 1)

/-- The purge takes the grant and leaves the reservation: forty credits become a debt of
sixty. -/
theorem purge_overdraws :
    ¬ ∀ (w : World) (orgId : Uuid) (dbNow : Timestamp) (now : Date) (db : Database) (count : ℕ),
      Reachable Initial (step fun _ => "") w →
      Txn.Commits (purgeExpiredLedgerEntries dbNow now) w.db count db →
      balance orgId db.creditLedger = balance orgId w.db.creditLedger ∧
        0 ≤ balance orgId db.creditLedger := by
  intro kept
  have executable : Executable World.Allows (World.after fun _ => "") oneOrganization
      spentLater := by
    decide +kernel
  obtain ⟨tr, run⟩ := executable.run
  have reach : Reachable Initial (step fun _ => "") worldSpentLater :=
    ⟨oneOrganization, tr, ⟨rfl, rfl, rfl⟩, run⟩
  have debt : balance (.numbered 1) purged.creditLedger = -60 := by decide +kernel
  have nonneg := (kept _ (.numbered 1) _ _ _ _ reach purged_commits).2
  omega

end Tozalist.Credits
