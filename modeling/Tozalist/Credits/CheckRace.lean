/-
# Tozalist.Credits.CheckRace -- one charge for an address, whoever comes first

Any number of calls of `createEmailCheckWithDebit` at once, one SQL statement at a time: the
lock on the row of the organisation, the cache, the balance, the two inserts and the commit.
`debitLocking` is that system; two calls for one organisation wait for each other at its row,
and two inserts of one key at its unique index.

* `debits_serializable` -- what the calls come to, they come to one after another;
* `one_charge` -- every check that was created has its one debit, a call that created none
  changed nothing, and of the calls for one address within one window the first is charged
  and the others are given its check.
-/
import Mathlib.Algebra.Ring.Nat
import Tozalist.Db.Checks
import Tozalist.Theory.Locking

namespace Tozalist.Credits

set_option autoImplicit false

open Db
open Theory (Executable Locking Serial Transition Run Txn)
open Theory.Table

/-! ## One statement at a time -/

/-- The arguments of a call, with what the database and `randomUUID` supply to it. -/
structure DebitCall where
  input : NewEmailCheckInput
  draw : Draw
  now : Date

/-- The whole transaction of a call. -/
def DebitCall.body (call : DebitCall) : Tx EmailCheckDebitResult :=
  createEmailCheckWithDebit call.input call.draw call.now

/-- The query of `lockOrganization`. -/
def activeOrganization (orgId : Uuid) (db : Database) : Option Organization :=
  db.organizations.find? fun o => o.id = orgId ∧ o.Active

theorem activeOrganization_id {orgId : Uuid} {db : Database} {org : Organization}
    (found : activeOrganization orgId db = some org) : org.id = orgId := by
  have selected := List.find?_some found
  simp only [decide_eq_true_eq] at selected
  exact selected.1

/-- A call that has the row of its organisation. -/
structure LockedCall where
  call : DebitCall
  org : Organization
  own : org.id = call.input.orgId

namespace LockedCall

/-- The check it would create. -/
def check (held : LockedCall) (fits : held.call.input.Fits) : EmailCheck :=
  held.call.input.row fits held.call.draw.rowId held.call.draw.now
    (held.call.now.addDays held.org.retentionDays).timestamp

/-- The debit it would add. -/
def entry (held : LockedCall) : CreditLedgerEntry :=
  checkEntry held.call.input.orgId held.call.draw.rowId held.call.draw

/-- What it has written when both are in. -/
def write (held : LockedCall) (fits : held.call.input.Fits) (db : Database) : Database :=
  { db.withEntry held.entry with emailChecks := db.emailChecks ++ [held.check fits] }

end LockedCall

/-- Where a call is: the statement it is about to run. -/
inductive DebitPoint where
  /-- `SELECT … FOR UPDATE` of the organisation -/
  | waiting (call : DebitCall)
  /-- `findRecentEmailCheck` -/
  | locked (held : LockedCall)
  /-- `lockedBalance`, for a cache hit -/
  | hit (held : LockedCall) (existing : EmailCheck)
  /-- `lockedBalance`, for a charge -/
  | missed (held : LockedCall)
  /-- `INSERT INTO email_checks` -/
  | funded (held : LockedCall) (sum : Int)
  /-- `INSERT INTO credit_ledger` -/
  | written (held : LockedCall) (sum : Int) (fits : held.call.input.Fits)
  /-- `COMMIT` -/
  | charged (held : LockedCall) (sum : Int) (fits : held.call.input.Fits)

/-- A row that is locked, or the key of a row that is being inserted. -/
inductive LockKey where
  | organization (orgId : Uuid)
  | emailCheck (id : Uuid)
  | reference (orgId : Uuid) (referenceId : String)
  deriving DecidableEq, Repr

namespace DebitPoint

open Theory.Locking (Outcome)

/-- What the next statement of a call comes to. -/
def statement :
    DebitPoint → Database → Outcome Database DbError EmailCheckDebitResult DebitPoint
  | .waiting call, db =>
      match found : activeOrganization call.input.orgId db with
      | none => .commit .orgUnavailable (fun db => db)
      | some org => .goOn (.locked ⟨call, org, activeOrganization_id found⟩)
  | .locked held, db =>
      match db.findRecentEmailCheck held.call.input.orgId held.call.input.emailHash
          held.call.now with
      | some existing => .goOn (.hit held existing)
      | none => .goOn (.missed held)
  | .hit held existing, db =>
      if Int4 (balance held.org.id db.creditLedger) then
        .commit (.cacheHit existing (balance held.org.id db.creditLedger)) (fun db => db)
      else .abort .integerOutOfRange
  | .missed held, db =>
      if Int4 (balance held.org.id db.creditLedger) then
        if balance held.org.id db.creditLedger < 1 then
          .commit (.insufficient (balance held.org.id db.creditLedger)) (fun db => db)
        else .goOn (.funded held (balance held.org.id db.creditLedger))
      else .abort .integerOutOfRange
  | .funded held sum, db =>
      if fits : held.call.input.Fits then
        if ∃ c ∈ db.emailChecks, c.id = held.call.draw.rowId then
          .abort (.uniqueViolation "email_checks_pkey")
        else .goOn (.written held sum fits)
      else .abort .invalidText
  | .written held sum fits, db =>
      if ¬ held.entry.Fits then .abort held.entry.misfit
      else if Conflicts held.entry db.creditLedger then .abort (.uniqueViolation referenceUniq)
      else .goOn (.charged held sum fits)
  | .charged held sum fits, _ =>
      .commit (.created (held.check fits) (sum - 1) held.org) (held.write fits)

/-- What is left of the transaction. -/
def rest : DebitPoint → Tx EmailCheckDebitResult
  | .waiting call => call.body
  | .locked held => do
      let db ← get
      match db.findRecentEmailCheck held.call.input.orgId held.call.input.emailHash
          held.call.now with
      | some existing => return .cacheHit existing (← lockedBalance held.org.id)
      | none =>
          let sum ← lockedBalance held.org.id
          if sum < 1 then return .insufficient sum
          else do
            let check ← insertEmailCheck held.call.input held.call.draw.rowId held.call.draw.now
              (held.call.now.addDays held.org.retentionDays).timestamp
            insertLedger held.entry
            return .created check (sum - 1) held.org
  | .hit held existing => return .cacheHit existing (← lockedBalance held.org.id)
  | .missed held => do
      let sum ← lockedBalance held.org.id
      if sum < 1 then return .insufficient sum
      else do
        let check ← insertEmailCheck held.call.input held.call.draw.rowId held.call.draw.now
          (held.call.now.addDays held.org.retentionDays).timestamp
        insertLedger held.entry
        return .created check (sum - 1) held.org
  | .funded held sum => do
      let check ← insertEmailCheck held.call.input held.call.draw.rowId held.call.draw.now
        (held.call.now.addDays held.org.retentionDays).timestamp
      insertLedger held.entry
      return .created check (sum - 1) held.org
  | .written held sum fits => do
      modify fun db => { db with emailChecks := db.emailChecks ++ [held.check fits] }
      insertLedger held.entry
      return .created (held.check fits) (sum - 1) held.org
  | .charged held sum fits => do
      modify (held.write fits)
      return .created (held.check fits) (sum - 1) held.org

/-- The rows a call has locked, and the keys it has inserted. -/
def holds : DebitPoint → List LockKey
  | .waiting _ => []
  | .locked held | .hit held _ | .missed held | .funded held _ =>
      [.organization held.call.input.orgId]
  | .written held _ _ =>
      [.organization held.call.input.orgId, .emailCheck held.call.draw.rowId]
  | .charged held _ _ =>
      [.organization held.call.input.orgId, .emailCheck held.call.draw.rowId,
        .reference held.call.input.orgId held.call.draw.rowId.text]

/-- The row its next statement locks, or the key it inserts. -/
def wants : DebitPoint → List LockKey
  | .waiting call => [.organization call.input.orgId]
  | .funded held _ => [.emailCheck held.call.draw.rowId]
  | .written held _ _ => [.reference held.call.input.orgId held.call.draw.rowId.text]
  | _ => []

/-! ## The pieces make up the transaction -/

theorem run_lockOrganization_bind {β : Type} (orgId : Uuid)
    (next : Option Organization → Tx β) (db : Database) :
    (lockOrganization orgId >>= next : Tx β).run db =
      (next (activeOrganization orgId db)).run db := rfl

/-- A call sees the check it has inserted. -/
theorem run_written (held : LockedCall) (sum : Int) (fits : held.call.input.Fits)
    (db : Database) :
    (written held sum fits).rest.run db = (insertLedger held.entry >>= fun _ =>
      (return .created (held.check fits) (sum - 1) held.org : Tx _)).run
        { db with emailChecks := db.emailChecks ++ [held.check fits] } := rfl

variable {l next : DebitPoint} {db : Database}

theorem statement_waiting_none {call : DebitCall}
    (found : activeOrganization call.input.orgId db = none) :
    (waiting call).statement db = .commit .orgUnavailable (fun db => db) := by
  simp only [statement]
  split
  · rfl
  · simp_all

theorem statement_waiting_some {call : DebitCall} {org : Organization}
    (found : activeOrganization call.input.orgId db = some org) :
    (waiting call).statement db =
      .goOn (.locked ⟨call, org, activeOrganization_id found⟩) := by
  simp only [statement]
  split
  · simp_all
  · rename_i org' found'
    obtain rfl : org = org' := Option.some.inj (found.symm.trans found')
    rfl

/-- **The order of the statements.** -/
theorem goOn_cases (goes : l.statement db = .goOn next) :
    (∃ call held, l = .waiting call ∧ next = .locked held ∧ held.call = call) ∨
      (∃ held existing, l = .locked held ∧ next = .hit held existing) ∨
      (∃ held, l = .locked held ∧ next = .missed held) ∨
      (∃ held sum, l = .missed held ∧ next = .funded held sum) ∨
      (∃ held sum fits, l = .funded held sum ∧ next = .written held sum fits) ∨
      ∃ held sum fits, l = .written held sum fits ∧ next = .charged held sum fits := by
  cases l with
  | waiting call =>
      simp only [statement] at goes
      split at goes <;> cases goes
      exact .inl ⟨_, _, rfl, rfl, rfl⟩
  | locked held =>
      simp only [statement] at goes
      split at goes <;> cases goes
      · exact .inr (.inl ⟨_, _, rfl, rfl⟩)
      · exact .inr (.inr (.inl ⟨_, rfl, rfl⟩))
  | hit held existing =>
      simp only [statement] at goes
      split at goes <;> cases goes
  | missed held =>
      simp only [statement] at goes
      split at goes
      · split at goes <;> cases goes
        exact .inr (.inr (.inr (.inl ⟨_, _, rfl, rfl⟩)))
      · cases goes
  | funded held sum =>
      simp only [statement] at goes
      split at goes
      · split at goes <;> cases goes
        exact .inr (.inr (.inr (.inr (.inl ⟨_, _, _, rfl, rfl⟩))))
      · cases goes
  | written held sum fits =>
      simp only [statement] at goes
      split at goes
      · cases goes
      · split at goes <;> cases goes
        exact .inr (.inr (.inr (.inr (.inr ⟨_, _, _, rfl, rfl⟩))))
  | charged held sum fits => cases goes

/-- **The statements make up the transaction.** -/
theorem rest_run (l : DebitPoint) (db : Database) :
    l.rest.run db = (l.statement db).finish rest db := by
  cases l with
  | waiting call =>
      rw [rest, DebitCall.body, createEmailCheckWithDebit, run_lockOrganization_bind]
      cases found : activeOrganization call.input.orgId db with
      | none => rw [statement_waiting_none found]; rfl
      | some org => rw [statement_waiting_some found]; rfl
  | locked held =>
      rw [rest, run_get_bind, statement]
      split <;> rfl
  | hit held existing =>
      rw [rest, run_lockedBalance_bind, statement]
      split <;> rfl
  | missed held =>
      rw [rest, run_lockedBalance_bind, statement]
      split
      · split <;> rfl
      · rfl
  | funded held sum =>
      rw [rest, run_insertEmailCheck_bind, statement]
      split
      · split <;> rfl
      · rfl
  | written held sum fits =>
      rw [run_written, run_insertLedger_bind, statement]
      split
      · rfl
      · split <;> rfl
  | charged held sum fits => rfl

/-- A call keeps what it has locked. -/
theorem keeps (goes : l.statement db = .goOn next) : l.holds ⊆ next.holds := by
  rcases goOn_cases goes with ⟨call, held, rfl, rfl, -⟩ | ⟨held, c, rfl, rfl⟩ | ⟨held, rfl, rfl⟩ |
    ⟨held, sum, rfl, rfl⟩ | ⟨held, sum, fits, rfl, rfl⟩ | ⟨held, sum, fits, rfl, rfl⟩
  all_goals simp [holds]

/-- It takes what it wants, and nothing else. -/
theorem takes (goes : l.statement db = .goOn next) : next.holds ⊆ l.holds ++ l.wants := by
  rcases goOn_cases goes with ⟨call, held, rfl, rfl, same⟩ | ⟨held, c, rfl, rfl⟩ |
    ⟨held, rfl, rfl⟩ | ⟨held, sum, rfl, rfl⟩ | ⟨held, sum, fits, rfl, rfl⟩ |
    ⟨held, sum, fits, rfl, rfl⟩
  · rw [← same]
    simp [holds, wants]
  all_goals simp [holds, wants]

/-- A commit writes a check and its debit, or nothing. -/
theorem commit_cases {a : EmailCheckDebitResult} {write : Database → Database}
    (commits : l.statement db = .commit a write) :
    write = (fun db => db) ∨
      ∃ held sum fits, l = .charged held sum fits ∧ write = held.write fits := by
  cases l with
  | waiting call =>
      simp only [statement] at commits
      split at commits <;> cases commits
      exact .inl rfl
  | locked held =>
      simp only [statement] at commits
      split at commits <;> cases commits
  | hit held existing =>
      simp only [statement] at commits
      split at commits <;> cases commits
      exact .inl rfl
  | missed held =>
      simp only [statement] at commits
      split at commits
      · split at commits <;> cases commits
        exact .inl rfl
      · cases commits
  | funded held sum =>
      simp only [statement] at commits
      split at commits
      · split at commits <;> cases commits
      · cases commits
  | written held sum fits =>
      simp only [statement] at commits
      split at commits
      · cases commits
      · split at commits <;> cases commits
  | charged held sum fits =>
      cases commits
      exact .inr ⟨held, sum, fits, rfl, rfl⟩

end DebitPoint

/-! ## What calls for other organisations leave alone -/

namespace LockedCall

variable {held : LockedCall} {fits : held.call.input.Fits} {orgId : Uuid} {db : Database}

theorem findRecentEmailCheck_write (other : held.call.input.orgId ≠ orgId) (emailHash : String)
    (now : Date) :
    (held.write fits db).findRecentEmailCheck orgId emailHash now =
      db.findRecentEmailCheck orgId emailHash now := by
  have foreign : ¬ (held.check fits).Reusable orgId now := fun reusable => other reusable.1
  simp only [Database.findRecentEmailCheck, Database.recentEmailChecks, write,
    List.filter_append, List.filter_cons, List.filter_nil]
  simp [foreign]

theorem balance_write (other : held.call.input.orgId ≠ orgId) :
    balance orgId (held.write fits db).creditLedger = balance orgId db.creditLedger := by
  simp only [write, withEntry_creditLedger, balance_append]
  rw [if_neg (by exact other), add_zero]

theorem conflicts_write {entry : CreditLedgerEntry}
    (other : held.call.input.orgId ≠ entry.orgId) :
    Conflicts entry (held.write fits db).creditLedger ↔ Conflicts entry db.creditLedger := by
  have apart : ∀ k ∈ refKey entry, refKey held.entry ≠ some k := by
    rintro k has same
    obtain ⟨reference, -, rfl⟩ := Option.map_eq_some_iff.1 has
    exact other (congrArg Prod.fst (Option.some.inj same))
  simp only [Conflicts, write, withEntry_creditLedger, taken_append, taken_singleton]
  constructor
  · rintro ⟨k, has, before | mine⟩
    · exact ⟨k, has, before⟩
    · exact absurd mine (apart k has)
  · rintro ⟨k, has, before⟩
    exact ⟨k, has, .inl before⟩

theorem emailCheck_write {checkId : Uuid} (other : held.call.draw.rowId ≠ checkId) :
    (∃ c ∈ (held.write fits db).emailChecks, c.id = checkId) ↔
      ∃ c ∈ db.emailChecks, c.id = checkId := by
  simp only [write, List.mem_append, List.mem_singleton]
  constructor
  · rintro ⟨c, before | rfl, same⟩
    · exact ⟨c, before, same⟩
    · exact absurd same other
  · rintro ⟨c, before, same⟩
    exact ⟨c, .inl before, same⟩

end LockedCall

/-- What a call has read stays true when a call with other locks commits. -/
theorem DebitPoint.unaffected {l next other : DebitPoint} {a : EmailCheckDebitResult}
    {write : Database → Database} {db : Database} (goes : l.statement db = .goOn next)
    (commits : other.statement db = .commit a write)
    (apart : next.holds.Disjoint other.holds) : l.statement (write db) = .goOn next := by
  obtain rfl | ⟨by_, sum, fits, rfl, rfl⟩ := commit_cases commits
  · exact goes
  -- the two have different organisations, since both have locked theirs
  have orgs : ∀ orgId, .organization orgId ∈ next.holds → by_.call.input.orgId ≠ orgId := by
    rintro orgId mine rfl
    exact apart mine (by simp [holds])
  obtain ⟨call, held, rfl, rfl, rfl⟩ | ⟨held, c, rfl, rfl⟩ | ⟨held, rfl, rfl⟩ |
    ⟨held, have_, rfl, rfl⟩ | ⟨held, have_, fits', rfl, rfl⟩ |
    ⟨held, have_, fits', rfl, rfl⟩ := goOn_cases goes
  · exact goes
  · rw [← goes, statement, statement,
      LockedCall.findRecentEmailCheck_write (orgs _ (by simp [holds]))]
  · rw [← goes, statement, statement,
      LockedCall.findRecentEmailCheck_write (orgs _ (by simp [holds]))]
  · rw [← goes, statement, statement,
      LockedCall.balance_write (held.own ▸ orgs _ (by simp [holds]))]
  · have ids : by_.call.draw.rowId ≠ held.call.draw.rowId := by
      intro same
      have shared : LockKey.emailCheck held.call.draw.rowId ∈ (charged by_ sum fits).holds := by
        simp [holds, same]
      exact apart (by simp [holds]) shared
    rw [← goes]
    simp only [statement, LockedCall.emailCheck_write ids]
  · have foreign : by_.call.input.orgId ≠ held.entry.orgId := orgs _ (by simp [holds]; rfl)
    rw [← goes]
    simp only [statement, LockedCall.conflicts_write foreign]

/-- **The system of calls that debit.** -/
def debitLocking : Locking Database DbError EmailCheckDebitResult DebitPoint LockKey where
  statement := DebitPoint.statement
  rest := DebitPoint.rest
  holds := DebitPoint.holds
  wants := DebitPoint.wants
  rest_run := DebitPoint.rest_run
  keeps := DebitPoint.keeps
  takes := DebitPoint.takes
  unaffected := DebitPoint.unaffected

/-! ## What one call does -/

/-- The debit of a check always fits its columns. -/
theorem LockedCall.entry_fits (held : LockedCall) : held.entry.Fits := by
  constructor
  · show Int4 (-1)
    decide
  · intro note has
    cases has

/-- PostgreSQL cannot read the balance, or cannot take what the call would write. -/
def DebitCall.Hindered (call : DebitCall) (db : Database) : Prop :=
  ¬ Int4 (balance call.input.orgId db.creditLedger) ∨ ¬ call.input.Fits ∨
    (∃ c ∈ db.emailChecks, c.id = call.draw.rowId) ∨
      Conflicts (checkEntry call.input.orgId call.draw.rowId call.draw) db.creditLedger

/-- The call is charged: its check is new, and so is the debit of it. -/
structure DebitCall.Charges (call : DebitCall) (db : Database) (org : Organization)
    (check : EmailCheck) (sum : Int) (db' : Database) : Prop where
  commits : Txn.transaction call.body db = (.ok (.created check sum org), db')
  fits : call.input.Fits
  row : check = call.input.row fits call.draw.rowId call.draw.now
    (call.now.addDays org.retentionDays).timestamp
  free : ¬ Conflicts (checkEntry call.input.orgId call.draw.rowId call.draw) db.creditLedger
  store : db' = { db.withEntry (checkEntry call.input.orgId call.draw.rowId call.draw) with
    emailChecks := db.emailChecks ++ [check] }

section Call

variable {call : DebitCall} {db : Database} {org : Organization}

/-- Without an active organisation. -/
theorem transaction_unavailable (found : activeOrganization call.input.orgId db = none) :
    Txn.transaction call.body db = (.ok .orgUnavailable, db) := by
  have run : call.body.run db = .ok (.orgUnavailable, db) := by
    rw [show call.body = (DebitPoint.waiting call).rest from rfl, DebitPoint.rest_run,
      DebitPoint.statement_waiting_none found]
    rfl
  exact Txn.transaction_of_commits run

theorem run_body_found (found : activeOrganization call.input.orgId db = some org) :
    call.body.run db =
      (DebitPoint.locked ⟨call, org, activeOrganization_id found⟩).rest.run db := by
  rw [show call.body = (DebitPoint.waiting call).rest from rfl, DebitPoint.rest_run,
    DebitPoint.statement_waiting_some found]
  rfl

/-- With a check to reuse. -/
theorem transaction_hit {existing : EmailCheck}
    (found : activeOrganization call.input.orgId db = some org)
    (recent : db.findRecentEmailCheck call.input.orgId call.input.emailHash call.now =
      some existing) :
    Txn.transaction call.body db =
      if Int4 (balance call.input.orgId db.creditLedger) then
        (.ok (.cacheHit existing (balance call.input.orgId db.creditLedger)), db)
      else (.error .integerOutOfRange, db) := by
  have run := run_body_found found
  rw [DebitPoint.rest_run, DebitPoint.statement, recent, Locking.Outcome.finish,
    DebitPoint.rest_run, DebitPoint.statement, activeOrganization_id found] at run
  split
  · rename_i readable
    rw [if_pos readable] at run
    exact Txn.transaction_of_commits run
  · rename_i large
    rw [if_neg large] at run
    exact Txn.transaction_of_error run

/-- With none: the call is refused for want of a credit, hindered or charged. -/
theorem transaction_missed (found : activeOrganization call.input.orgId db = some org)
    (none_ : db.findRecentEmailCheck call.input.orgId call.input.emailHash call.now = none) :
    (balance call.input.orgId db.creditLedger < 1 ∧ Txn.transaction call.body db =
        (.ok (.insufficient (balance call.input.orgId db.creditLedger)), db)) ∨
      (call.Hindered db ∧ ∃ e, Txn.transaction call.body db = (.error e, db)) ∨
      ∃ check db', call.Charges db org check (balance call.input.orgId db.creditLedger - 1) db' := by
  have run := run_body_found found
  rw [DebitPoint.rest_run, DebitPoint.statement, none_, Locking.Outcome.finish,
    DebitPoint.rest_run, DebitPoint.statement, activeOrganization_id found] at run
  by_cases readable : Int4 (balance call.input.orgId db.creditLedger)
  swap
  · rw [if_neg readable] at run
    exact .inr (.inl ⟨.inl readable, _, Txn.transaction_of_error run⟩)
  rw [if_pos readable] at run
  by_cases poor : balance call.input.orgId db.creditLedger < 1
  · rw [if_pos poor] at run
    exact .inl ⟨poor, Txn.transaction_of_commits run⟩
  rw [if_neg poor, Locking.Outcome.finish, DebitPoint.rest_run, DebitPoint.statement] at run
  by_cases fits : call.input.Fits
  swap
  · rw [dif_neg fits] at run
    exact .inr (.inl ⟨.inr (.inl fits), _, Txn.transaction_of_error run⟩)
  rw [dif_pos fits] at run
  by_cases taken : ∃ c ∈ db.emailChecks, c.id = call.draw.rowId
  · rw [if_pos taken] at run
    exact .inr (.inl ⟨.inr (.inr (.inl taken)), _, Txn.transaction_of_error run⟩)
  rw [if_neg taken, Locking.Outcome.finish, DebitPoint.rest_run, DebitPoint.statement,
    if_neg (not_not.2 (LockedCall.entry_fits _))] at run
  by_cases conflicts :
      Conflicts (LockedCall.entry ⟨call, org, activeOrganization_id found⟩) db.creditLedger
  · rw [if_pos conflicts] at run
    exact .inr (.inl ⟨.inr (.inr (.inr conflicts)), _, Txn.transaction_of_error run⟩)
  · rw [if_neg conflicts, Locking.Outcome.finish, DebitPoint.rest_run, DebitPoint.statement] at run
    exact .inr (.inr ⟨_, _, Txn.transaction_of_commits run, fits, rfl, conflicts, rfl⟩)

/-- **What a call does**: it is charged for a check that it created, or changes nothing. -/
theorem transaction_cases (call : DebitCall) (db : Database) :
    (∃ result, Txn.transaction call.body db = (result, db) ∧
        ∀ check sum org, result ≠ .ok (.created check sum org)) ∨
      ∃ org check sum db', call.Charges db org check sum db' := by
  cases found : activeOrganization call.input.orgId db with
  | none => exact .inl ⟨_, transaction_unavailable found, fun _ _ _ same => (by cases same)⟩
  | some org =>
      cases recent : db.findRecentEmailCheck call.input.orgId call.input.emailHash call.now with
      | some existing =>
          have eq := transaction_hit found recent
          split at eq
          · exact .inl ⟨_, eq, fun _ _ _ same => (by cases same)⟩
          · exact .inl ⟨_, eq, fun _ _ _ same => (by cases same)⟩
      | none =>
          rcases transaction_missed found recent with ⟨-, eq⟩ | ⟨-, e, eq⟩ | ⟨check, db', charges⟩
          · exact .inl ⟨_, eq, fun _ _ _ same => (by cases same)⟩
          · exact .inl ⟨_, eq, fun _ _ _ same => (by cases same)⟩
          · exact .inr ⟨org, check, _, db', charges⟩

end Call

/-! ## Calls one after another -/

section Log

variable {ι : Type} (call : ι → DebitCall) {start db : Database}
  {log : List (ι × Except DbError EmailCheckDebitResult)}

/-- The checks that were created, with who created them. -/
def createdChecks (log : List (ι × Except DbError EmailCheckDebitResult)) :
    List (ι × EmailCheck) :=
  log.filterMap fun entry =>
    match entry.2 with
    | .ok (.created check _ _) => some (entry.1, check)
    | _ => none

/-- The debit of a check that was created. -/
def debitOf (made : ι × EmailCheck) : CreditLedgerEntry :=
  checkEntry (call made.1).input.orgId made.2.id (call made.1).draw

/-- A database with checks and their debits added. -/
def withChecks (db : Database) (made : List (ι × EmailCheck)) : Database :=
  { db with
    creditLedger := db.creditLedger ++ made.map (debitOf call)
    emailChecks := db.emailChecks ++ made.map Prod.snd }

theorem mem_createdChecks (i : ι) (check : EmailCheck) :
    (i, check) ∈ createdChecks log ↔
      ∃ sum org, (i, .ok (.created check sum org)) ∈ log := by
  simp only [createdChecks, List.mem_filterMap]
  constructor
  · rintro ⟨⟨j, result⟩, member, same⟩
    split at same
    · rename_i made sum org eq
      obtain ⟨rfl, rfl⟩ := Prod.mk.inj (Option.some.inj same)
      exact ⟨sum, org, eq ▸ member⟩
    · cases same
  · rintro ⟨sum, org, member⟩
    exact ⟨_, member, rfl⟩

theorem createdChecks_append (more : List (ι × Except DbError EmailCheckDebitResult)) :
    createdChecks (log ++ more) = createdChecks log ++ createdChecks more :=
  List.filterMap_append

theorem createdChecks_other {i : ι} {result : Except DbError EmailCheckDebitResult}
    (other : ∀ check sum org, result ≠ .ok (.created check sum org)) :
    createdChecks [(i, result)] = [] := by
  cases result with
  | error e => rfl
  | ok answer =>
      cases answer with
      | created check sum org => exact absurd rfl (other check sum org)
      | cacheHit check sum => rfl
      | insufficient sum => rfl
      | orgUnavailable => rfl

theorem createdChecks_sublist : ((createdChecks log).map Prod.fst).Sublist (log.map Prod.fst) := by
  induction log with
  | nil => exact .slnil
  | cons entry log ih =>
      obtain ⟨i, result⟩ := entry
      simp only [createdChecks, List.filterMap_cons]
      split
      · exact ih.cons i
      · rename_i made same
        split at same
        · cases same
          exact ih.cons_cons i
        · cases same

/-- What calls one after another have left: the database they found, with the checks that
were created, and for each the one row that refers to it. -/
structure Charged (start : Database) (made : List (ι × EmailCheck)) (db : Database) : Prop where
  store : db = withChecks call start made
  own : ∀ m ∈ made, m.2.orgId = (call m.1).input.orgId
  one : ∀ m ∈ made, db.creditLedger.filter (fun e => refKey e = refKey (debitOf call m)) =
    [debitOf call m]

/-- One more check, whose debit has a reference nobody had. -/
theorem Charged.add {made : List (ι × EmailCheck)} (charged : Charged call start made db)
    {i : ι} {org : Organization} {check : EmailCheck} {sum : Int} {db' : Database}
    (charges : (call i).Charges db org check sum db') :
    Charged call start (made ++ [(i, check)]) db' := by
  have debit : debitOf call (i, check) =
      checkEntry (call i).input.orgId (call i).draw.rowId (call i).draw := by
    rw [debitOf, charges.row]
    rfl
  have free := charges.free
  rw [← debit] at free
  have rows : db'.creditLedger = db.creditLedger ++ [debitOf call (i, check)] := by
    rw [charges.store, debit]
    rfl
  refine ⟨?_, ?_, ?_⟩
  · rw [charges.store, charged.store, ← debit]
    simp [withChecks, Database.withEntry]
  · intro m member
    rcases List.mem_append.1 member with old | new
    · exact charged.own m old
    · obtain rfl := List.mem_singleton.1 new
      rw [charges.row]
      rfl
  · intro m member
    rw [rows, List.filter_append]
    rcases List.mem_append.1 member with old | new
    · have before := charged.one m old
      have other : refKey (debitOf call (i, check)) ≠ refKey (debitOf call m) := by
        intro same
        have listed : debitOf call m ∈ db.creditLedger :=
          List.mem_of_mem_filter (before ▸ List.mem_singleton.2 rfl)
        exact free ⟨_, same.trans rfl, debitOf call m, listed, rfl⟩
      rw [before]
      simp [other]
    · obtain rfl := List.mem_singleton.1 new
      have nobody : db.creditLedger.filter
          (fun e => refKey e = refKey (debitOf call (i, check))) = [] := by
        apply List.filter_eq_nil_iff.2
        intro e member same
        exact free ⟨_, rfl, e, member, of_decide_eq_true same⟩
      rw [nobody]
      simp

/-- **Every check is charged once**, and nothing else happens. -/
theorem charged_of_serial (serial : Serial (fun i => (call i).body) start log db) :
    Charged call start (createdChecks log) db := by
  induction serial with
  | nil =>
      refine ⟨?_, ?_, ?_⟩
      · simp [createdChecks, withChecks]
      · intro m member
        exact absurd member List.not_mem_nil
      · intro m member
        exact absurd member List.not_mem_nil
  | snoc i _ ih =>
      rename_i log db _
      rw [createdChecks_append]
      rcases transaction_cases (call i) db with
        ⟨result, eq, other⟩ | ⟨org, check, sum, db', charges⟩
      · rw [eq, createdChecks_other other, List.append_nil]
        exact ih
      · rw [charges.commits]
        exact ih.add call charges

/-! ## A rush for one address -/

/-- Calls for one address of an active organisation that has the credit, with no check to
reuse, all within one window: each is made less than seven days after, and within the
retention of, any check another of them can create. -/
structure Rush (start : Database) (orgId : Uuid) (emailHash : String) (org : Organization) :
    Prop where
  address : ∀ i, (call i).input.orgId = orgId ∧ (call i).input.emailHash = emailHash
  active : activeOrganization orgId start = some org
  unserved : ∀ i, ∀ c ∈ start.emailChecks, c.emailHash = emailHash →
    ¬ c.Reusable orgId (call i).now
  window : ∀ i j, Date.timestamp ((call j).now - emailCacheWindowMs) < (call i).draw.now
  retained : ∀ i j, (call j).now.timestamp < ((call i).now.addDays org.retentionDays).timestamp
  funds : 1 ≤ balance orgId start.creditLedger

/-- What a call of the rush answers once the check is there. -/
def Reuses (start : Database) (check : EmailCheck) (i : ι)
    (result : Except DbError EmailCheckDebitResult) : Prop :=
  (∃ sum, result = .ok (.cacheHit check sum)) ∨
    ∃ e, result = .error e ∧ (call i).Hindered start

/-- Nobody has been charged yet, or the first one who could be. -/
def RushState (start : Database) (orgId : Uuid) (org : Organization)
    (log : List (ι × Except DbError EmailCheckDebitResult)) (db : Database) : Prop :=
  (db = start ∧ ∀ entry ∈ log, ∃ e, entry.2 = .error e ∧ (call entry.1).Hindered start) ∨
    ∃ first check, (call first).Charges start org check (balance orgId start.creditLedger - 1) db ∧
      (∃ sum, (first, .ok (.created check sum org)) ∈ log) ∧
        ∀ entry ∈ log, (∃ sum, entry = (first, .ok (.created check sum org))) ∨
          Reuses call start check entry.1 entry.2

variable {call} {orgId : Uuid} {emailHash : String} {org : Organization}

theorem Rush.nothing_recent (rush : Rush call start orgId emailHash org) (i : ι) :
    start.emailChecks.filter
      (fun c => decide (c.emailHash = emailHash) && c.Reusable orgId (call i).now) = [] := by
  apply List.filter_eq_nil_iff.2
  intro c member
  simp only [Bool.and_eq_true, decide_eq_true_eq, not_and]
  exact rush.unserved i c member

/-- Before: nothing to reuse. -/
theorem Rush.missed (rush : Rush call start orgId emailHash org) (i : ι) :
    start.findRecentEmailCheck (call i).input.orgId (call i).input.emailHash (call i).now =
      none := by
  rw [(rush.address i).1, (rush.address i).2, Database.findRecentEmailCheck,
    Database.recentEmailChecks, rush.nothing_recent, List.mergeSort_nil]
  rfl

/-- After: the check of the first, and nothing else. -/
theorem Rush.recent (rush : Rush call start orgId emailHash org) {first : ι} {check : EmailCheck}
    {sum : Int} (charges : (call first).Charges start org check sum db) (i : ι) :
    db.findRecentEmailCheck (call i).input.orgId (call i).input.emailHash (call i).now =
      some check := by
  have reusable : check.Reusable orgId (call i).now := by
    rw [charges.row]
    exact ⟨(rush.address first).1, rush.window first i, rush.retained first i⟩
  have hash : check.emailHash = emailHash := by
    rw [charges.row]
    exact (rush.address first).2
  rw [(rush.address i).1, (rush.address i).2]
  have only : db.emailChecks.filter
      (fun c => decide (c.emailHash = emailHash) && c.Reusable orgId (call i).now) = [check] := by
    rw [charges.store]
    show (start.emailChecks ++ [check]).filter _ = _
    rw [List.filter_append, rush.nothing_recent]
    simp [hash, reusable]
  rw [Database.findRecentEmailCheck, Database.recentEmailChecks, only, List.mergeSort_singleton]
  rfl

/-- The check costs one credit. -/
theorem Rush.balance_charged (rush : Rush call start orgId emailHash org) {first : ι}
    {check : EmailCheck} {sum : Int} (charges : (call first).Charges start org check sum db) :
    balance orgId db.creditLedger = balance orgId start.creditLedger - 1 := by
  have same : (checkEntry (call first).input.orgId (call first).draw.rowId
      (call first).draw).orgId = orgId := (rush.address first).1
  rw [charges.store]
  simp only [withEntry_creditLedger, balance_append]
  rw [if_pos same]
  rfl

/-- **One more call of the rush.** -/
theorem Rush.step (rush : Rush call start orgId emailHash org) {i : ι}
    (state : RushState call start orgId org log db) :
    RushState call start orgId org
      (log ++ [(i, (Txn.transaction (call i).body db).1)])
      (Txn.transaction (call i).body db).2 := by
  have found : activeOrganization (call i).input.orgId start = some org := by
    rw [(rush.address i).1]
    exact rush.active
  rcases state with ⟨rfl, hindered⟩ | ⟨first, check, charges, listed, others⟩
  · rcases transaction_missed found (rush.missed i) with
      ⟨poor, -⟩ | ⟨stopped, e, eq⟩ | ⟨check, db', charges⟩
    · have funds := rush.funds
      rw [(rush.address i).1] at poor
      omega
    · rw [eq]
      refine .inl ⟨rfl, fun entry member => ?_⟩
      rcases List.mem_append.1 member with old | new
      · exact hindered entry old
      · obtain rfl := List.mem_singleton.1 new
        exact ⟨e, rfl, stopped⟩
    · rw [(rush.address i).1] at charges
      rw [charges.commits]
      refine .inr ⟨i, check, charges, ⟨_, List.mem_append_right _ (List.mem_singleton.2 rfl)⟩,
        fun entry member => ?_⟩
      rcases List.mem_append.1 member with old | new
      · obtain ⟨e, eq, stopped⟩ := hindered entry old
        exact .inr (.inr ⟨e, eq, stopped⟩)
      · exact .inl ⟨_, List.mem_singleton.1 new⟩
  · have still : activeOrganization (call i).input.orgId db = some org := by
      rw [charges.store]
      exact found
    have left := rush.balance_charged charges
    have eq := transaction_hit still (rush.recent charges i)
    rw [(rush.address i).1, left] at eq
    have answer : (Txn.transaction (call i).body db).2 = db ∧
        Reuses call start check i (Txn.transaction (call i).body db).1 := by
      rw [eq]
      split
      · exact ⟨rfl, .inl ⟨_, rfl⟩⟩
      · rename_i large
        refine ⟨rfl, .inr ⟨_, rfl, .inl fun readable => large ?_⟩⟩
        rw [(rush.address i).1] at readable
        have funds := rush.funds
        unfold Int4 at readable ⊢
        omega
    rw [answer.1]
    refine .inr ⟨first, check, charges, ?_, fun entry member => ?_⟩
    · obtain ⟨sum, member⟩ := listed
      exact ⟨sum, List.mem_append_left _ member⟩
    · rcases List.mem_append.1 member with old | new
      · exact others entry old
      · obtain rfl := List.mem_singleton.1 new
        exact .inr answer.2

theorem Rush.run (rush : Rush call start orgId emailHash org)
    (serial : Serial (fun i => (call i).body) start log db) :
    RushState call start orgId org log db := by
  induction serial with
  | nil => exact .inl ⟨rfl, fun entry member => absurd member List.not_mem_nil⟩
  | snoc i _ ih => exact rush.step ih

end Log

/-! ## Calls all at once -/

section Concurrent

variable {ι : Type}

/-- Calls that race, and the database they race on. -/
abbrev DebitRace (ι : Type) : Type :=
  Locking.Race ι Database DbError EmailCheckDebitResult DebitPoint

/-- Every call has yet to lock its organisation. -/
def DebitRace.begin (call : ι → DebitCall) (start : Database) : DebitRace ι :=
  ⟨start, fun i => .running (.waiting (call i))⟩

/-- **What the calls come to, they come to one after another.** -/
theorem debits_serializable [DecidableEq ι] {call : ι → DebitCall} {start : Database}
    {race : DebitRace ι}
    {tr : List (Transition (DebitRace ι) ι)}
    (run : Run debitLocking.Step (DebitRace.begin call start) tr race) :
    ∃ log : List (ι × Except DbError EmailCheckDebitResult),
      Serial (fun i => (call i).body) start log race.store ∧ (log.map Prod.fst).Nodup ∧
        ∀ i result, (i, result) ∈ log ↔ race.phase i = .ended result := by
  have unlocked : ∀ i, debitLocking.holds (DebitPoint.waiting (call i)) = [] := fun _ => rfl
  obtain ⟨log, serialized⟩ := Locking.serializable unlocked run
  exact ⟨log, serialized.serial, serialized.once, serialized.ended_iff⟩

/-- Locks are wanted in an order: organisations, checks, references. -/
def LockKey.rank : LockKey → ℕ
  | .organization _ => 0
  | .emailCheck _ => 1
  | .reference _ _ => 2

/-- The calls never wait for each other in a circle. -/
theorem debits_progress {race : DebitRace ι} {i : ι} {l : DebitPoint}
    (here : race.phase i = .running l) : ∃ j, debitLocking.Allows race j := by
  refine Locking.progress LockKey.rank 2 (fun l k wanted => ?_) here
  cases l
  all_goals
    simp [debitLocking, DebitPoint.wants] at wanted
  all_goals
    subst wanted
    simp [debitLocking, DebitPoint.holds, LockKey.rank]

/-- Every check that was created has exactly one debit, which refers to it, and no call left
anything else. -/
def EveryCheckCharged (call : ι → DebitCall) (start : Database) (race : DebitRace ι) : Prop :=
  ∃ made : List (ι × EmailCheck), (made.map Prod.fst).Nodup ∧
    (∀ i check, (i, check) ∈ made ↔
      ∃ sum org, race.phase i = .ended (.ok (.created check sum org))) ∧
    race.store = withChecks call start made ∧
    ∀ m ∈ made, race.store.creditLedger.filter (fun e => e.orgId = m.2.orgId ∧
        e.reason = .singleCheck ∧ e.referenceId = some m.2.id.text) = [debitOf call m]

theorem everyCheckCharged_of_serial {call : ι → DebitCall} {start : Database}
    {race : DebitRace ι} {log : List (ι × Except DbError EmailCheckDebitResult)}
    (serial : Serial (fun i => (call i).body) start log race.store)
    (once : (log.map Prod.fst).Nodup)
    (ended : ∀ i result, (i, result) ∈ log ↔ race.phase i = .ended result) :
    EveryCheckCharged call start race := by
  have charged := charged_of_serial call serial
  refine ⟨createdChecks log, createdChecks_sublist.nodup once, ?_, charged.store, ?_⟩
  · intro i check
    simp only [mem_createdChecks, ended]
  · intro m member
    -- rows of the reason and the reference are among the rows of the key, which is one row
    have key : ∀ e : CreditLedgerEntry, (e.orgId = m.2.orgId ∧ e.reason = .singleCheck ∧
        e.referenceId = some m.2.id.text) ↔
          refKey e = refKey (debitOf call m) ∧ e.reason = .singleCheck := by
      intro e
      have mine : refKey (debitOf call m) = some (m.2.orgId, m.2.id.text) := by
        rw [charged.own m member]
        rfl
      rw [mine, refKey, Option.map_eq_some_iff]
      constructor
      · rintro ⟨org, reason, reference⟩
        exact ⟨⟨_, reference, by rw [org]⟩, reason⟩
      · rintro ⟨⟨reference, has, same⟩, reason⟩
        obtain ⟨org, rfl⟩ := Prod.mk.inj same
        exact ⟨org, reason, has⟩
    simp only [key]
    have both := congrArg (List.filter fun e => decide (e.reason = .singleCheck))
      (charged.one m member)
    rw [List.filter_filter] at both
    simp only [Bool.decide_and, Bool.and_comm] at both ⊢
    rw [both]
    rfl

/-- One call has created the check, for one credit. -/
structure ChargedOnce (call : ι → DebitCall) (start : Database) (race : DebitRace ι) (first : ι)
    (check : EmailCheck) : Prop where
  created : ∃ sum org, race.phase first = .ended (.ok (.created check sum org))
  ledger : race.store.creditLedger = start.creditLedger ++ [debitOf call (first, check)]
  checks : race.store.emailChecks = start.emailChecks ++ [check]

/-- What a rush has come to so far. -/
def RushSoFar (call : ι → DebitCall) (start : Database) (race : DebitRace ι) : Prop :=
  (race.store = start ∧ ∀ i result, race.phase i = .ended result →
      ∃ e, result = .error e ∧ (call i).Hindered start) ∨
    ∃ first check, ChargedOnce call start race first check ∧
      ∀ i, i ≠ first → ∀ result, race.phase i = .ended result → Reuses call start check i result

theorem rushSoFar_of_serial {call : ι → DebitCall} {start : Database} {race : DebitRace ι}
    {log : List (ι × Except DbError EmailCheckDebitResult)} {orgId : Uuid} {emailHash : String}
    {org : Organization} (rush : Rush call start orgId emailHash org)
    (serial : Serial (fun i => (call i).body) start log race.store)
    (ended : ∀ i result, (i, result) ∈ log ↔ race.phase i = .ended result) :
    RushSoFar call start race := by
  rcases rush.run serial with ⟨same, hindered⟩ | ⟨first, check, charges, ⟨sum, listed⟩, others⟩
  · exact .inl ⟨same, fun i result here => hindered _ ((ended i result).2 here)⟩
  · have debit : debitOf call (first, check) =
        checkEntry (call first).input.orgId (call first).draw.rowId (call first).draw := by
      rw [debitOf, charges.row]
      rfl
    refine .inr ⟨first, check, ⟨⟨sum, org, (ended _ _).1 listed⟩, ?_, ?_⟩,
      fun i other result here => ?_⟩
    · rw [charges.store, debit]
      rfl
    · rw [charges.store]
    · rcases others _ ((ended i result).2 here) with ⟨_, same⟩ | reuses
      · exact absurd (congrArg Prod.fst same) other
      · exact reuses

/-- In the end of a rush in which nobody is hindered, somebody was charged, and everybody else
was given its check. -/
theorem RushSoFar.end_ {call : ι → DebitCall} {start : Database} {race : DebitRace ι}
    (state : RushSoFar call start race) (somebody : Nonempty ι)
    (free : ∀ i, ¬ (call i).Hindered start) (over_ : ∀ i, ∃ result, race.phase i = .ended result) :
    ∃ first check, ChargedOnce call start race first check ∧
      ∀ i, i ≠ first → ∃ sum, race.phase i = .ended (.ok (.cacheHit check sum)) := by
  rcases state with ⟨-, failed⟩ | ⟨first, check, charged, others⟩
  · obtain ⟨i⟩ := somebody
    obtain ⟨result, here⟩ := over_ i
    obtain ⟨e, -, hindered⟩ := failed i result here
    exact absurd hindered (free i)
  · refine ⟨first, check, charged, ?_⟩
    intro i other
    obtain ⟨result, here⟩ := over_ i
    rcases others i other result here with ⟨sum, rfl⟩ | ⟨e, -, hindered⟩
    · exact ⟨sum, here⟩
    · exact absurd hindered (free i)

/-- **One charge for an address in the cache window.**  Whatever calls race, and however far
they have come:

* each check that was created has exactly one debit, and a call that returned anything else
  changed nothing;
* while a call is running, some call can go on;
* in a rush for one address the first call that is charged creates the check and pays the one
  credit, and every other call that returns is given that check.  A call fails only where
  PostgreSQL cannot read the balance or take its rows; where it can, in the end exactly one
  call has created the check, and all others have it from the cache. -/
theorem one_charge [DecidableEq ι] (call : ι → DebitCall) (start : Database) (race : DebitRace ι)
    (tr : List (Transition (DebitRace ι) ι))
    (run : Run debitLocking.Step (DebitRace.begin call start) tr race) :
    EveryCheckCharged call start race ∧
      (∀ i l, race.phase i = .running l → ∃ j, debitLocking.Allows race j) ∧
      ∀ orgId emailHash org, Rush call start orgId emailHash org →
        RushSoFar call start race ∧
          (Nonempty ι → (∀ i, ¬ (call i).Hindered start) →
            (∀ i, ∃ result, race.phase i = .ended result) →
              ∃ first check, ChargedOnce call start race first check ∧
                ∀ i, i ≠ first → ∃ sum, race.phase i = .ended (.ok (.cacheHit check sum))) := by
  obtain ⟨log, serial, once, ended⟩ := debits_serializable run
  refine ⟨everyCheckCharged_of_serial serial once ended, fun i l here => debits_progress here, ?_⟩
  intro orgId emailHash org rush
  have state := rushSoFar_of_serial rush serial ended
  exact ⟨state, state.end_⟩

end Concurrent

/-! ## Two calls for one address, beside one of somebody else -/

instance (call : DebitCall) (db : Database) : Decidable (call.Hindered db) :=
  inferInstanceAs (Decidable (¬ _ ∨ ¬ _ ∨ (∃ _ ∈ db.emailChecks, _) ∨ _))

/-- What the engine has to tell about the address. -/
def racedSnapshot : StoredEmailCheck :=
  { engine :=
      { email := "ann@gmail.com"
        syntax_ := ⟨true, "ann", "gmail.com"⟩
        mx := ⟨some true, ["gmail-smtp-in.l.google.com."], ""⟩
        disposable := false
        roleAccount := false
        freeProvider := true
        smtp := none
        durationMs := 3 }
    score := 50
    disclaimer := Core.aggregateDisclaimer
    typo := none
    smtpStatus := .skipped
    operationalReason := none }

/-- A call of organisation `org`, as number `k` of the day. -/
def racedCall (org k : ℕ) : DebitCall where
  input :=
    { orgId := .numbered org
      emailNormalized := Js.ofString "ann@gmail.com"
      emailHash := "89fc83f682b5eeb73a8fccb73d43deeee9f58041fc232c15a43cc349132e1273"
      verdict := .unknown
      reasonCodes := [.smtpNotChecked]
      checksJson := racedSnapshot }
  draw := ⟨1000 * k, .numbered k, .numbered k, .numbered k⟩
  now := k

/-- Two organisations with five credits each. -/
def racedDatabase : Database where
  organizations := [⟨.numbered 1, none, 30, true⟩, ⟨.numbered 2, none, 30, true⟩]
  creditLedger := [⟨.numbered 8, .numbered 1, 5, .grant, none, none, 0⟩,
    ⟨.numbered 9, .numbered 2, 5, .grant, none, none, 0⟩]
  emailChecks := []
  phoneChecks := []
  batches := []
  auditEvents := []

/-- Callers 0 and 1 ask for organisation 1, caller 2 for organisation 2. -/
def mixedCalls (i : Fin 3) : DebitCall := racedCall (i / 2 + 1) (i + 3)

/-- Callers 0 and 2 take turns, and caller 1 comes when 0 has let go of the row. -/
def mixedOrder : List (Fin 3) := [0, 2, 0, 2, 2, 0, 0, 2, 0, 0, 1, 2, 1, 2, 1]

/-- Both ask for organisation 1, and the second comes first. -/
def rushCalls (i : Fin 2) : DebitCall := racedCall 1 (i + 3)

local instance neZero_two : NeZero 2 := ⟨by decide⟩

def rushOrder : List (Fin 2) := [1, 1, 1, 1, 1, 1, 0, 0, 0]

theorem rushCalls_rush : Rush rushCalls racedDatabase (.numbered 1)
    "89fc83f682b5eeb73a8fccb73d43deeee9f58041fc232c15a43cc349132e1273"
    ⟨.numbered 1, none, 30, true⟩ where
  address := by decide
  active := by decide
  unserved := fun _ c member => absurd member List.not_mem_nil
  window := by decide
  retained := by decide
  funds := by decide

theorem one_charge_raced :
    EveryCheckCharged mixedCalls racedDatabase
        (mixedOrder.foldl debitLocking.after (DebitRace.begin mixedCalls racedDatabase)) ∧
      ∃ first check, ChargedOnce rushCalls racedDatabase
          (rushOrder.foldl debitLocking.after (DebitRace.begin rushCalls racedDatabase))
          first check ∧
        ∀ i, i ≠ first → ∃ sum,
          (rushOrder.foldl debitLocking.after (DebitRace.begin rushCalls racedDatabase)).phase i =
            .ended (.ok (.cacheHit check sum)) := by
  have mixed : Executable debitLocking.Allows debitLocking.after
      (DebitRace.begin mixedCalls racedDatabase) mixedOrder := by decide +kernel
  have rushed : Executable debitLocking.Allows debitLocking.after
      (DebitRace.begin rushCalls racedDatabase) rushOrder := by decide +kernel
  obtain ⟨tr, run⟩ := mixed.run
  obtain ⟨tr', run'⟩ := rushed.run
  have free : ∀ i, ¬ (rushCalls i).Hindered racedDatabase := by decide +kernel
  have over_ : ∀ i, ((rushOrder.foldl debitLocking.after
      (DebitRace.begin rushCalls racedDatabase)).phase i).isEnded = true := by decide +kernel
  refine ⟨(one_charge mixedCalls racedDatabase _ tr run).1, ?_⟩
  exact ((one_charge rushCalls racedDatabase _ tr' run').2.2 _ _ _ rushCalls_rush).2 ⟨0⟩ free
    fun i => Locking.Phase.isEnded_iff.1 (over_ i)

/-- Organisation 1 with two grants that the ledger takes, and whose sum no `integer` is. -/
def richDatabase : Database :=
  { racedDatabase with
    creditLedger := [⟨.numbered 8, .numbered 1, 2147483647, .grant,
        some "grant:5feceb66ffc86f38d952786c6d696c79", none, 0⟩,
      ⟨.numbered 9, .numbered 1, 2147483647, .grant,
        some "grant:6b86b273ff34fce19d6b804eff5a3f57", none, 0⟩] }

/-- One after the other. -/
def failingOrder : List (Fin 2) := [1, 1, 1, 0, 0, 0]

theorem rushCalls_rich : Rush rushCalls richDatabase (.numbered 1)
    "89fc83f682b5eeb73a8fccb73d43deeee9f58041fc232c15a43cc349132e1273"
    ⟨.numbered 1, none, 30, true⟩ where
  address := by decide
  active := by decide
  unserved := fun _ c member => absurd member List.not_mem_nil
  window := by decide
  retained := by decide
  funds := by decide

/-- **Nobody creates the check.**  The credit suffices by far, and the sum of the ledger cannot be
read: every call of the rush fails. -/
theorem large_balance_creates_nothing :
    Rush rushCalls richDatabase (.numbered 1)
        "89fc83f682b5eeb73a8fccb73d43deeee9f58041fc232c15a43cc349132e1273"
        ⟨.numbered 1, none, 30, true⟩ ∧
      Executable debitLocking.Allows debitLocking.after (DebitRace.begin rushCalls richDatabase)
        failingOrder ∧
      (∀ i, ((failingOrder.foldl debitLocking.after
        (DebitRace.begin rushCalls richDatabase)).phase i).isEnded = true) ∧
      ∀ first check, ¬ ChargedOnce rushCalls richDatabase
        (failingOrder.foldl debitLocking.after (DebitRace.begin rushCalls richDatabase)) first
        check := by
  have nothing : (failingOrder.foldl debitLocking.after
      (DebitRace.begin rushCalls richDatabase)).store.emailChecks.length = 0 := by decide +kernel
  refine ⟨rushCalls_rich, by decide +kernel, by decide +kernel, fun first check charged => ?_⟩
  rw [charged.checks, List.length_append, List.length_singleton] at nothing
  exact Nat.succ_ne_zero _ nothing

end Tozalist.Credits
