/-
# Tozalist.Credits.Exactness -- when every sum of credits is exact

A delta is a 32-bit integer, and so is every sum of deltas that is read, though a grant may
be for any safe integer of JavaScript and sums go on forever.  Over every run of the
operations on credits:

* `exactSums_iff` -- every sum is read as it is exactly when all running sums fit;
* `effect` -- a call adds the row it is for, unless the row does not fit its columns or its
  reference is known;
* `balances_exact_iff` -- so calls end well and sums stay exact in the runs whose rows fit,
  alone and in the running sums, and in no others;
* `large_grant_fails` -- one valid grant that ends in an error, and two that make the balance
  unreadable.
-/
import Tozalist.Credits.CheckRace
import Tozalist.Credits.GrantReplay
import Tozalist.Db.Statements

namespace Tozalist.Credits

set_option autoImplicit false

open Db
open Theory (Executable Run StepOf Transition Txn)
open Theory.Table

/-! ## Sums that are read as they are -/

/-- **Every reading of a sum gives the sum.** -/
structure ExactSums (db : Database) : Prop where
  balance : ∀ orgId, getCreditBalance db orgId = .ok (balance orgId db.creditLedger)
  locked : ∀ orgId,
    Txn.transaction (lockedBalance orgId) db = (.ok (Db.balance orgId db.creditLedger), db)
  running : ∀ timeText orgId from_ to_ limit, ∃ page,
    getLedgerWithRunningBalance timeText db orgId from_ to_ limit = .ok page ∧
      ∀ r ∈ page, r.runningBalance = runningSum orgId db.creditLedger r.entry

theorem exactSums_iff {db : Database} :
    ExactSums db ↔ ∀ orgId, RunningSumsFit orgId db.creditLedger := by
  constructor
  · intro exact_ orgId
    obtain ⟨page, answers, -⟩ := exact_.running (fun _ => "") orgId none none 0
    exact getLedgerWithRunningBalance_ok_iff.1 ⟨page, answers⟩
  · intro fit
    refine ⟨fun orgId => getCreditBalance_ok (fit orgId).balance, ?_, ?_⟩
    · intro orgId
      exact Txn.transaction_of_commits (lockedBalance_commits.2 ⟨(fit orgId).balance, rfl, rfl⟩)
    · intro timeText orgId from_ to_ limit
      obtain ⟨page, answers⟩ := getLedgerWithRunningBalance_ok_iff.2 (fit orgId)
      exact ⟨page, answers, fun r member => (mem_page answers member).2⟩

/-- A row of another organisation changes no running sum. -/
theorem runningSumsFit_append_other {orgId : Uuid} {rows : List CreditLedgerEntry}
    {e : CreditLedgerEntry} (other : e.orgId ≠ orgId) :
    RunningSumsFit orgId (rows ++ [e]) ↔ RunningSumsFit orgId rows := by
  have same : ∀ r, runningSum orgId (rows ++ [e]) r = runningSum orgId rows r := by
    intro r
    rw [runningSum, total_append, total_singleton, if_neg fun own => other own.1, add_zero]
    rfl
  constructor
  · intro fit r member own
    rw [← same]
    exact fit r (List.mem_append_left _ member) own
  · intro fit r member own
    rw [same]
    rcases List.mem_append.1 member with old | new
    · exact fit r old own
    · obtain rfl := List.mem_singleton.1 new
      exact absurd own other

/-! ## How a call ends -/

/-- The error a call ends with. -/
def failureOf {α : Type} : Except DbError α → Option DbError
  | .ok _ => none
  | .error e => some e

variable (sha256Hex : JsString → String)

/-- The error an action ends with. -/
def World.failure (w : World) : Action → Option DbError
  | .grant input draw now => failureOf (grantCreditsWithAudit sha256Hex input draw now w.db).1
  | .emailCheck input draw now =>
      failureOf (Txn.transaction (createEmailCheckWithDebit input draw now) w.db).1
  | .phoneCheck input draw now =>
      failureOf (Txn.transaction (createPhoneCheckWithDebit input draw now) w.db).1
  | .createBatch input draw now =>
      failureOf (Txn.transaction (createBatchWithReservation input draw now) w.db).1
  | .claimBatch id => failureOf (Txn.transaction (claimBatchForProcessing id) w.db).1
  | .completeBatch input draw now =>
      failureOf (Txn.transaction (Db.completeBatch input draw now) w.db).1
  | .failBatch input draw => failureOf (Txn.transaction (Db.failBatch input draw) w.db).1
  | .deleteBatch id orgId draw =>
      failureOf (Txn.transaction (deleteBatchForOrg id orgId draw) w.db).1

/-- The action is a grant. -/
def Action.IsGrant : Action → Prop
  | .grant _ _ _ => True
  | _ => False

/-- **A call ends well**: not in an arithmetic error, and a grant in a `GrantResult`. -/
structure EndsWell (w : World) (a : Action) : Prop where
  arithmetic : w.failure sha256Hex a ≠ some .integerOutOfRange
  grant : a.IsGrant → w.failure sha256Hex a = none

/-! ## The row an action is for -/

/-- An email check that nothing but its debit can keep from being charged. -/
structure DebitsEmail (input : NewEmailCheckInput) (draw : Draw) (now : Date) (db : Database) :
    Prop where
  active : activeOrganization input.orgId db ≠ none
  missed : db.findRecentEmailCheck input.orgId input.emailHash now = none
  enough : 1 ≤ balance input.orgId db.creditLedger
  fits : input.Fits
  fresh : ¬ ∃ c ∈ db.emailChecks, c.id = draw.rowId

instance (input : NewEmailCheckInput) (draw : Draw) (now : Date) (db : Database) :
    Decidable (DebitsEmail input draw now db) :=
  decidable_of_iff (activeOrganization input.orgId db ≠ none ∧
      db.findRecentEmailCheck input.orgId input.emailHash now = none ∧
      1 ≤ balance input.orgId db.creditLedger ∧ input.Fits ∧
      ¬ ∃ c ∈ db.emailChecks, c.id = draw.rowId)
    ⟨fun ⟨a, b, c, d, e⟩ => ⟨a, b, c, d, e⟩, fun ⟨a, b, c, d, e⟩ => ⟨a, b, c, d, e⟩⟩

/-- The same for a phone check. -/
structure DebitsPhone (input : NewPhoneCheckInput) (draw : Draw) (db : Database) : Prop where
  active : activeOrganization input.orgId db ≠ none
  enough : 1 ≤ balance input.orgId db.creditLedger
  fresh : ¬ ∃ c ∈ db.phoneChecks, c.id = draw.rowId

instance (input : NewPhoneCheckInput) (draw : Draw) (db : Database) :
    Decidable (DebitsPhone input draw db) :=
  decidable_of_iff (activeOrganization input.orgId db ≠ none ∧
      1 ≤ balance input.orgId db.creditLedger ∧ ¬ ∃ c ∈ db.phoneChecks, c.id = draw.rowId)
    ⟨fun ⟨a, b, c⟩ => ⟨a, b, c⟩, fun ⟨a, b, c⟩ => ⟨a, b, c⟩⟩

/-- The same for a batch. -/
structure Reserves (input : CreateBatchInput) (db : Database) : Prop where
  active : activeOrganization input.orgId db ≠ none
  enough : (input.totalRows : Int) ≤ balance input.orgId db.creditLedger
  plain : '\x00' ∉ input.filename.toList
  fresh : ¬ ∃ b ∈ db.batches, b.id = input.batchId

instance (input : CreateBatchInput) (db : Database) : Decidable (Reserves input db) :=
  decidable_of_iff (activeOrganization input.orgId db ≠ none ∧
      (input.totalRows : Int) ≤ balance input.orgId db.creditLedger ∧
      '\x00' ∉ input.filename.toList ∧ ¬ ∃ b ∈ db.batches, b.id = input.batchId)
    ⟨fun ⟨a, b, c, d⟩ => ⟨a, b, c, d⟩, fun ⟨a, b, c, d⟩ => ⟨a, b, c, d⟩⟩

instance (orgId : Uuid) (db : Database) : Decidable (ActiveOrganization orgId db) :=
  decidable_of_iff ((db.organizations.find? fun o => o.id = orgId).any (fun o => o.Active) = true)
    (by simp [ActiveOrganization, Option.any_eq_true])

/-- The row an action is for, if nothing but the row itself can keep it from being written. -/
def World.row (w : World) : Action → Option CreditLedgerEntry
  | .grant input draw _ =>
      if ActiveOrganization input.orgId w.db ∧ GrantInput.Passes input then
        some (grantRow sha256Hex input draw)
      else none
  | .emailCheck input draw now =>
      if DebitsEmail input draw now w.db then some (checkEntry input.orgId draw.rowId draw)
      else none
  | .phoneCheck input draw _ =>
      if DebitsPhone input draw w.db then some (checkEntry input.orgId draw.rowId draw) else none
  | .createBatch input draw _ =>
      if Reserves input w.db then
        some (reservationEntry input.orgId input.batchId input.totalRows draw)
      else none
  | .claimBatch _ => none
  | .completeBatch input draw _ =>
      if input.chargedCredits < input.reservedCredits then
        some (refundEntry input.orgId input.batchId (input.reservedCredits - input.chargedCredits)
          completionNote draw)
      else none
  | .failBatch input draw =>
      if 0 < input.reservedCredits then
        some (refundEntry input.orgId input.batchId input.reservedCredits failureNote draw)
      else none
  | .deleteBatch id orgId draw =>
      match w.db.batches.find? fun b => b.id = id ∧ b.orgId = orgId with
      | none => none
      | some b =>
          if b.status.Claimable then
            some (refundEntry b.orgId b.id b.totalRows deletionNote draw)
          else none

/-- **In range**: the row fits its columns, and the running sums with it fit theirs. -/
def InRange (w : World) (a : Action) : Prop :=
  ∀ e ∈ w.row sha256Hex a, e.Fits ∧
    (¬ Conflicts e w.db.creditLedger → RunningSumsFit e.orgId (w.db.creditLedger ++ [e]))

instance (w : World) (a : Action) : Decidable (InRange sha256Hex w a) :=
  inferInstanceAs (Decidable (∀ e ∈ w.row sha256Hex a, _))

/-! ## What a transaction inserts -/

/-- A transaction that ends in no arithmetic error and leaves these rows on the ledger. -/
structure Calm {α : Type} (body : Tx α) (db : Database) (rows : List CreditLedgerEntry) :
    Prop where
  arithmetic : failureOf (Txn.transaction body db).1 ≠ some .integerOutOfRange
  ledger : (Txn.transaction body db).2.creditLedger = rows

/-- **What a transaction does with the row it is for.** -/
structure Inserts {α : Type} (body : Tx α) (db : Database) (row : Option CreditLedgerEntry) :
    Prop where
  idle : row = none → Calm body db db.creditLedger
  misfit : ∀ e ∈ row, ¬ e.Fits →
    failureOf (Txn.transaction body db).1 = some .integerOutOfRange
  known : ∀ e ∈ row, e.Fits → Conflicts e db.creditLedger → Calm body db db.creditLedger
  added : ∀ e ∈ row, e.Fits → ¬ Conflicts e db.creditLedger →
    Calm body db (db.creditLedger ++ [e])

section Body

variable {α : Type} {body : Tx α} {db db' : Database} {row : Option CreditLedgerEntry}

theorem Calm.commit {a : α} (run : body.run db = .ok (a, db')) : Calm body db db'.creditLedger := by
  have eq := Txn.transaction_of_commits (show Txn.Commits body db a db' from run)
  refine ⟨?_, ?_⟩
  · rw [eq]
    exact fun same => (by cases same)
  · rw [eq]

theorem Calm.abort {e : DbError} (run : body.run db = .error e) (other : e ≠ .integerOutOfRange) :
    Calm body db db.creditLedger := by
  have eq := Txn.transaction_of_error run
  refine ⟨?_, ?_⟩
  · rw [eq]
    exact fun same => other (Option.some.inj same)
  · rw [eq]

theorem Inserts.nothing (calm : Calm body db db.creditLedger) : Inserts body db none where
  idle := fun _ => calm
  misfit := fun _ none_ => (by cases none_)
  known := fun _ none_ => (by cases none_)
  added := fun _ none_ => (by cases none_)

/-- What is left of a transaction commits, with the ledger as it is. -/
def Settles (rest : Tx α) : Prop :=
  ∀ db, ∃ a db', rest.run db = .ok (a, db') ∧ db'.creditLedger = db.creditLedger

theorem Settles.pure_ (a : α) : Settles (pure a : Tx α) := fun db => ⟨a, db, rfl, rfl⟩

theorem Calm.settled {rest : Tx α} {before : Database} (settles : Settles rest)
    (run : body.run db = rest.run before) : Calm body db before.creditLedger := by
  obtain ⟨a, db', ends, ledger⟩ := settles before
  exact ledger ▸ Calm.commit (run.trans ends)

theorem misfit_eq {e : CreditLedgerEntry} (plain : ∀ note ∈ e.note, Storable note)
    (unfit : ¬ e.Fits) : e.misfit = .integerOutOfRange := by
  rw [CreditLedgerEntry.misfit, if_neg fun small => unfit ⟨small, plain⟩]

/-- **A transaction that comes down to an insert.** -/
theorem Inserts.insert {e : CreditLedgerEntry} {before : Database} {next : Unit → Tx α}
    (plain : ∀ note ∈ e.note, Storable note) (settles : Settles (next ()))
    (run : body.run db = (insertLedger e >>= next).run before)
    (same : before.creditLedger = db.creditLedger) : Inserts body db (some e) := by
  rw [run_insertLedger_bind, same] at run
  refine ⟨fun none_ => (by cases none_), ?_, ?_, ?_⟩
  · rintro _ ⟨⟩ unfit
    rw [if_pos unfit, misfit_eq plain unfit] at run
    rw [Txn.transaction_of_error run]
    rfl
  · rintro _ ⟨⟩ fits known
    rw [if_neg (not_not.2 fits), if_pos known] at run
    exact .abort run fun same => (by cases same)
  · rintro _ ⟨⟩ fits fresh
    rw [if_neg (not_not.2 fits), if_neg fresh] at run
    rw [← same]
    exact Calm.settled settles run

/-- The same, where a known reference is passed over. -/
theorem Inserts.insertOnConflictDoNothing {e : CreditLedgerEntry} {before : Database}
    {next : Bool → Tx α} (plain : ∀ note ∈ e.note, Storable note)
    (settles : ∀ inserted, Settles (next inserted))
    (run : body.run db = (insertLedgerOnConflictDoNothing e >>= next).run before)
    (same : before.creditLedger = db.creditLedger) : Inserts body db (some e) := by
  rw [run_insertLedgerOnConflictDoNothing_bind, same] at run
  refine ⟨fun none_ => (by cases none_), ?_, ?_, ?_⟩
  · rintro _ ⟨⟩ unfit
    rw [if_pos unfit, misfit_eq plain unfit] at run
    rw [Txn.transaction_of_error run]
    rfl
  · rintro _ ⟨⟩ fits known
    rw [if_neg (not_not.2 fits), if_pos known] at run
    rw [← same]
    exact Calm.settled (settles false) run
  · rintro _ ⟨⟩ fits fresh
    rw [if_neg (not_not.2 fits), if_neg fresh] at run
    rw [← same]
    exact Calm.settled (settles true) run

end Body

section Operations

variable {draw : Draw} {now : Date} {db : Database}

theorem checkEntry_plain (orgId checkId : Uuid) (draw : Draw) :
    ∀ note ∈ (checkEntry orgId checkId draw).note, Storable note :=
  fun _ none_ => (by cases none_)

/-- A transaction without an active organisation. -/
theorem run_unavailable {α : Type} {orgId : Uuid} {next : Option Organization → Tx α} {a : α}
    (missing : activeOrganization orgId db = none) (answers : next none = pure a) :
    (lockOrganization orgId >>= next).run db = .ok (a, db) := by
  rw [DebitPoint.run_lockOrganization_bind, missing, answers]
  rfl

theorem some_active {orgId : Uuid} {org : Organization}
    (found : activeOrganization orgId db = some org) : activeOrganization orgId db ≠ none :=
  fun none_ => Option.some_ne_none org (found.symm.trans none_)

theorem emailCheck_inserts (input : NewEmailCheckInput)
    (fit : Int4 (balance input.orgId db.creditLedger)) :
    Inserts (createEmailCheckWithDebit input draw now) db
      (if DebitsEmail input draw now db then some (checkEntry input.orgId draw.rowId draw)
      else none) := by
  cases found : activeOrganization input.orgId db with
  | none =>
      rw [if_neg fun debits => debits.active found]
      exact .nothing (.commit (run_unavailable found rfl))
  | some org =>
      have run : (createEmailCheckWithDebit input draw now).run db = _ :=
        DebitPoint.run_lockOrganization_bind input.orgId _ db
      rw [found] at run
      dsimp only at run
      rw [run_get_bind] at run
      cases recent : db.findRecentEmailCheck input.orgId input.emailHash now with
      | some existing =>
          have hit : ¬ DebitsEmail input draw now db := fun debits =>
            Option.some_ne_none existing (recent.symm.trans debits.missed)
          rw [recent] at run
          dsimp only at run
          rw [run_lockedBalance_bind, activeOrganization_id found, if_pos fit] at run
          rw [if_neg hit]
          exact .nothing (.commit run)
      | none =>
          rw [recent] at run
          dsimp only at run
          rw [run_lockedBalance_bind, activeOrganization_id found, if_pos fit] at run
          by_cases poor : balance input.orgId db.creditLedger < 1
          · rw [if_neg fun debits => absurd debits.enough (not_le.2 poor)]
            rw [if_pos poor] at run
            exact .nothing (.commit run)
          rw [if_neg poor, run_insertEmailCheck_bind] at run
          by_cases fits : input.Fits
          swap
          · rw [if_neg fun debits => fits debits.fits]
            rw [dif_neg fits] at run
            exact .nothing (.abort run fun same => (by cases same))
          rw [dif_pos fits] at run
          by_cases taken : ∃ c ∈ db.emailChecks, c.id = draw.rowId
          · rw [if_neg fun debits => debits.fresh taken]
            rw [if_pos taken] at run
            exact .nothing (.abort run fun same => (by cases same))
          rw [if_neg taken] at run
          rw [if_pos ⟨some_active found, recent, not_lt.1 poor, fits, taken⟩]
          exact .insert (checkEntry_plain _ _ _) (Settles.pure_ _) run rfl

theorem phoneCheck_inserts (input : NewPhoneCheckInput)
    (fit : Int4 (balance input.orgId db.creditLedger)) :
    Inserts (createPhoneCheckWithDebit input draw now) db
      (if DebitsPhone input draw db then some (checkEntry input.orgId draw.rowId draw)
      else none) := by
  cases found : activeOrganization input.orgId db with
  | none =>
      rw [if_neg fun debits => debits.active found]
      exact .nothing (.commit (run_unavailable found rfl))
  | some org =>
      have run : (createPhoneCheckWithDebit input draw now).run db = _ :=
        DebitPoint.run_lockOrganization_bind input.orgId _ db
      rw [found] at run
      dsimp only at run
      rw [run_lockedBalance_bind, activeOrganization_id found, if_pos fit] at run
      by_cases poor : balance input.orgId db.creditLedger < 1
      · rw [if_neg fun debits => absurd debits.enough (not_le.2 poor)]
        rw [if_pos poor] at run
        exact .nothing (.commit run)
      rw [if_neg poor, run_insertPhoneCheck_bind, NewPhoneCheckInput.row_id] at run
      by_cases taken : ∃ c ∈ db.phoneChecks, c.id = draw.rowId
      · rw [if_neg fun debits => debits.fresh taken]
        rw [if_pos taken] at run
        exact .nothing (.abort run fun same => (by cases same))
      rw [if_neg taken] at run
      rw [if_pos ⟨some_active found, not_lt.1 poor, taken⟩]
      exact .insert (checkEntry_plain _ _ _) (Settles.pure_ _) run rfl

theorem createBatch_inserts (input : CreateBatchInput)
    (fit : Int4 (balance input.orgId db.creditLedger)) :
    Inserts (createBatchWithReservation input draw now) db
      (if Reserves input db then
        some (reservationEntry input.orgId input.batchId input.totalRows draw)
      else none) := by
  cases found : activeOrganization input.orgId db with
  | none =>
      rw [if_neg fun reserves => reserves.active found]
      exact .nothing (.commit (run_unavailable found rfl))
  | some org =>
      have run : (createBatchWithReservation input draw now).run db = _ :=
        DebitPoint.run_lockOrganization_bind input.orgId _ db
      rw [found] at run
      dsimp only at run
      rw [run_lockedBalance_bind, if_pos fit] at run
      by_cases poor : balance input.orgId db.creditLedger < input.totalRows
      · rw [if_neg fun reserves => absurd reserves.enough (not_le.2 poor)]
        rw [if_pos poor] at run
        exact .nothing (.commit run)
      have small : Int4 (input.totalRows : Int) := by
        unfold Int4 at fit ⊢
        omega
      rw [if_neg poor, run_insertBatch_bind, CreateBatchInput.row_totalRows,
        CreateBatchInput.row_filename, CreateBatchInput.row_id, if_neg (not_not.2 small)] at run
      by_cases nul : '\x00' ∈ input.filename.toList
      · rw [if_neg fun reserves => reserves.plain nul]
        rw [if_pos nul] at run
        exact .nothing (.abort run fun same => (by cases same))
      rw [if_neg nul] at run
      by_cases taken : ∃ b ∈ db.batches, b.id = input.batchId
      · rw [if_neg fun reserves => reserves.fresh taken]
        rw [if_pos taken] at run
        exact .nothing (.abort run fun same => (by cases same))
      rw [if_neg taken] at run
      rw [if_pos ⟨some_active found, not_lt.1 poor, nul, taken⟩]
      exact .insert (fun _ none_ => (by cases none_)) (Settles.pure_ _) run rfl

/-- The notes of refunds can be stored. -/
theorem refundEntry_plain {orgId batchId : Uuid} {amount : Int} {note : String}
    (plain : note = completionNote ∨ note = failureNote ∨ note = deletionNote) :
    ∀ written ∈ (refundEntry orgId batchId amount note draw).note, Storable written := by
  intro written has
  obtain rfl := Option.mem_some_iff.1 has
  rcases plain with rfl | rfl | rfl <;> decide

theorem completeBatch_inserts (input : CompleteBatchInput) :
    Inserts (Db.completeBatch input draw now) db
      (if input.chargedCredits < input.reservedCredits then
        some (refundEntry input.orgId input.batchId
          (input.reservedCredits - input.chargedCredits) completionNote draw)
      else none) := by
  have run : (Db.completeBatch input draw now).run db =
      (if (0 : Int) < input.reservedCredits - input.chargedCredits then
        insertLedger (refundEntry input.orgId input.batchId
          (input.reservedCredits - input.chargedCredits) completionNote draw)
      else pure ()).run (db.completed input now) := rfl
  by_cases partial_ : input.chargedCredits < input.reservedCredits
  · rw [if_pos (by omega), ← bind_pure (insertLedger _)] at run
    rw [if_pos partial_]
    exact .insert (refundEntry_plain (.inl rfl)) (Settles.pure_ _) run rfl
  · rw [if_neg (by omega)] at run
    rw [if_neg partial_]
    have calm := Calm.settled (Settles.pure_ ()) run
    exact .nothing calm

theorem failBatch_inserts (input : FailBatchInput) :
    Inserts (Db.failBatch input draw) db
      (if 0 < input.reservedCredits then
        some (refundEntry input.orgId input.batchId input.reservedCredits failureNote draw)
      else none) := by
  have run : (Db.failBatch input draw).run db = (if 0 < input.reservedCredits then do
        let _ ← insertLedgerOnConflictDoNothing
          (refundEntry input.orgId input.batchId input.reservedCredits failureNote draw)
        return ()
      else pure ()).run (db.failed input) := rfl
  by_cases some_ : 0 < input.reservedCredits
  · rw [if_pos some_] at run
    rw [if_pos some_]
    exact .insertOnConflictDoNothing (refundEntry_plain (.inr (.inl rfl)))
      (fun _ => Settles.pure_ _) run rfl
  · rw [if_neg some_] at run
    rw [if_neg some_]
    have calm := Calm.settled (Settles.pure_ ()) run
    exact .nothing calm

theorem deleteBatch_inserts (id orgId : Uuid) :
    Inserts (deleteBatchForOrg id orgId draw) db
      (match db.batches.find? fun b => b.id = id ∧ b.orgId = orgId with
      | none => none
      | some b =>
          if b.status.Claimable then
            some (refundEntry b.orgId b.id b.totalRows deletionNote draw)
          else none) := by
  have run : (deleteBatchForOrg id orgId draw).run db = _ := run_get_bind _ db
  cases found : db.batches.find? fun b => b.id = id ∧ b.orgId = orgId with
  | none =>
      rw [found] at run
      exact .nothing (.commit run)
  | some b =>
      rw [found] at run
      dsimp only at run ⊢
      by_cases processing : b.status = .processing
      · have claimed : ¬ b.status.Claimable := by
          rw [processing]
          decide
        rw [if_pos processing] at run
        rw [if_neg claimed]
        exact .nothing (.commit run)
      rw [if_neg processing, refundDeleted] at run
      by_cases claimable : b.status.Claimable
      · rw [if_pos claimable, bind_assoc] at run
        rw [if_pos claimable]
        refine .insertOnConflictDoNothing (refundEntry_plain (.inr (.inr rfl)))
          (fun _ db => ?_) run rfl
        exact ⟨_, _, rfl, rfl⟩
      · rw [if_neg claimable] at run
        rw [if_neg claimable]
        refine .nothing (Calm.settled (fun db => ?_) run)
        exact ⟨_, _, rfl, rfl⟩

end Operations

/-! ## What a call does -/

section Calls

variable {w : World} {sha256Hex}

/-- **What an action does with the row it is for.** -/
structure Effect (sha256Hex : JsString → String) (w : World) (a : Action) : Prop where
  idle : w.row sha256Hex a = none → EndsWell sha256Hex w a ∧
    (w.after sha256Hex a).db.creditLedger = w.db.creditLedger
  misfit : ∀ e ∈ w.row sha256Hex a, ¬ e.Fits → ¬ EndsWell sha256Hex w a
  known : ∀ e ∈ w.row sha256Hex a, e.Fits → Conflicts e w.db.creditLedger →
    EndsWell sha256Hex w a ∧ (w.after sha256Hex a).db.creditLedger = w.db.creditLedger
  added : ∀ e ∈ w.row sha256Hex a, e.Fits → ¬ Conflicts e w.db.creditLedger →
    EndsWell sha256Hex w a ∧ (w.after sha256Hex a).db.creditLedger = w.db.creditLedger ++ [e]

theorem Inserts.effect {α : Type} {body : Tx α} {a : Action}
    (inserts : Inserts body w.db (w.row sha256Hex a)) (other : ¬ a.IsGrant)
    (fails : w.failure sha256Hex a = failureOf (Txn.transaction body w.db).1)
    (leaves : (w.after sha256Hex a).db = (Txn.transaction body w.db).2) :
    Effect sha256Hex w a := by
  have calm : ∀ {rows}, Calm body w.db rows → EndsWell sha256Hex w a ∧
      (w.after sha256Hex a).db.creditLedger = rows := by
    intro rows calm
    refine ⟨⟨by rw [fails]; exact calm.arithmetic, fun grant => absurd grant other⟩, ?_⟩
    rw [leaves]
    exact calm.ledger
  refine ⟨fun none_ => calm (inserts.idle none_), ?_,
    fun e is fits known => calm (inserts.known e is fits known),
    fun e is fits fresh => calm (inserts.added e is fits fresh)⟩
  intro e is unfit ends
  exact ends.arithmetic (fails.trans (inserts.misfit e is unfit))

theorem db_after_createBatch (w : World) (input : CreateBatchInput) (draw : Draw) (now : Date) :
    (w.after sha256Hex (.createBatch input draw now)).db =
      (Txn.transaction (createBatchWithReservation input draw now) w.db).2 := by
  unfold World.after
  dsimp only
  split <;> rename_i eq <;> rw [eq]

/-- A grant to an organisation that is gone, or never was. -/
theorem grant_inactive {input : GrantInput} {draw : Draw} {now : Date} {db : Database}
    (gone : ¬ ActiveOrganization input.orgId db) (passes : GrantInput.Passes input) :
    ∃ result, grantCreditsWithAudit sha256Hex input draw now db = (.ok result, db) := by
  rw [grantCreditsWithAudit, if_neg (not_not.2 passes.1), if_neg passes.2, Txn.transaction, grantTx,
    run_get_bind]
  cases found : db.organizations.find? fun o => o.id = input.orgId with
  | none => exact ⟨_, rfl⟩
  | some org =>
      dsimp only
      rw [if_pos fun active => gone ⟨org, found, active⟩]
      exact ⟨_, rfl⟩

theorem endsWell_grant {input : GrantInput} {draw : Draw} {now : Date} :
    EndsWell sha256Hex w (.grant input draw now) ↔
      ∃ result, (grantCreditsWithAudit sha256Hex input draw now w.db).1 = .ok result := by
  constructor
  · intro ends
    have none_ : failureOf (grantCreditsWithAudit sha256Hex input draw now w.db).1 = none :=
      ends.grant trivial
    revert none_
    cases (grantCreditsWithAudit sha256Hex input draw now w.db).1 with
    | ok result => exact fun _ => ⟨result, rfl⟩
    | error e => exact fun same => (by cases same)
  · rintro ⟨result, answers⟩
    have none_ : w.failure sha256Hex (.grant input draw now) = none := by
      rw [World.failure, answers]
      rfl
    exact ⟨by rw [none_]; exact fun same => (by cases same), fun _ => none_⟩

theorem grant_effect (w : World) (input : GrantInput) (draw : Draw) (now : Date) :
    Effect sha256Hex w (.grant input draw now) := by
  have leaves : (w.after sha256Hex (.grant input draw now)).db =
      (grantCreditsWithAudit sha256Hex input draw now w.db).2 := rfl
  by_cases asked : ActiveOrganization input.orgId w.db ∧ GrantInput.Passes input
  swap
  · have row : w.row sha256Hex (.grant input draw now) = none := if_neg asked
    obtain ⟨result, answers⟩ :
        ∃ result, grantCreditsWithAudit sha256Hex input draw now w.db = (.ok result, w.db) := by
      by_cases passes : GrantInput.Passes input
      · exact grant_inactive (fun active => asked ⟨active, passes⟩) passes
      · exact ⟨_, grant_invalid passes⟩
    refine ⟨fun _ => ⟨endsWell_grant.2 ⟨result, by rw [answers]⟩, by rw [leaves, answers]⟩, ?_, ?_,
      ?_⟩
    all_goals
      intro e is
      rw [row] at is
      cases is
  have row : w.row sha256Hex (.grant input draw now) = some (grantRow sha256Hex input draw) :=
    if_pos asked
  have answers : grantCreditsWithAudit sha256Hex input draw now w.db = _ :=
    grant_passed asked.1 asked.2
  refine ⟨?_, ?_, ?_, ?_⟩
  · intro none_
    rw [row] at none_
    cases none_
  · intro e is unfit ends
    obtain rfl := Option.some.inj (row.symm.trans is)
    obtain ⟨result, ok⟩ := endsWell_grant.1 ends
    rw [answers, if_pos unfit] at ok
    cases ok
  · intro e is fits known
    obtain rfl := Option.some.inj (row.symm.trans is)
    rw [if_neg (not_not.2 fits), if_pos known] at answers
    exact ⟨endsWell_grant.2 ⟨_, by rw [answers]⟩, by rw [leaves, answers]⟩
  · intro e is fits fresh
    obtain rfl := Option.some.inj (row.symm.trans is)
    rw [if_neg (not_not.2 fits), if_neg fresh] at answers
    exact ⟨endsWell_grant.2 ⟨_, by rw [answers]⟩, by rw [leaves, answers]; rfl⟩

/-- **A call adds the row it is for**, unless the row does not fit or its reference is known. -/
theorem effect (fit : ∀ orgId, RunningSumsFit orgId w.db.creditLedger) (a : Action) :
    Effect sha256Hex w a := by
  cases a with
  | grant input draw now => exact grant_effect w input draw now
  | emailCheck input draw now =>
      exact (emailCheck_inserts input (fit _).balance).effect id rfl rfl
  | phoneCheck input draw now =>
      exact (phoneCheck_inserts input (fit _).balance).effect id rfl rfl
  | createBatch input draw now =>
      exact (createBatch_inserts input (fit _).balance).effect id rfl (db_after_createBatch ..)
  | claimBatch id =>
      refine (Inserts.nothing ?_ : Inserts (claimBatchForProcessing id) w.db none).effect
        (fun no => no) rfl rfl
      obtain ⟨result, ⟨commits, -⟩ | ⟨row, -, -, -, -, commits⟩⟩ :=
        claimBatchForProcessing_commits id w.db
      · exact .commit commits
      · have calm := Calm.commit commits
        exact calm
  | completeBatch input draw now => exact (completeBatch_inserts input).effect id rfl rfl
  | failBatch input draw => exact (failBatch_inserts input).effect id rfl rfl
  | deleteBatch id orgId draw => exact (deleteBatch_inserts id orgId).effect (fun no => no) rfl rfl

/-- **In range, and in no other case**, a call ends well and keeps the running sums in range. -/
theorem inRange_iff (fit : ∀ orgId, RunningSumsFit orgId w.db.creditLedger) (a : Action) :
    InRange sha256Hex w a ↔ EndsWell sha256Hex w a ∧
      ∀ orgId, RunningSumsFit orgId (w.after sha256Hex a).db.creditLedger := by
  have effect : Effect sha256Hex w a := effect fit a
  cases row : w.row sha256Hex a with
  | none =>
      obtain ⟨ends, same⟩ := effect.idle row
      refine iff_of_true (fun e is => ?_) ⟨ends, same ▸ fit⟩
      rw [row] at is
      cases is
  | some e =>
      have only : InRange sha256Hex w a ↔ e.Fits ∧ (¬ Conflicts e w.db.creditLedger →
          RunningSumsFit e.orgId (w.db.creditLedger ++ [e])) := by
        simp only [InRange, row, Option.mem_some_iff, forall_eq']
      rw [only]
      by_cases fits : e.Fits
      swap
      · exact iff_of_false (fun both => fits both.1) fun both => effect.misfit e row fits both.1
      by_cases known : Conflicts e w.db.creditLedger
      · obtain ⟨ends, same⟩ := effect.known e row fits known
        exact iff_of_true ⟨fits, fun fresh => absurd known fresh⟩ ⟨ends, same ▸ fit⟩
      obtain ⟨ends, more⟩ := effect.added e row fits known
      rw [more]
      refine ⟨fun ⟨_, inRange⟩ => ⟨ends, ?_⟩, fun ⟨_, all⟩ => ⟨fits, fun _ => all _⟩⟩
      intro orgId
      by_cases own : e.orgId = orgId
      · exact own ▸ inRange known
      · exact (runningSumsFit_append_other own).2 (fit orgId)

end Calls

/-! ## Over every run -/

/-- **When balances are exact.**  Over a run of the operations on credits, from an empty
ledger: every call ends well, and every sum read before and after it is the sum of the deltas,
exactly when every row a call is for fits its columns and keeps the running sums in range. -/
theorem balances_exact_iff {start w : World} {tr : List (Transition World Action)}
    (initial : Initial start) (run : Run (step sha256Hex) start tr w) :
    (∀ e ∈ tr, EndsWell sha256Hex e.source e.action ∧ ExactSums e.source.db ∧
        ExactSums e.target.db) ↔
      ∀ e ∈ tr, InRange sha256Hex e.source e.action := by
  refine run.guarded_iff (fun s => ∀ orgId, RunningSumsFit orgId s.db.creditLedger)
    (fun s a t => EndsWell sha256Hex s a ∧ ExactSums s.db ∧ ExactSums t.db) ?_ ?_ ?_ ?_
  · rintro s a _ fit inRange ⟨-, rfl⟩
    exact ((inRange_iff fit a).1 inRange).2
  · rintro s a _ fit inRange ⟨-, rfl⟩
    obtain ⟨ends, after⟩ := (inRange_iff fit a).1 inRange
    exact ⟨ends, exactSums_iff.2 fit, exactSums_iff.2 after⟩
  · rintro s a _ fit ⟨-, rfl⟩ ⟨ends, -, after⟩
    exact (inRange_iff fit a).2 ⟨ends, exactSums_iff.1 after⟩
  · intro orgId e member
    rw [initial.1] at member
    cases member

theorem balances_exact_settlement : ∃ tr : List (Transition World Action),
    Run (step fun _ => "") oneOrganization tr
        (settlement.foldl (World.after fun _ => "") oneOrganization) ∧
      ∀ e ∈ tr, EndsWell (fun _ => "") e.source e.action ∧ ExactSums e.source.db ∧
        ExactSums e.target.db := by
  have executable : Executable (fun w a => w.Allows a ∧ InRange (fun _ => "") w a)
      (World.after fun _ => "") oneOrganization settlement := by decide +kernel
  obtain ⟨tr, run, inRange⟩ := executable.run_guarded
  exact ⟨tr, run, (balances_exact_iff _ ⟨rfl, rfl, rfl⟩ run).2 inRange⟩

/-! ### Grants that are too large -/

/-- The hashes of three grants. -/
def largeHash (text : JsString) : String :=
  if text = Js.ofString "2147483647:INV-1" then
    "73ea6b1fb0e1d494a142f33d44822f616ed614a1931b7dc5cd7d14bfbcce72dd"
  else if text = Js.ofString "2147483647:INV-2" then
    "7ebe9e010fea37fd6dba4156b46c6ed66dd497d11d7bad21ba528806e0ad04a6"
  else if text = Js.ofString "2147483648:INV-1" then
    "e056f84ab7c90d3e0ede442ba4e4c7e0614792c9f608a38b86f8bd6564aa7e94"
  else ""

/-- A grant that the validation lets through, and that no delta can hold. -/
def largeGrant : Action := .grant ⟨.numbered 1, 2147483648, Js.ofString "INV-1"⟩ (drawn 1) 0

/-- Two grants that each fit. -/
def twoGrants : List Action :=
  [.grant ⟨.numbered 1, 2147483647, Js.ofString "INV-1"⟩ (drawn 1) 0,
    .grant ⟨.numbered 1, 2147483647, Js.ofString "INV-2"⟩ (drawn 2) 0]

/-- **One grant ends in an error, and two make the balance unreadable.** -/
theorem large_grant_fails :
    oneOrganization.failure largeHash largeGrant = some .integerOutOfRange ∧
      getCreditBalance (twoGrants.foldl (World.after largeHash) oneOrganization).db
        (.numbered 1) = .error .integerOutOfRange ∧
      ¬ ∀ (start w : World) (tr : List (Transition World Action)), Initial start →
        Run (step largeHash) start tr w → ∀ e ∈ tr,
          EndsWell largeHash e.source e.action ∧ ExactSums e.source.db ∧ ExactSums e.target.db := by
  have fails : oneOrganization.failure largeHash largeGrant = some .integerOutOfRange := by
    decide +kernel
  refine ⟨fails, by decide +kernel, ?_⟩
  intro all
  have run : Run (step largeHash) oneOrganization
      [⟨oneOrganization, largeGrant, oneOrganization.after largeHash largeGrant⟩] _ :=
    .single ⟨trivial, rfl⟩
  exact (all _ _ _ ⟨rfl, rfl, rfl⟩ run _ (List.mem_singleton.2 rfl)).1.arithmetic fails

end Tozalist.Credits
