/-
# Tozalist.Worker.SweepTables -- the sweep of the files is the sweep of the tables

The retention sweep is modelled twice: `Worker.Lifecycle` runs it over all tables that it reads,
from its start to its end, and `Worker.BatchFiles` cuts it into its calls, between which others
write, over the tables that the files of batches depend on.  Where the two agree on the tables,
they still do after every call:

* `Views` -- the smaller tables are those of the sweep but for the audit events;
* `Statement` -- the statements of the sweep on all tables that matter to the smaller ones;
* `sweepStep_statement` -- a step of the sweep of the files is such a statement, or changes no row;
* `sweepSteps_statements` -- so are all its steps in a row.
-/
import Tozalist.Worker.FileRemoval

namespace Tozalist.Worker.BatchFiles

set_option autoImplicit false

open Db
open Shared (StorageCall)
open Theory (Txn)
open Theory.Txn (Delivery)

/-! ## Two views of the tables -/

/-- The rows refer to organisations. -/
structure Refer (db : RetentionDatabase) : Prop where
  emailChecks : ∀ c ∈ db.emailChecks, c.orgId ∈ db.organizations.map (·.id)
  phoneChecks : ∀ c ∈ db.phoneChecks, c.orgId ∈ db.organizations.map (·.id)
  batches : ∀ b ∈ db.batches, b.orgId ∈ db.organizations.map (·.id)

/-- The smaller tables have the rows of the sweep's, and `purgedOrgs` are the organisations that
are marked as purged. -/
structure Views (db : RetentionDatabase) (purgedOrgs : List Uuid) (tables : Database) : Prop where
  refer : Refer db
  organizations : tables.organizations = db.organizations.map (·.toOrganization)
  creditLedger : tables.creditLedger = db.creditLedger
  emailChecks : tables.emailChecks = db.emailChecks
  phoneChecks : tables.phoneChecks = db.phoneChecks
  batches : tables.batches = db.batches
  purged : ∀ o ∈ db.organizations, o.id ∈ purgedOrgs ↔ o.purgedAt ≠ none

namespace Views

variable {db : RetentionDatabase} {purgedOrgs : List Uuid} {tables : Database}

/-- The organisations due for purge are the same. -/
theorem dueForPurge {w : World} (views : Views db w.purgedOrgs w.db) (now : Date) :
    w.dueForPurge now = db.dueForPurge now := by
  rw [World.dueForPurge, RetentionDatabase.dueForPurge, views.organizations, List.filter_map,
    List.map_map]
  refine congrArg _ (List.filter_congr ?_)
  intro o member
  have purged : o.id ∉ w.purgedOrgs ↔ o.purgedAt = none := by
    rw [views.purged o member, not_not]
  exact decide_eq_decide.2 (and_congr_right fun _ => purged)

/-- The organisations that are retired are the same. -/
theorem retired (views : Views db purgedOrgs tables) {id : Uuid}
    (there : id ∈ db.organizations.map (·.id)) :
    Retired purgedOrgs tables id ↔ db.Retired id := by
  obtain ⟨o, member, rfl⟩ := List.mem_map.1 there
  rw [Retired, RetentionDatabase.Retired, views.creditLedger, views.purged o member]
  refine and_congr_left fun _ => ⟨fun marked => ⟨o, member, rfl, marked⟩, ?_⟩
  rintro ⟨o', listed, same, marked⟩
  obtain rfl := List.inj_on_of_nodup_map db.organizationIds listed member same
  exact marked

/-! ## Statement by statement -/

theorem deleteBatchesByIds (views : Views db purgedOrgs tables) (ids : List Uuid) :
    Views (db.deleteBatchesByIds ids).2 purgedOrgs
      (tables.deleteBatches fun b => b.id ∈ ids) where
  refer :=
    { views.refer with
      batches := fun b member => views.refer.batches b (List.mem_of_mem_filter member) }
  organizations := views.organizations
  creditLedger := views.creditLedger
  emailChecks := views.emailChecks
  phoneChecks := views.phoneChecks
  batches := congrArg (List.filter _) views.batches
  purged := views.purged

/-- A purge keeps the organisations, and marks one. -/
theorem hardDeleteOrganizationData (views : Views db purgedOrgs tables) (orgId : Uuid)
    (draw : Draw) (now : Date) :
    Views (db.hardDeleteOrganizationData orgId draw now) (orgId :: purgedOrgs)
      (tables.wiped orgId) := by
  have rows : (db.hardDeleteOrganizationData orgId draw now).organizations =
      db.organizations.map fun o => if o.id = orgId then o.purge now else o := rfl
  have ids : (db.hardDeleteOrganizationData orgId draw now).organizations.map (·.id) =
      db.organizations.map (·.id) := by
    rw [rows, List.map_map]
    exact List.map_congr_left fun o _ => RetentionDatabase.id_purgeWhere (· = orgId) now o
  refine ⟨⟨?_, ?_, ?_⟩, ?_, views.creditLedger, congrArg (List.filter _) views.emailChecks,
    congrArg (List.filter _) views.phoneChecks, congrArg (List.filter _) views.batches, ?_⟩
  · rw [ids]
    exact fun c member => views.refer.emailChecks c (List.mem_of_mem_filter member)
  · rw [ids]
    exact fun c member => views.refer.phoneChecks c (List.mem_of_mem_filter member)
  · rw [ids]
    exact fun b member => views.refer.batches b (List.mem_of_mem_filter member)
  · rw [rows, List.map_map]
    refine views.organizations.trans (List.map_congr_left fun o _ => ?_)
    simp only [Function.comp]
    split <;> rfl
  · rw [rows]
    rintro _ marked
    obtain ⟨o, member, rfl⟩ := List.mem_map.1 marked
    by_cases here : o.id = orgId
    · rw [if_pos here]
      exact iff_of_true (List.mem_cons.2 (.inl here)) (by simp [OrganizationRow.purge])
    · rw [if_neg here, List.mem_cons, or_iff_right here]
      exact views.purged o member

/-- A purge that the trigger lets through is one that it lets through on all tables. -/
theorem purgeExpiredLedgerEntries (views : Views db purgedOrgs tables) {dbNow : Timestamp}
    {now : Date} {count : ℕ} {tables' : Database}
    (commits : Txn.Commits (Db.purgeExpiredLedgerEntries dbNow now) tables count tables') :
    ∃ after, db.purgeExpiredLedgerEntries dbNow now = some (count, after) ∧
      Views after purgedOrgs tables' := by
  simp only [Db.purgeExpiredLedgerEntries, Txn.commits_bind, Txn.commits_get, Txn.commits_ite,
    Txn.commits_throw, and_false, false_or, Txn.commits_modify, Txn.commits_pure] at commits
  obtain ⟨_, _, ⟨rfl, rfl⟩, old, _, _, rfl, rfl, rfl⟩ := commits
  rw [views.creditLedger] at old ⊢
  refine ⟨db.ledgerPurged now, ?_, ?_⟩
  · rw [RetentionDatabase.purgeExpiredLedgerEntries, if_neg old]
  · exact { views with
      refer := ⟨views.refer.emailChecks, views.refer.phoneChecks, views.refer.batches⟩
      creditLedger := rfl }

/-- A row of an organisation goes from the ones exactly when it goes from the others. -/
theorem filter_retired (views : Views db purgedOrgs tables) {ρ : Type} {rows rows' : List ρ}
    (org : ρ → Uuid) (refers : ∀ r ∈ rows, org r ∈ db.organizations.map (·.id))
    (same : rows' = rows) :
    rows'.filter (fun r => ¬ Retired purgedOrgs tables (org r)) =
      rows.filter fun r => ¬ db.Retired (org r) := by
  subst same
  exact List.filter_congr fun r member =>
    decide_eq_decide.2 (not_congr (views.retired (refers r member)))

theorem refers_retired {ρ : Type} {rows : List ρ} (org : ρ → Uuid)
    (refers : ∀ r ∈ rows, org r ∈ db.organizations.map (·.id)) :
    ∀ r ∈ rows.filter (fun r => ¬ db.Retired (org r)),
      org r ∈ db.deleteRetiredOrganizations.2.organizations.map (·.id) := by
  intro r member
  obtain ⟨inside, left⟩ := List.mem_filter.1 member
  obtain ⟨o, listed, same⟩ := List.mem_map.1 (refers r inside)
  refine List.mem_map.2 ⟨o, List.mem_filter.2 ⟨listed, ?_⟩, same⟩
  rw [same]
  exact left

theorem deleteRetiredOrganizations (views : Views db purgedOrgs tables) :
    Views db.deleteRetiredOrganizations.2 purgedOrgs
      (Txn.transaction (BatchFiles.deleteRetiredOrganizations purgedOrgs) tables).2 where
  refer :=
    { emailChecks := refers_retired EmailCheck.orgId views.refer.emailChecks
      phoneChecks := refers_retired PhoneCheck.orgId views.refer.phoneChecks
      batches := refers_retired Batch.orgId views.refer.batches }
  organizations := by
    have rows := views.filter_retired (fun o : OrganizationRow => o.id)
      (fun o member => List.mem_map_of_mem member) rfl
    show tables.organizations.filter _ = (db.organizations.filter _).map _
    rw [views.organizations, List.filter_map]
    exact congrArg _ rows
  creditLedger := views.creditLedger
  emailChecks := views.filter_retired EmailCheck.orgId views.refer.emailChecks views.emailChecks
  phoneChecks := views.filter_retired PhoneCheck.orgId views.refer.phoneChecks views.phoneChecks
  batches := views.filter_retired Batch.orgId views.refer.batches views.batches
  purged o member := views.purged o (List.mem_of_mem_filter member)

end Views

/-! ## Step by step -/

/-- A statement of the sweep that commits. -/
inductive Statement (now : Date) (db : RetentionDatabase) : RetentionDatabase → Prop
  | deleteBatchesByIds (ids : List Uuid) : Statement now db (db.deleteBatchesByIds ids).2
  | hardDeleteOrganizationData (orgId : Uuid) (draw : Draw) :
      Statement now db (db.hardDeleteOrganizationData orgId draw now)
  | purgeExpiredLedgerEntries (dbNow : Timestamp) {count : ℕ} {after : RetentionDatabase}
      (lets : db.purgeExpiredLedgerEntries dbNow now = some (count, after)) : Statement now db after
  | deleteRetiredOrganizations : Statement now db db.deleteRetiredOrganizations.2

/-- The tables that the two views are of, after a statement of the sweep or none. -/
def Follows (now : Date) (db : RetentionDatabase) (w : World) : Prop :=
  ∃ db', (db' = db ∨ Statement now db db') ∧ Views db' w.purgedOrgs w.db

section Follows

variable {now : Date} {db : RetentionDatabase} {w : World}

theorem Views.follows (views : Views db w.purgedOrgs w.db) : Follows now db w :=
  ⟨db, .inl rfl, views⟩

/-- A call to the bucket changes no row. -/
theorem Views.onBucket {α : Type} (views : Views db w.purgedOrgs w.db) (call : StorageCall α)
    {answer : Option α} {w' : World} (is : w.onBucket call = (answer, w')) :
    Follows now db w' := by
  have kept : Views db (w.onBucket call).2.purgedOrgs (w.onBucket call).2.db := by
    rw [World.onBucket]
    split <;> exact views
  rw [is] at kept
  exact kept.follows

/-- A transaction that is a statement of the sweep, whatever its caller is told. -/
theorem Views.onDb {α : Type} (views : Views db w.purgedOrgs w.db) {delivery : Delivery}
    {tx : Tx α} (commits : ∀ a tables, Txn.Commits tx w.db a tables →
      ∃ db', Statement now db db' ∧ Views db' w.purgedOrgs tables) {answer : Option α}
    {w' : World} (is : w.onDb delivery tx = (answer, w')) : Follows now db w' := by
  obtain ⟨-, rfl⟩ := Prod.mk.inj is
  rcases Txn.attempt_store delivery tx w.db with same | ⟨-, a, committed⟩
  · refine ⟨db, .inl rfl, ?_⟩
    show Views db w.purgedOrgs (Txn.attempt delivery tx w.db).2
    rw [same]
    exact views
  · obtain ⟨db', statement, views'⟩ := commits a _ committed
    exact ⟨db', .inr statement, views'⟩

/-- The stage of the sweep is no matter of the tables. -/
theorem Follows.removalOn (follows : Follows now db w) (r : Removal) (next : Option Removal) :
    Follows now db (w.removalOn r next) := follows

end Follows

/-- **A step of the sweep of the files** is a statement of the sweep of the tables, or none. -/
theorem sweepStep_statement {db : RetentionDatabase} {w : World}
    (views : Views db w.purgedOrgs w.db) (c : Circumstances) (now : Date)
    (cleared : List BatchRef) (stage : SweepStage) :
    Follows now db (w.sweepStep c now cleared stage) := by
  cases stage with
  | listing =>
      rw [World.sweepStep]
      simp only
      split <;> exact views.follows.removalOn _ _
  | deletingObjects page =>
      rw [World.sweepStep]
      split <;> rename_i is <;> exact (views.onBucket _ is).removalOn _ _
  | deletingRows page =>
      have statement : ∀ n tables,
          Txn.Commits (deleteBatchesByIds (page.map (·.id))) w.db n tables →
            ∃ db', Statement now db db' ∧ Views db' w.purgedOrgs tables := by
        intro n tables commits
        have deleted := views.deleteBatchesByIds (page.map (·.id))
        rw [← deleteBatchesByIds_transaction, Txn.transaction_of_commits commits] at deleted
        exact ⟨_, .deleteBatchesByIds _, deleted⟩
      rw [World.sweepStep]
      simp only
      split <;> rename_i is <;> exact (views.onDb statement is).removalOn _ _
  | purging due =>
      rw [World.sweepStep.eq_def]
      cases due with
      | nil => exact views.follows.removalOn _ _
      | cons orgId due =>
          simp only
          split <;> rename_i is <;> exact (views.onBucket _ is).removalOn _ _
  | emptying orgId keys due =>
      rw [World.sweepStep]
      split <;> rename_i is <;> exact (views.onBucket _ is).removalOn _ _
  | confirming orgId due =>
      rw [World.sweepStep]
      split
      · rename_i is
        exact (views.onBucket _ is).removalOn _ _
      · rename_i is
        exact (views.onBucket _ is).removalOn _ _
  | erasing orgId due =>
      have erased : Follows now db
          { w with db := w.db.wiped orgId, purgedOrgs := orgId :: w.purgedOrgs } :=
        ⟨_, .inr (.hardDeleteOrganizationData orgId ⟨0, orgId, orgId, orgId⟩),
          views.hardDeleteOrganizationData orgId _ now⟩
      rw [World.sweepStep]
      cases c.delivery with
      | answered => exact erased.removalOn _ _
      | lostAfter => exact erased.removalOn _ _
      | lostBefore => exact views.follows.removalOn _ _
  | exports =>
      rw [World.sweepStep]
      split <;> rename_i is <;> exact (views.onBucket _ is).removalOn _ _
  | ledger =>
      have statement : ∀ n tables,
          Txn.Commits (purgeExpiredLedgerEntries c.dbNow now) w.db n tables →
            ∃ db', Statement now db db' ∧ Views db' w.purgedOrgs tables := by
        intro n tables commits
        obtain ⟨after, lets, purged⟩ := views.purgeExpiredLedgerEntries commits
        exact ⟨after, .purgeExpiredLedgerEntries c.dbNow lets, purged⟩
      rw [World.sweepStep]
      split <;> rename_i is <;> exact (views.onDb statement is).removalOn _ _
  | retiring =>
      have statement : ∀ n tables,
          Txn.Commits (deleteRetiredOrganizations w.purgedOrgs) w.db n tables →
            ∃ db', Statement now db db' ∧ Views db' w.purgedOrgs tables := by
        intro n tables commits
        have retired := views.deleteRetiredOrganizations
        rw [Txn.transaction_of_commits commits] at retired
        exact ⟨_, .deleteRetiredOrganizations, retired⟩
      rw [World.sweepStep]
      simp only
      split <;> rename_i is <;> exact (views.onDb statement is).removalOn _ _

/-- **A sweep of the files that nobody interrupts** is a row of statements of the sweep of the
tables, whatever its calls answer. -/
theorem sweepSteps_statements {db : RetentionDatabase} {w : World}
    (views : Views db w.purgedOrgs w.db) (now : Date)
    (steps : List (Circumstances × List BatchRef × SweepStage)) :
    let last := steps.foldl (fun w step => w.sweepStep step.1 now step.2.1 step.2.2) w
    ∃ db', Relation.ReflTransGen (Statement now) db db' ∧ Views db' last.purgedOrgs last.db := by
  induction steps generalizing db w with
  | nil => exact ⟨db, .refl, views⟩
  | cons step steps ih =>
      obtain ⟨db', same | statement, views'⟩ :=
        sweepStep_statement views step.1 now step.2.1 step.2.2
      · exact ih (same ▸ views')
      · obtain ⟨last, further, views''⟩ := ih views'
        exact ⟨last, .head statement further, views''⟩

end Tozalist.Worker.BatchFiles
