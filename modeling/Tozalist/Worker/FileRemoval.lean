/-
# Tozalist.Worker.FileRemoval -- no file outlives the row of its batch

An operation that removes batches lists the objects of their rows, deletes them, and removes the
rows; a deletion removes its row first.  What the rows name is less than what is in the bucket
while a worker has stored a result that its row does not name yet, or never will.

* `Orderly` -- what every step keeps: objects and columns are named after their batch, and an id
  that was submitted once is not submitted again;
* `Covered` -- a removal has the keys of every object that is left of the batches in its hand, and
  what was removed has neither row nor objects;
* `no_file_outlives` -- in a run whose steps are `Careful`, nothing is left of a batch whose
  removal has reported success;
* `result_outlives` -- a wipe after a completion that failed leaves the result behind.
-/
import Tozalist.Worker.BatchFiles

namespace Tozalist.Worker.BatchFiles

set_option autoImplicit false

open Db
open Lifecycle (targetKeys)
open Shared (Bucket Replies Reply StorageCall StartsWith Thinned deleteObjects listKeys
  orgObjectPrefix)
open Theory (Interruptible Run Txn Executable)
open Theory.Interruptible (Ends)
open Theory.Txn (Delivery)

/-! ## What a removal has in its hand -/

/-- The row of the request is not submitted yet. -/
def Upload.Waiting (p : Upload) : Prop :=
  ∃ column header rows, p.stage = .inspected column header rows

theorem Upload.not_waiting {b : BatchRef} {stage : UploadStage}
    (other : ∀ column header rows, stage ≠ .inspected column header rows) :
    ∀ s ∈ some stage, ¬ Upload.Waiting ⟨b, s⟩ := by
  rintro s is ⟨column, header, rows, inspected⟩
  obtain rfl := Option.mem_some_iff.1 is
  exact other column header rows inspected

/-- Where a request goes on that was told what became of its row. -/
def UploadStage.told (rows : ℕ) : Option CreateBatchResult → Option UploadStage
  | some (.created _ _) => some (.enqueueing rows)
  | some _ => some .discarding
  | none => none

theorem World.created_eq (w : World) (p : Upload) (rows : ℕ) (answer : Option CreateBatchResult) :
    w.created p rows answer = w.uploadOn p (UploadStage.told rows answer) := by
  rcases answer with _ | _ | _ | _ <;> rfl

theorem UploadStage.told_later {b : BatchRef} {rows : ℕ} {answer : Option CreateBatchResult} :
    ∀ stage ∈ UploadStage.told rows answer, ¬ Upload.Waiting ⟨b, stage⟩ := by
  rcases answer with _ | _ | _ | _
  · exact nofun
  · exact Upload.not_waiting nofun
  · exact Upload.not_waiting nofun
  · exact Upload.not_waiting nofun

/-- The batches a sweep is about to remove. -/
def SweepStage.Charge : SweepStage → BatchRef → Prop
  | .deletingObjects page, b => ∃ t ∈ page, t.id = b.batchId
  | .deletingRows page, b => ∃ t ∈ page, t.id = b.batchId
  | .erasing orgId _, b => b.orgId = orgId
  | _, _ => False

/-- The organisations a sweep is about to purge. -/
def SweepStage.purges : SweepStage → List Uuid
  | .purging due => due
  | .emptying orgId _ due => orgId :: due
  | .confirming orgId due => orgId :: due
  | .erasing orgId due => orgId :: due
  | _ => []

/-- The rows of the page a sweep works on. -/
def SweepStage.page : SweepStage → List BatchPurgeTarget
  | .deletingObjects page => page
  | .deletingRows page => page
  | _ => []

/-- The keys of the page whose objects a sweep will still delete. -/
def SweepStage.keys : SweepStage → List String
  | .deletingObjects page => page.flatMap targetKeys
  | _ => []

namespace Removal

/-- The batches it is about to remove, whether they have a row or not. -/
def Charge : Removal → BatchRef → Prop
  | .deleting r _ _, b => b = r
  | .wiping orgId _, b => b.orgId = orgId
  | .wiped orgId, b => b.orgId = orgId
  | .sweeping _ _ stage, b => stage.Charge b
  | .recording _, _ => False

/-- The keys of the objects it will still delete. -/
def keys : Removal → List String
  | .deleting _ inputKey resultKey => [inputKey, resultKey]
  | .wiping _ keys => keys
  | .sweeping _ _ stage => stage.keys
  | _ => []

/-- The batch of a deletion whose row is gone. -/
def deletes : Removal → Option BatchRef
  | .deleting r _ _ => some r
  | _ => none

/-- The batches it has removed. -/
def cleared : Removal → List BatchRef
  | .sweeping _ cleared _ => cleared
  | .recording refs => refs
  | _ => []

/-- The organisations it is about to purge. -/
def purges : Removal → List Uuid
  | .sweeping _ _ stage => stage.purges
  | _ => []

/-- The ids it has seen. -/
def Names (r : Removal) (id : Uuid) : Prop :=
  (∃ b ∈ r.deletes, b.batchId = id) ∨ (∃ b ∈ r.cleared, b.batchId = id) ∨
    match r with
    | .sweeping _ _ stage => ∃ t ∈ stage.page, t.id = id
    | _ => False

end Removal

namespace World

variable (w : World)

/-- The removal is about to remove the batch: it has a row, or its deletion has not come to its
objects. -/
def InHand (r : Removal) (b : BatchRef) : Prop :=
  r.Charge b ∧ (w.HasRow b ∨ r.deletes = some b)

/-- The batch was removed, by an operation that is through or goes on to others. -/
def Settled (b : BatchRef) : Prop := b ∈ w.reported ∨ ∃ r ∈ w.removals, b ∈ r.cleared

/-- Nothing is left of the batch. -/
def Gone (b : BatchRef) : Prop := ¬ w.HasRow b ∧ ∀ key ∈ w.bucket.objects, ¬ b.Under key

/-- **No file outlives its batch**: with its removal reported, and no execution at work on it,
nothing lies under its prefix. -/
def NoFileOutlives : Prop :=
  ∀ b ∈ w.reported, (∀ x ∈ w.works, ref x.batch ≠ b) → ∀ key ∈ w.bucket.objects, ¬ b.Under key

/-! ## Careful steps -/

/-- Somebody is to delete a result of the batch that is stored now: its row is there, or its
deletion has not come to the objects, and every removal under way that is about to remove the
batch has the key. -/
def Accountable (b : BatchRef) : Prop :=
  (w.HasRow b ∨ ∃ r ∈ w.removals, r.deletes = some b) ∧
    ∀ r ∈ w.removals, w.InHand r b → b.resultKey ∈ r.keys

/-- A result is stored only where somebody is to delete it; a wipe or a sweep does not come upon a
stored result that the row does not name; and the bucket does what a deletion asks for. -/
def Careful : Action → Prop
  | .store x outcome => outcome.written = true → w.Accountable (ref x.batch)
  | .die x written =>
      written = true → (∃ days processed stats, x.stage = .storing days processed stats) →
        w.Accountable (ref x.batch)
  | .wipe orgId =>
      ∀ b ∈ w.db.batches, b.orgId = orgId → b.resultObjectKey = none →
        (ref b).resultKey ∉ w.bucket.objects
  | .advance (.sweeping _ _ .listing) c =>
      ∀ t ∈ c.page, t.resultObjectKey = none → (targetRef t).resultKey ∉ w.bucket.objects
  | .advance (.deleting _ _ _) c => c.replies w.bucket.requests = .done
  | _ => True

end World

/-! ## Transactions on rows -/

/-- The row names the objects of its batch. -/
def Named (b : Batch) : Prop :=
  b.inputObjectKey = (ref b).inputKey ∧ ∀ key ∈ b.resultObjectKey, key = (ref b).resultKey

/-- Rows go or change, with their batch and their objects named as before; organisations go, and
none becomes active. -/
structure Keeps (db db' : Database) : Prop where
  rows : ∀ b' ∈ db'.batches, ∃ b ∈ db.batches, ref b' = ref b ∧ (Named b → Named b')
  orgs : ∀ orgId, db'.ActiveOrg orgId → db.ActiveOrg orgId
  orgIds : List.Sublist (db'.organizations.map (·.id)) (db.organizations.map (·.id))

namespace Keeps

theorem refl (db : Database) : Keeps db db :=
  ⟨fun b member => ⟨b, member, rfl, id⟩, fun _ => id, List.Sublist.refl _⟩

theorem of_subset {db db' : Database} (rows : db'.batches ⊆ db.batches)
    (orgs : List.Sublist db'.organizations db.organizations) : Keeps db db' where
  rows b member := ⟨b, rows member, rfl, id⟩
  orgs orgId active := by
    obtain ⟨o, member, is⟩ := active
    exact ⟨o, orgs.subset member, is⟩
  orgIds := orgs.map _

theorem of_update {db : Database} {p : Batch → Prop} [DecidablePred p] {f : Batch → Batch}
    (same : ∀ b ∈ db.batches, p b → ref (f b) = ref b ∧ (Named b → Named (f b))) :
    Keeps db (db.updateBatches p f) := by
  refine ⟨?_, fun _ => id, List.Sublist.refl _⟩
  intro b' member
  obtain ⟨b, inside, rfl⟩ := List.mem_map.1 member
  refine ⟨b, inside, ?_⟩
  split
  · rename_i selected
    exact same b inside selected
  · exact ⟨rfl, id⟩

theorem with_ledger {db db' : Database} (keeps : Keeps db db') (entry : CreditLedgerEntry) :
    Keeps db (db'.withEntry entry) := ⟨keeps.rows, keeps.orgs, keeps.orgIds⟩

theorem of_delete (db : Database) (p : Batch → Prop) [DecidablePred p] :
    Keeps db (db.deleteBatches p) :=
  of_subset (fun _ member => (mem_deleteBatches.1 member).1) (List.Sublist.refl _)

theorem of_wiped (db : Database) (orgId : Uuid) : Keeps db (db.wiped orgId) :=
  of_subset (fun _ member => (mem_deleteBatches.1 member).1) (List.Sublist.refl _)

theorem hasRow {db db' : Database} (keeps : Keeps db db') {r : BatchRef}
    (row : ∃ b ∈ db'.batches, ref b = r) : ∃ b ∈ db.batches, ref b = r := by
  obtain ⟨b', member, rfl⟩ := row
  obtain ⟨b, inside, same, -⟩ := keeps.rows b' member
  exact ⟨b, inside, same.symm⟩

end Keeps

theorem claim_keeps (id : Uuid) {db db' : Database} {result : ClaimBatchResult}
    (commits : Txn.Commits (claimBatchForProcessing id) db result db') :
    Keeps db db' ∧ ∀ b ∈ result.batch?, ∃ row ∈ db.batches, ref b = ref row := by
  obtain ⟨result', ⟨commits', none_, -⟩ | ⟨row, member, -, -, batch, commits'⟩⟩ :=
    claimBatchForProcessing_commits id db
  · obtain ⟨rfl, rfl⟩ := commits.unique commits'
    refine ⟨.refl _, ?_⟩
    intro b is
    rw [none_] at is
    cases is
  · obtain ⟨rfl, rfl⟩ := commits.unique commits'
    refine ⟨.of_update fun b _ _ => ⟨rfl, fun named => named⟩, fun b is => ⟨row, member, ?_⟩⟩
    rw [batch, Option.mem_some_iff] at is
    rw [← is]
    rfl

theorem fail_keeps {input : FailBatchInput} {draw : Draw} {db db' : Database} {u : Unit}
    (commits : Txn.Commits (failBatch input draw) db u db') : Keeps db db' := by
  have failed : Keeps db (db.failed input) := .of_update fun b _ _ => ⟨rfl, id⟩
  rcases failBatch_commits.1 commits with ⟨-, rfl⟩ | ⟨-, -, ⟨-, rfl⟩ | ⟨-, rfl⟩⟩
  · exact failed
  · exact failed
  · exact failed.with_ledger _

/-- A completion names the result after its batch. -/
theorem complete_keeps {x : Batch} {days : Int} {processed : ℕ} {stats : BatchStats} {draw : Draw}
    {now : Date} {db db' : Database} {u : Unit}
    (own : ∀ b ∈ db.batches, b.id = x.id → b.orgId = x.orgId)
    (commits : Txn.Commits (completeBatch (loopCompletion x days processed stats) draw now) db u
      db') : Keeps db db' := by
  have completed : Keeps db (db.completed (loopCompletion x days processed stats) now) := by
    refine .of_update fun b member same => ⟨rfl, fun named => ⟨named.1, fun key is => ?_⟩⟩
    have org := own b member same
    change b.id = x.id at same
    rw [Batch.complete, Option.mem_some_iff] at is
    show key = batchResultKey b.orgId b.id
    rw [← is, org, same]
    rfl
  rcases completeBatch_commits.1 commits with ⟨-, rfl⟩ | ⟨-, -, -, rfl⟩
  · exact completed
  · exact completed.with_ledger _

theorem delete_keeps {id orgId : Uuid} {draw : Draw} {db db' : Database}
    {result : DeleteBatchResult}
    (commits : Txn.Commits (deleteBatchForOrg id orgId draw) db result db') : Keeps db db' := by
  rcases deleteBatchForOrg_commits commits with rfl | ⟨row, -, -, -, ⟨-, rfl⟩ | ⟨-, -, ⟨-, rfl⟩ |
    ⟨-, rfl⟩⟩⟩
  · exact .refl _
  · exact .of_delete _ _
  · exact .of_delete _ _
  · exact .of_subset (fun _ member => (mem_deleteBatches.1 member).1) (List.Sublist.refl _)

/-- A deletion that answers names the objects of the row it has removed. -/
theorem delete_answer {id orgId : Uuid} {draw : Draw} {db db' : Database} {inputObjectKey : String}
    {resultObjectKey : Option String} {refunded : ℕ}
    (commits : Txn.Commits (deleteBatchForOrg id orgId draw) db
      (.deleted inputObjectKey resultObjectKey refunded) db') :
    ∃ row ∈ db.batches, row.id = id ∧ row.orgId = orgId ∧ inputObjectKey = row.inputObjectKey ∧
      resultObjectKey = row.resultObjectKey ∧ ∀ b ∈ db'.batches, b.id ≠ id := by
  simp only [deleteBatchForOrg, Txn.commits_bind, Txn.commits_get] at commits
  obtain ⟨_, _, ⟨rfl, rfl⟩, commits⟩ := commits
  split at commits
  · cases ((Txn.commits_pure _ _ _ _).1 commits).1
  · rename_i row found
    have here := List.find?_some found
    simp only [decide_eq_true_eq] at here
    simp only [Txn.commits_ite, Txn.commits_pure, Txn.commits_bind, Txn.commits_modify] at commits
    rcases commits with ⟨-, is, -⟩ | ⟨-, _, _, -, _, _, rfl, is, rfl⟩
    · cases is
    · cases is
      refine ⟨row, List.mem_of_find?_eq_some found, here.1, here.2, rfl, rfl, ?_⟩
      intro b member same
      exact (mem_deleteBatches.1 member).2 (same.trans here.1.symm)

theorem softDelete_keeps {orgId user : Uuid} {draw : Draw} {now : Date} {db db' : Database}
    {result : Bool}
    (commits : Txn.Commits (softDeleteOrganization orgId user draw now) db result db') :
    Keeps db db' := by
  obtain ⟨-, batches, active⟩ := softDeleteOrganization_commits commits
  refine ⟨fun b member => ⟨b, ?_, rfl, id⟩, active, ?_⟩
  · rwa [batches] at member
  · simp only [softDeleteOrganization, Txn.commits_bind, Txn.commits_get, Txn.commits_ite,
      Txn.commits_pure, Txn.commits_modify, recordAuditEvent] at commits
    obtain ⟨_, _, ⟨rfl, rfl⟩, ⟨-, -, rfl⟩ | ⟨-, _, _, rfl, _, _, rfl, -, rfl⟩⟩ := commits
    · exact List.Sublist.refl _
    · have same : (fun o : Organization => o.id) ∘ Organization.softDelete orgId now =
          fun o => o.id := by
        funext o
        rw [Function.comp_apply, Organization.softDelete]
        split <;> rfl
      rw [List.map_map, same]

theorem purgeLedger_keeps {dbNow : Timestamp} {now : Date} {db db' : Database} {count : ℕ}
    (commits : Txn.Commits (purgeExpiredLedgerEntries dbNow now) db count db') : Keeps db db' := by
  rw [purgeExpiredLedgerEntries_commits commits]
  exact ⟨fun b member => ⟨b, member, rfl, id⟩, fun _ => id, List.Sublist.refl _⟩

theorem retire_keeps {purgedOrgs : List Uuid} {db db' : Database} {u : Unit}
    (commits : Txn.Commits (deleteRetiredOrganizations purgedOrgs) db u db') : Keeps db db' := by
  rw [deleteRetiredOrganizations, Txn.commits_modify] at commits
  subst commits
  exact .of_subset (List.filter_subset_self _) List.filter_sublist

/-! ## Order -/

/-- An id is drawn once, and submitted once. -/
structure Requested (w : World) : Prop where
  submitted : ∀ id ∈ w.submitted, id ∈ w.drawn
  uploads : ∀ p ∈ w.uploads, p.ref.batchId ∈ w.drawn ∧ (p.Waiting → p.ref.batchId ∉ w.submitted)
  distinct : (w.uploads.map (·.ref.batchId)).Nodup

/-- Objects and rows are named after their batch; an id is seen by others only when it was
submitted; organisations that are purged, or about to be, are not active. -/
structure Orderly (w : World) : Prop extends Requested w where
  rows : ∀ b ∈ w.db.batches, b.id ∈ w.submitted ∧ Named b
  unique : ∀ b ∈ w.db.batches, ∀ b' ∈ w.db.batches, b.id = b'.id → b.orgId = b'.orgId
  objects : ∀ key ∈ w.bucket.objects, ∀ r : BatchRef, r.Under key →
    r.batchId ∈ w.drawn ∧ (key = r.inputKey ∨ key = r.resultKey)
  works : ∀ x ∈ w.works, x.batch.id ∈ w.submitted ∧
    ∀ b ∈ w.db.batches, b.id = x.batch.id → b.orgId = x.batch.orgId
  names : ∀ r ∈ w.removals, ∀ id, r.Names id → id ∈ w.submitted
  reported : ∀ b ∈ w.reported, b.batchId ∈ w.submitted
  due : ∀ r ∈ w.removals, ∀ orgId ∈ r.purges, ¬ w.db.ActiveOrg orgId
  purged : ∀ orgId ∈ w.purgedOrgs,
    ¬ w.db.ActiveOrg orgId ∧ ∀ b ∈ w.db.batches, b.orgId ≠ orgId
  orgIds : (w.db.organizations.map (·.id)).Nodup

theorem World.Initial.orderly {w : World} (initial : w.Initial) : Orderly w where
  submitted := by simp [initial.submitted]
  uploads := by simp [initial.uploads]
  distinct := by simp [initial.uploads]
  rows := by simp [initial.batches]
  unique := by simp [initial.batches]
  objects key member r under := absurd under (initial.objects key member r)
  works := by simp [initial.works]
  names := by simp [initial.removals]
  reported := by simp [initial.reported]
  due := by simp [initial.removals]
  purged orgId member := ⟨initial.purged orgId member, by simp [initial.batches]⟩
  orgIds := initial.orgIds

/-- What a call to the database leaves. -/
theorem onDb_cases {α : Type} (w : World) (delivery : Delivery) (tx : Tx α) :
    w.onDb delivery tx = (none, w) ∨ ∃ a db', Txn.Commits tx w.db a db' ∧
      (w.onDb delivery tx = (some a, { w with db := db' }) ∨
        w.onDb delivery tx = (none, { w with db := db' })) := by
  rcases Txn.attempt_cases delivery tx w.db with eq | ⟨a, db', commits, -, eq⟩
  · refine .inl ?_
    rw [World.onDb, eq]
  · refine .inr ⟨a, db', commits, eq.imp ?_ ?_⟩ <;>
    · intro eq
      rw [World.onDb, eq]

/-- What a call to the bucket leaves. -/
theorem onBucket_cases {α : Type} (w : World) {call : StorageCall α} {answers : α → Bucket → Prop}
    {stops : Shared.StorageError → Bucket → Prop} (ends_ : Ends call w.bucket answers stops) :
    (∃ a bucket, w.onBucket call = (some a, { w with bucket }) ∧ answers a bucket) ∨
      ∃ e bucket, w.onBucket call = (none, { w with bucket }) ∧ stops e bucket := by
  cases is : Interruptible.exec call w.bucket with
  | mk answer bucket =>
      cases answer with
      | ok a =>
          refine .inl ⟨a, bucket, ?_, ends_.of_ok is⟩
          rw [World.onBucket, is]
      | error e =>
          refine .inr ⟨e, bucket, ?_, ends_.of_error is⟩
          rw [World.onBucket, is]

namespace Requested

variable {w w' : World}

/-- Other parties go on. -/
theorem congr (requested : Requested w) (uploads : w'.uploads = w.uploads)
    (submitted : w'.submitted = w.submitted) (drawn : w'.drawn = w.drawn) : Requested w' where
  submitted := by
    rw [submitted, drawn]
    exact requested.submitted
  uploads := by
    rw [uploads, submitted, drawn]
    exact requested.uploads
  distinct := by
    rw [uploads]
    exact requested.distinct

theorem upload (requested : Requested w) {b : BatchRef} (fresh : b.batchId ∉ w.drawn)
    (stage : UploadStage) :
    Requested { w with drawn := b.batchId :: w.drawn, uploads := ⟨b, stage⟩ :: w.uploads } := by
  refine ⟨?_, ?_, ?_⟩
  · intro id member
    exact List.mem_cons_of_mem _ (requested.submitted id member)
  · intro p member
    rcases List.mem_cons.1 member with rfl | old
    · exact ⟨List.mem_cons_self, fun _ spent => fresh (requested.submitted _ spent)⟩
    · exact ⟨List.mem_cons_of_mem _ (requested.uploads p old).1, (requested.uploads p old).2⟩
  · refine List.nodup_cons.2 ⟨fun member => fresh ?_, requested.distinct⟩
    obtain ⟨p, inside, is⟩ := List.mem_map.1 member
    have known := (requested.uploads p inside).1
    rwa [show p.ref.batchId = b.batchId from is] at known

theorem uploadOn (requested : Requested w) {p : Upload} (member : p ∈ w.uploads)
    {next : Option UploadStage} (later : ∀ stage ∈ next, ¬ Upload.Waiting ⟨p.ref, stage⟩) :
    Requested (w.uploadOn p next) := by
  refine { requested with uploads := ?_, distinct := ?_ }
  · intro q inside
    rcases List.mem_append.1 inside with new | old
    · obtain ⟨stage, is, rfl⟩ := by simpa using new
      exact ⟨(requested.uploads p member).1, fun waiting => absurd waiting (later stage is)⟩
    · exact requested.uploads q (List.mem_of_mem_erase old)
  · have same : (p :: w.uploads.erase p).map (·.ref.batchId) |>.Nodup :=
      (((List.perm_cons_erase member).map _).nodup_iff).1 requested.distinct
    cases next with
    | none => exact (List.nodup_cons.1 same).2
    | some stage => exact same

/-- The id of a request is spent when its row is submitted, whatever comes of it. -/
theorem submit (requested : Requested w) {p : Upload} (member : p ∈ w.uploads)
    {next : Option UploadStage} (later : ∀ stage ∈ next, ¬ Upload.Waiting ⟨p.ref, stage⟩) :
    Requested { w.uploadOn p next with submitted := p.ref.batchId :: w.submitted } := by
  have moved := requested.uploadOn member later
  have apart : ∀ q ∈ w.uploads.erase p, q.ref.batchId ≠ p.ref.batchId := by
    have once : ((p :: w.uploads.erase p).map (·.ref.batchId)).Nodup :=
      (((List.perm_cons_erase member).map _).nodup_iff).1 requested.distinct
    intro q inside same
    exact (List.nodup_cons.1 once).1 (List.mem_map.2 ⟨q, inside, same⟩)
  refine { moved with submitted := ?_, uploads := ?_ }
  · intro id inside
    rcases List.mem_cons.1 inside with rfl | old
    · exact (requested.uploads p member).1
    · exact requested.submitted id old
  · intro q inside
    refine ⟨(moved.uploads q inside).1, ?_⟩
    intro waiting spent
    rcases List.mem_append.1 inside with new | old
    · obtain ⟨stage, is, rfl⟩ := by simpa using new
      exact later stage is waiting
    · rcases List.mem_cons.1 spent with same | before
      · exact apart q old same
      · exact (moved.uploads q inside).2 waiting before

end Requested

namespace Orderly

variable {w : World}

theorem keeps (orderly : Orderly w) {db : Database} (keeps : Keeps w.db db) :
    Orderly { w with db } := by
  have old : ∀ b' ∈ db.batches, ∃ b ∈ w.db.batches, b'.id = b.id ∧ b'.orgId = b.orgId ∧
      (Named b → Named b') := by
    intro b' member
    obtain ⟨b, inside, same, named⟩ := keeps.rows b' member
    exact ⟨b, inside, congrArg BatchRef.batchId same, congrArg BatchRef.orgId same, named⟩
  refine { orderly with
    rows := ?_, unique := ?_, works := ?_, due := ?_, purged := ?_,
    orgIds := orderly.orgIds.sublist keeps.orgIds }
  · intro b' member
    obtain ⟨b, inside, id, -, named⟩ := old b' member
    rw [id]
    exact ⟨(orderly.rows b inside).1, named (orderly.rows b inside).2⟩
  · intro b' member c' member' same
    obtain ⟨b, inside, id, org, -⟩ := old b' member
    obtain ⟨c, inside', id', org', -⟩ := old c' member'
    rw [org, org']
    exact orderly.unique b inside c inside' (by rw [← id, ← id', same])
  · intro x member
    refine ⟨(orderly.works x member).1, ?_⟩
    intro b' inside' same
    obtain ⟨b, inside, id, org, -⟩ := old b' inside'
    rw [org]
    exact (orderly.works x member).2 b inside (by rw [← id, same])
  · intro r member orgId due active
    exact orderly.due r member orgId due (keeps.orgs orgId active)
  · intro orgId member
    refine ⟨fun active => (orderly.purged orgId member).1 (keeps.orgs orgId active), ?_⟩
    intro b' member'
    obtain ⟨b, inside, -, org, -⟩ := old b' member'
    rw [org]
    exact (orderly.purged orgId member).2 b inside

theorem onDb {α : Type} (orderly : Orderly w) {delivery : Delivery} {tx : Tx α}
    (keeps_ : ∀ a db, Txn.Commits tx w.db a db → Keeps w.db db) :
    Orderly (w.onDb delivery tx).2 := by
  rcases onDb_cases w delivery tx with eq | ⟨a, db, commits, eq | eq⟩
  · rw [eq]
    exact orderly
  · rw [eq]
    exact orderly.keeps (keeps_ a db commits)
  · rw [eq]
    exact orderly.keeps (keeps_ a db commits)

theorem fewer (orderly : Orderly w) {bucket : Bucket}
    (subset : bucket.objects ⊆ w.bucket.objects) : Orderly { w with bucket } :=
  { orderly with objects := fun key member => orderly.objects key (subset member) }

theorem uploadOn (orderly : Orderly w) {p : Upload} (member : p ∈ w.uploads)
    {next : Option UploadStage} (later : ∀ stage ∈ next, ¬ Upload.Waiting ⟨p.ref, stage⟩) :
    Orderly (w.uploadOn p next) :=
  { orderly with toRequested := orderly.toRequested.uploadOn member later }

theorem workOn (orderly : Orderly w) {x : Work} (member : x ∈ w.works) (next : Option WorkStage) :
    Orderly (w.workOn x next) := by
  refine { orderly with works := fun y inside => ?_ }
  rcases List.mem_append.1 inside with new | old
  · obtain ⟨stage, -, rfl⟩ := by simpa using new
    exact orderly.works x member
  · exact orderly.works y (List.mem_of_mem_erase old)

/-- Removals that have seen nothing new. -/
theorem removals (orderly : Orderly w) {rest : List Removal}
    (known : ∀ q ∈ rest, q ∈ w.removals ∨ (∀ id, q.Names id → id ∈ w.submitted) ∧
      ∀ orgId ∈ q.purges, ¬ w.db.ActiveOrg orgId) : Orderly { w with removals := rest } := by
  refine { orderly with names := ?_, due := ?_ }
  · intro q member
    rcases known q member with old | ⟨names, -⟩
    · exact orderly.names q old
    · exact names
  · intro q member
    rcases known q member with old | ⟨-, due⟩
    · exact orderly.due q old
    · exact due

theorem removalOn (orderly : Orderly w) {r : Removal} {next : Option Removal}
    (known : ∀ q ∈ next, (∀ id, q.Names id → id ∈ w.submitted) ∧
      ∀ orgId ∈ q.purges, ¬ w.db.ActiveOrg orgId) : Orderly (w.removalOn r next) := by
  apply orderly.removals
  intro q member
  rcases List.mem_append.1 member with new | old
  · exact .inr (known q (Option.mem_toList.1 new))
  · exact .inl (List.mem_of_mem_erase old)

theorem mem_putObject {bucket : Bucket} {key key' : String}
    (member : key' ∈ (putObject bucket key).objects) : key' = key ∨ key' ∈ bucket.objects := by
  rw [putObject] at member
  split at member
  · exact .inr member
  · exact List.mem_cons.1 member

/-- An object is written under the name of a batch whose id was drawn. -/
theorem put (orderly : Orderly w) {b : BatchRef} {key : String} (drawn : b.batchId ∈ w.drawn)
    (named : key = b.inputKey ∨ key = b.resultKey) (written : Bool) :
    Orderly (w.put key written) := by
  cases written with
  | false => exact orderly
  | true =>
      refine { orderly with objects := fun key' member r under => ?_ }
      rcases mem_putObject member with rfl | old
      · have own : b.Under key' := by
          rcases named with rfl | rfl
          · exact b.under_inputKey
          · exact b.under_resultKey
        rw [BatchRef.under_inj under own]
        exact ⟨drawn, named⟩
      · exact orderly.objects key' old r under

end Orderly

/-! ## Cover -/

/-- A removal has the key of every object of the batches in its hand; the row of a deletion is
gone, no other operation is to remove that batch, and nothing is left of what was removed. -/
structure Covered (w : World) : Prop where
  charged : ∀ r ∈ w.removals, ∀ b, w.InHand r b →
    ∀ key ∈ w.bucket.objects, b.Under key → key ∈ r.keys
  deleted : ∀ r ∈ w.removals, ∀ b ∈ r.deletes, ¬ w.HasRow b ∧ ¬ w.Settled b
  single : (w.removals.filterMap Removal.deletes).Nodup
  settled : ∀ b, w.Settled b → w.Gone b

theorem World.Initial.covered {w : World} (initial : w.Initial) : Covered w where
  charged := by simp [initial.removals]
  deleted := by simp [initial.removals]
  single := by simp [initial.removals]
  settled b := by simp [World.Settled, initial.reported, initial.removals]

namespace Covered

variable {w w' : World}

/-- Fewer rows, fewer objects, and the removals as they were. -/
theorem fewer (covered : Covered w) (rows : ∀ b, w'.HasRow b → w.HasRow b)
    (objects : w'.bucket.objects ⊆ w.bucket.objects) (removals : w'.removals = w.removals)
    (reported : w'.reported = w.reported) : Covered w' where
  charged r member b inHand key there := by
    rw [removals] at member
    exact covered.charged r member b ⟨inHand.1, inHand.2.imp_left (rows b)⟩ key (objects there)
  deleted r member b is := by
    rw [removals] at member
    obtain ⟨none_, not_⟩ := covered.deleted r member b is
    refine ⟨fun row => none_ (rows b row), ?_⟩
    rwa [World.Settled, reported, removals]
  single := by
    rw [removals]
    exact covered.single
  settled b settled := by
    rw [World.Settled, reported, removals] at settled
    obtain ⟨none_, clean⟩ := covered.settled b settled
    exact ⟨fun row => none_ (rows b row), fun key there => clean key (objects there)⟩

theorem keeps (covered : Covered w) {db : Database} (keeps : Keeps w.db db) :
    Covered { w with db } :=
  covered.fewer (fun _ => keeps.hasRow) (List.Subset.refl _) rfl rfl

theorem onDb {α : Type} (covered : Covered w) {delivery : Delivery} {tx : Tx α}
    (keeps_ : ∀ a db, Txn.Commits tx w.db a db → Keeps w.db db) :
    Covered (w.onDb delivery tx).2 := by
  rcases onDb_cases w delivery tx with eq | ⟨a, db, commits, eq | eq⟩
  · rw [eq]
    exact covered
  · rw [eq]
    exact covered.keeps (keeps_ a db commits)
  · rw [eq]
    exact covered.keeps (keeps_ a db commits)

theorem thin (covered : Covered w) {bucket : Bucket}
    (subset : bucket.objects ⊆ w.bucket.objects) : Covered { w with bucket } :=
  covered.fewer (fun _ => id) subset rfl rfl

theorem uploadOn (covered : Covered w) (p : Upload) (next : Option UploadStage) :
    Covered (w.uploadOn p next) :=
  covered.fewer (fun _ => id) (List.Subset.refl _) rfl rfl

theorem workOn (covered : Covered w) (x : Work) (next : Option WorkStage) :
    Covered (w.workOn x next) :=
  covered.fewer (fun _ => id) (List.Subset.refl _) rfl rfl

/-- **A removal goes on**: what it has in its hand then is covered, and of what it has removed
besides nothing is left. -/
theorem removalOn (covered : Covered w) {r : Removal} {next : Option Removal}
    (member : r ∈ w.removals)
    (charged : ∀ q ∈ next, q.deletes = none ∧ ∀ b, w.InHand q b →
      ∀ key ∈ w.bucket.objects, b.Under key → key ∈ q.keys)
    (cleared : ∀ q ∈ next, ∀ b ∈ q.cleared, b ∈ r.cleared ∨
      (w.Gone b ∧ ∀ q' ∈ w.removals.erase r, b ∉ q'.deletes)) :
    Covered (w.removalOn r next) := by
  have split_ : ∀ q ∈ (w.removalOn r next).removals, q ∈ next ∨ q ∈ w.removals.erase r := by
    intro q inside
    exact (List.mem_append.1 inside).imp_left Option.mem_toList.1
  have before : ∀ b, (w.removalOn r next).Settled b → w.Settled b ∨
      (w.Gone b ∧ ∀ q' ∈ w.removals.erase r, b ∉ q'.deletes) := by
    rintro b (said | ⟨q, inside, among⟩)
    · exact .inl (.inl said)
    · rcases split_ q inside with new | old
      · exact (cleared q new b among).imp_left fun own => .inr ⟨r, member, own⟩
      · exact .inl (.inr ⟨q, List.mem_of_mem_erase old, among⟩)
  refine ⟨?_, ?_, ?_, ?_⟩
  · intro q inside b inHand
    rcases split_ q inside with new | old
    · exact (charged q new).2 b inHand
    · exact covered.charged q (List.mem_of_mem_erase old) b inHand
  · intro q inside b is
    rcases split_ q inside with new | old
    · rw [(charged q new).1] at is
      cases is
    · obtain ⟨none_, not_⟩ := covered.deleted q (List.mem_of_mem_erase old) b is
      refine ⟨none_, ?_⟩
      intro settled
      rcases before b settled with earlier | ⟨-, apart⟩
      · exact not_ earlier
      · exact apart q old is
  · have quiet : next.toList.filterMap Removal.deletes = [] := by
      rw [List.filterMap_eq_nil_iff]
      intro q inside
      exact (charged q (Option.mem_toList.1 inside)).1
    show ((next.toList ++ w.removals.erase r).filterMap Removal.deletes).Nodup
    rw [List.filterMap_append, quiet, List.nil_append]
    exact covered.single.sublist (List.erase_sublist.filterMap _)
  · intro b settled
    exact (before b settled).elim (covered.settled b) And.left

/-- A removal goes on without having removed anything. -/
theorem removalOn_same (covered : Covered w) {r : Removal} {next : Option Removal}
    (member : r ∈ w.removals)
    (charged : ∀ q ∈ next, q.deletes = none ∧ ∀ b, w.InHand q b →
      ∀ key ∈ w.bucket.objects, b.Under key → key ∈ q.keys)
    (cleared : ∀ q ∈ next, q.cleared ⊆ r.cleared) : Covered (w.removalOn r next) :=
  covered.removalOn member charged fun q is _ among => .inl (cleared q is among)

theorem drop (covered : Covered w) {r : Removal} (member : r ∈ w.removals) :
    Covered (w.removalOn r none) :=
  covered.removalOn_same member nofun nofun

/-- A removal begins. -/
theorem begins (covered : Covered w) {r : Removal} (quiet : r.deletes = none)
    (fresh : r.cleared = [])
    (charged : ∀ b, w.InHand r b → ∀ key ∈ w.bucket.objects, b.Under key → key ∈ r.keys) :
    Covered { w with removals := r :: w.removals } := by
  have before : ∀ b, World.Settled { w with removals := r :: w.removals } b → w.Settled b := by
    rintro b (said | ⟨q, inside, among⟩)
    · exact .inl said
    · rcases List.mem_cons.1 inside with rfl | old
      · rw [fresh] at among
        cases among
      · exact .inr ⟨q, old, among⟩
  refine ⟨?_, ?_, ?_, fun b settled => covered.settled b (before b settled)⟩
  · intro q inside b inHand
    rcases List.mem_cons.1 inside with rfl | old
    · exact charged b inHand
    · exact covered.charged q old b inHand
  · intro q inside b is
    rcases List.mem_cons.1 inside with rfl | old
    · rw [quiet] at is
      cases is
    · obtain ⟨none_, not_⟩ := covered.deleted q old b is
      exact ⟨none_, fun settled => not_ (before b settled)⟩
  · rw [List.filterMap_cons_none quiet]
    exact covered.single

/-- A result is stored for which somebody is accountable. -/
theorem put (covered : Covered w) {b : BatchRef} {key : String} (own : b.Under key)
    (charged : ∀ r ∈ w.removals, w.InHand r b → key ∈ r.keys) (open_ : ¬ w.Settled b)
    (written : Bool) : Covered (w.put key written) := by
  cases written with
  | false => exact covered
  | true =>
      refine { covered with charged := ?_, settled := ?_ }
      · intro r member b' inHand key' there under
        rcases Orderly.mem_putObject there with rfl | old
        · rw [BatchRef.under_inj under own] at inHand
          exact charged r member inHand
        · exact covered.charged r member b' inHand key' old under
      · intro b' settled
        refine ⟨(covered.settled b' settled).1, ?_⟩
        intro key' there under
        rcases Orderly.mem_putObject there with rfl | old
        · rw [BatchRef.under_inj under own] at settled
          exact open_ settled
        · exact (covered.settled b' settled).2 key' old under

end Covered

/-! ## Calls to the bucket -/

theorem deleteListed_ends (replies : Replies) (keys : List String) (bucket : Bucket) :
    Ends (deleteListed replies keys) bucket
      (fun _ after => after.objects = bucket.objects.filter fun key => !decide (key ∈ keys))
      fun _ after => Thinned keys bucket.objects after.objects := by
  rw [deleteListed, Interruptible.ends_ite]
  constructor
  · rintro rfl
    simp
  · intro _
    exact (Shared.deleteObjects_ends replies keys bucket).mono (fun _ _ => id) fun _ _ stops =>
      stops.2

/-- The call writes nothing. -/
def Shrinks {α : Type} (call : StorageCall α) : Prop :=
  ∀ bucket : Bucket, Ends call bucket (fun _ after => after.objects ⊆ bucket.objects)
    fun _ after => after.objects ⊆ bucket.objects

theorem shrinks_deleteObjects (replies : Replies) (keys : List String) :
    Shrinks (deleteObjects replies keys) := by
  intro bucket
  refine (Shared.deleteObjects_ends replies keys bucket).mono (fun _ after is => ?_)
    fun _ _ stops => stops.2.subset
  rw [is]
  exact List.filter_subset_self _

theorem shrinks_deleteListed (replies : Replies) (keys : List String) :
    Shrinks (deleteListed replies keys) := by
  intro bucket
  refine (deleteListed_ends replies keys bucket).mono (fun _ after is => ?_)
    fun _ _ thinned => thinned.subset
  rw [is]
  exact List.filter_subset_self _

theorem shrinks_listKeys (replies : Replies) (start : String) :
    Shrinks (listKeys replies start) := by
  intro bucket
  refine (Shared.listKeys_ends replies start bucket).mono (fun _ after is => ?_)
    fun _ after is => ?_
  · rw [is.2]
    exact List.Subset.refl _
  · rw [is.2]
    exact List.Subset.refl _

theorem shrinks_deleteStaleExports (replies : Replies) (now : Date) :
    Shrinks (deleteStaleExports replies now) := by
  intro bucket
  rw [deleteStaleExports, Interruptible.ends_bind]
  refine (shrinks_listKeys replies "org/" bucket).mono (fun keys middle subset => ?_)
    fun _ _ subset => subset
  exact (shrinks_deleteListed replies _ middle).mono (fun _ _ more => List.Subset.trans more subset)
    fun _ _ more => List.Subset.trans more subset

/-! ## One step -/

/-- The invariant. -/
structure Tidy (w : World) : Prop where
  orderly : Orderly w
  covered : Covered w

namespace Tidy

variable {w : World}

theorem onDb {α : Type} (tidy : Tidy w) {delivery : Delivery} {tx : Tx α}
    (keeps_ : ∀ a db, Txn.Commits tx w.db a db → Keeps w.db db) : Tidy (w.onDb delivery tx).2 :=
  ⟨tidy.orderly.onDb keeps_, tidy.covered.onDb keeps_⟩

theorem onBucket {α : Type} (tidy : Tidy w) {call : StorageCall α} (shrinks : Shrinks call) :
    Tidy (w.onBucket call).2 := by
  rcases onBucket_cases w (shrinks w.bucket) with ⟨a, bucket, eq, subset⟩ | ⟨e, bucket, eq, subset⟩
  · rw [eq]
    exact ⟨tidy.orderly.fewer subset, tidy.covered.thin subset⟩
  · rw [eq]
    exact ⟨tidy.orderly.fewer subset, tidy.covered.thin subset⟩

theorem uploadOn (tidy : Tidy w) {p : Upload} (member : p ∈ w.uploads)
    {next : Option UploadStage} (later : ∀ stage ∈ next, ¬ Upload.Waiting ⟨p.ref, stage⟩) :
    Tidy (w.uploadOn p next) :=
  ⟨tidy.orderly.uploadOn member later, tidy.covered.uploadOn p next⟩

theorem uploadEnds (tidy : Tidy w) {p : Upload} (member : p ∈ w.uploads) :
    Tidy (w.uploadOn p none) :=
  tidy.uploadOn member nofun

theorem workOn (tidy : Tidy w) {x : Work} (member : x ∈ w.works) (next : Option WorkStage) :
    Tidy (w.workOn x next) :=
  ⟨tidy.orderly.workOn member next, tidy.covered.workOn x next⟩

/-- A removal that is dropped, or throws. -/
theorem drop (tidy : Tidy w) {r : Removal} (member : r ∈ w.removals) :
    Tidy (w.removalOn r none) :=
  ⟨tidy.orderly.removalOn nofun, tidy.covered.drop member⟩

/-! ### Requests -/

/-- Whoever has an id in hand, or has removed it, knows it from a row. -/
theorem unseen (tidy : Tidy w) {b : BatchRef} (fresh : b.batchId ∉ w.submitted) :
    ¬ w.HasRow b ∧ ¬ w.Settled b ∧ ∀ r ∈ w.removals, b ∉ r.deletes := by
  refine ⟨?_, ?_, fun r member is => fresh ?_⟩
  · rintro ⟨row, member, rfl⟩
    exact fresh (tidy.orderly.rows row member).1
  · rintro (said | ⟨r, member, among⟩)
    · exact fresh (tidy.orderly.reported b said)
    · exact fresh (tidy.orderly.names r member _ (.inr (.inl ⟨b, among, rfl⟩)))
  · exact tidy.orderly.names r member _ (.inl ⟨b, is, rfl⟩)

theorem upload (tidy : Tidy w) {b : BatchRef} (fresh : b.batchId ∉ w.drawn)
    (outcome : UploadOutcome) : Tidy (w.after (.upload b outcome)) := by
  have unsubmitted : b.batchId ∉ w.submitted := fun member =>
    fresh (tidy.orderly.submitted _ member)
  obtain ⟨rowless, open_, undeleted⟩ := tidy.unseen unsubmitted
  let drawn : World :=
    { w with drawn := b.batchId :: w.drawn, uploads := ⟨b, outcome.stage⟩ :: w.uploads }
  have orderly : Orderly drawn := by
    refine { tidy.orderly with
      toRequested := tidy.orderly.toRequested.upload fresh _, objects := ?_ }
    intro key member r under
    obtain ⟨known, named⟩ := tidy.orderly.objects key member r under
    exact ⟨List.mem_cons_of_mem _ known, named⟩
  have covered : Covered drawn :=
    tidy.covered.fewer (fun _ => id) (List.Subset.refl _) rfl rfl
  have same : w.after (.upload b outcome) = drawn.put b.inputKey outcome.written := by
    rw [World.after]
    cases outcome.written with
    | false => rfl
    | true => rfl
  rw [same]
  refine ⟨orderly.put List.mem_cons_self (.inl rfl) _, covered.put b.under_inputKey ?_ open_ _⟩
  intro r member inHand
  rcases inHand.2 with row | is
  · exact absurd row rowless
  · exact absurd is (undeleted r member)

theorem submit (tidy : Tidy w) {p : Upload} (member : p ∈ w.uploads) {next : Option UploadStage}
    (later : ∀ stage ∈ next, ¬ Upload.Waiting ⟨p.ref, stage⟩) :
    Tidy { w.uploadOn p next with submitted := p.ref.batchId :: w.submitted } := by
  have moved := tidy.orderly.uploadOn member later
  refine ⟨{ moved with
    toRequested := tidy.orderly.toRequested.submit member later
    rows := ?_, works := ?_, names := ?_, reported := ?_ },
    (tidy.covered.uploadOn p next).fewer (fun _ => id) (List.Subset.refl _) rfl rfl⟩
  · intro b inside
    exact ⟨List.mem_cons_of_mem _ (tidy.orderly.rows b inside).1, (tidy.orderly.rows b inside).2⟩
  · intro x inside
    exact ⟨List.mem_cons_of_mem _ (tidy.orderly.works x inside).1,
      (tidy.orderly.works x inside).2⟩
  · intro r inside id names
    exact List.mem_cons_of_mem _ (tidy.orderly.names r inside id names)
  · intro b inside
    exact List.mem_cons_of_mem _ (tidy.orderly.reported b inside)

/-- No removal has the batch of a request in its charge. -/
theorem uncharged (tidy : Tidy w) {b : BatchRef} (fresh : b.batchId ∉ w.submitted)
    (active : w.db.ActiveOrg b.orgId) (unlocked : ¬ w.Locked b.orgId) {r : Removal}
    (member : r ∈ w.removals) : ¬ r.Charge b := by
  have seen := tidy.orderly.names r member b.batchId
  intro charge
  cases r with
  | deleting r' inputKey resultKey =>
      obtain rfl : b = r' := charge
      exact fresh (seen (.inl ⟨b, rfl, rfl⟩))
  | wiping orgId keys =>
      obtain rfl : b.orgId = orgId := charge
      exact unlocked ⟨_, member, .inr ⟨keys, rfl⟩⟩
  | wiped orgId =>
      obtain rfl : b.orgId = orgId := charge
      exact unlocked ⟨_, member, .inl rfl⟩
  | sweeping now cleared stage =>
      cases stage with
      | deletingObjects page => exact fresh (seen (.inr (.inr charge)))
      | deletingRows page => exact fresh (seen (.inr (.inr charge)))
      | erasing orgId due =>
          obtain rfl : b.orgId = orgId := charge
          exact tidy.orderly.due _ member b.orgId List.mem_cons_self active
      | listing => exact charge
      | purging due => exact charge
      | emptying orgId keys due => exact charge
      | confirming orgId due => exact charge
      | exports => exact charge
      | ledger => exact charge
      | retiring => exact charge
  | recording refs => exact charge

/-- The row of a request comes in. -/
theorem insert (tidy : Tidy w) {p : Upload} (member : p ∈ w.uploads) (waiting : p.Waiting)
    {next : Option UploadStage} (later : ∀ stage ∈ next, ¬ Upload.Waiting ⟨p.ref, stage⟩)
    (unlocked : ¬ w.Locked p.ref.orgId) (active : w.db.ActiveOrg p.ref.orgId) {db : Database}
    {row : Batch} (batches : db.batches = w.db.batches ++ [row])
    (orgs : db.organizations = w.db.organizations) (is : ref row = p.ref) (named : Named row) :
    Tidy { World.uploadOn { w with db } p next with
      submitted := p.ref.batchId :: w.submitted } := by
  have fresh := (tidy.orderly.uploads p member).2 waiting
  have spent := tidy.submit member later
  have id : row.id = p.ref.batchId := congrArg BatchRef.batchId is
  have org : row.orgId = p.ref.orgId := congrArg BatchRef.orgId is
  have mem : ∀ b, b ∈ db.batches ↔ b ∈ w.db.batches ∨ b = row := by
    intro b
    rw [batches, List.mem_append, List.mem_singleton]
  have other : ∀ b ∈ w.db.batches, b.id ≠ row.id := by
    intro b inside same
    rw [id] at same
    exact fresh (same ▸ (tidy.orderly.rows b inside).1)
  have active_ : ∀ orgId, db.ActiveOrg orgId ↔ w.db.ActiveOrg orgId := by
    intro orgId
    rw [Database.ActiveOrg, Database.ActiveOrg, orgs]
  have rows : ∀ b, (∃ b' ∈ db.batches, ref b' = b) → w.HasRow b ∨ b = p.ref := by
    rintro b ⟨b', inside, rfl⟩
    rcases (mem b').1 inside with old | rfl
    · exact .inl ⟨b', old, rfl⟩
    · exact .inr is
  obtain ⟨-, open_, undeleted⟩ := tidy.unseen fresh
  constructor
  · refine { spent.orderly with
      rows := ?_, unique := ?_, works := ?_, due := ?_, purged := ?_,
      orgIds := (congrArg (List.map (·.id)) orgs) ▸ tidy.orderly.orgIds }
    · intro b inside
      rcases (mem b).1 inside with old | rfl
      · exact spent.orderly.rows b old
      · rw [id]
        exact ⟨List.mem_cons_self, named⟩
    · intro b inside b' inside' same
      rcases (mem b).1 inside with old | rfl <;> rcases (mem b').1 inside' with old' | rfl
      · exact tidy.orderly.unique b old b' old' same
      · exact absurd same (other b old)
      · exact absurd same.symm (other b' old')
      · rfl
    · intro x there
      refine ⟨(spent.orderly.works x there).1, ?_⟩
      intro b inside same
      rcases (mem b).1 inside with old | rfl
      · exact (spent.orderly.works x there).2 b old same
      · rw [id] at same
        exact absurd (same ▸ (tidy.orderly.works x there).1) fresh
    · intro r there orgId due active'
      exact tidy.orderly.due r there orgId due ((active_ orgId).1 active')
    · intro orgId purged
      refine ⟨fun active' => (tidy.orderly.purged orgId purged).1 ((active_ orgId).1 active'), ?_⟩
      intro b inside
      rcases (mem b).1 inside with old | rfl
      · exact (tidy.orderly.purged orgId purged).2 b old
      · rintro rfl
        rw [org] at purged
        exact (tidy.orderly.purged _ purged).1 active
  · refine { spent.covered with charged := ?_, deleted := ?_, settled := ?_ }
    · rintro r there b ⟨charge, either⟩
      have inHand : w.InHand r b := by
        refine ⟨charge, either.imp_left fun row' => (rows b row').resolve_right ?_⟩
        rintro rfl
        exact tidy.uncharged fresh active unlocked there charge
      exact tidy.covered.charged r there b inHand
    · intro r there b deletes
      obtain ⟨none_, not_⟩ := tidy.covered.deleted r there b deletes
      refine ⟨?_, not_⟩
      intro row'
      rcases rows b row' with old | rfl
      · exact none_ old
      · exact undeleted r there deletes
    · intro b settled
      obtain ⟨none_, clean⟩ := tidy.covered.settled b settled
      refine ⟨?_, clean⟩
      intro row'
      rcases rows b row' with old | rfl
      · exact none_ old
      · exact open_ settled

theorem create (tidy : Tidy w) {p : Upload} (member : p ∈ w.uploads)
    (unlocked : ¬ w.Locked p.ref.orgId) {column rows : ℕ} {header : Bool}
    (stage : p.stage = .inspected column header rows) (filename : String) (draw : Draw) (now : Date)
    (delivery : Delivery) : Tidy (w.after (.create p filename draw now delivery)) := by
  have waiting : p.Waiting := ⟨column, header, rows, stage⟩
  simp only [World.after, stage]
  rcases onDb_cases w delivery
      (createBatchWithReservation (creationInput p.ref filename column header rows) draw now) with
    eq | ⟨a, db, commits, eq⟩
  · rw [eq]
    have ends_ : ∀ stage ∈ (none : Option UploadStage), ¬ Upload.Waiting ⟨p.ref, stage⟩ := nofun
    exact tidy.submit member ends_
  have result : ∀ answer : Option CreateBatchResult,
      Tidy { World.created { w with db } p rows answer with
        submitted := p.ref.batchId :: w.submitted } := by
    intro answer
    rw [World.created_eq]
    rcases createBatchWithReservation_commits commits with ⟨-, rfl⟩ |
      ⟨org, inside, owner, active, -, -, -, -, -, rfl⟩
    · exact tidy.submit member UploadStage.told_later
    · have stands : w.db.ActiveOrg p.ref.orgId := ⟨org, inside, owner, active⟩
      exact tidy.insert member waiting UploadStage.told_later unlocked stands rfl rfl rfl
        ⟨rfl, nofun⟩
  rcases eq with eq | eq
  · rw [eq]
    exact result _
  · rw [eq]
    exact result _

theorem enqueue (tidy : Tidy w) {p : Upload} (member : p ∈ w.uploads) (accepted : Bool) :
    Tidy (w.after (.enqueue p accepted)) := by
  rw [World.after]
  cases p.stage with
  | enqueueing rows =>
      cases accepted with
      | true => exact tidy.uploadEnds member
      | false => exact tidy.uploadOn member (Upload.not_waiting nofun)
  | inspected column header rows => exact tidy
  | refused rows => exact tidy
  | discarding => exact tidy

theorem refuse (tidy : Tidy w) {p : Upload} (member : p ∈ w.uploads) (draw : Draw)
    (delivery : Delivery) : Tidy (w.after (.refuse p draw delivery)) := by
  rw [World.after]
  cases p.stage with
  | refused rows =>
      rcases onDb_cases w delivery
          (failBatch (Credits.queueUnavailable ⟨p.ref.orgId, p.ref.batchId, rows⟩) draw) with
        eq | ⟨a, db, commits, eq | eq⟩
      · simp only [eq]
        exact tidy.uploadEnds member
      · have failed : Tidy { w with db } :=
          ⟨tidy.orderly.keeps (fail_keeps commits), tidy.covered.keeps (fail_keeps commits)⟩
        simp only [eq]
        exact failed.uploadOn member (Upload.not_waiting nofun)
      · have failed : Tidy { w with db } :=
          ⟨tidy.orderly.keeps (fail_keeps commits), tidy.covered.keeps (fail_keeps commits)⟩
        simp only [eq]
        exact failed.uploadEnds member
  | inspected column header rows => exact tidy
  | enqueueing rows => exact tidy
  | discarding => exact tidy

theorem onBucket_parties {α : Type} (w : World) (call : StorageCall α) :
    (w.onBucket call).2.uploads = w.uploads ∧ (w.onBucket call).2.works = w.works ∧
      (w.onBucket call).2.removals = w.removals ∧ (w.onBucket call).2.db = w.db := by
  rw [World.onBucket]
  split <;> exact ⟨rfl, rfl, rfl, rfl⟩

theorem discard (tidy : Tidy w) {p : Upload} (member : p ∈ w.uploads) (replies : Replies) :
    Tidy (w.after (.discard p replies)) := by
  apply (tidy.onBucket (shrinks_deleteObjects replies [p.ref.inputKey])).uploadEnds
  rw [(onBucket_parties w _).1]
  exact member

/-! ### Executions -/

theorem deliver (tidy : Tidy w) (batchId : Uuid) (delivery : Delivery) :
    Tidy (w.after (.deliver batchId delivery)) := by
  rw [World.after]
  rcases onDb_cases w delivery (claimBatchForProcessing batchId) with
    eq | ⟨result, db, commits, eq | eq⟩
  · rw [eq]
    exact tidy
  all_goals
    obtain ⟨keeps, claimed⟩ := claim_keeps batchId commits
    have after : Tidy { w with db } := ⟨tidy.orderly.keeps keeps, tidy.covered.keeps keeps⟩
    rw [eq]
  · -- an execution works on a batch that had a row
    have works : ∀ batch ∈ result.batch?, ∀ stage,
        Tidy { w with db, works := ⟨batch, stage⟩ :: w.works } := by
      intro batch is stage
      obtain ⟨row, inside, same⟩ := claimed batch is
      have id : batch.id = row.id := congrArg BatchRef.batchId same
      have org : batch.orgId = row.orgId := congrArg BatchRef.orgId same
      refine ⟨{ after.orderly with works := fun x there => ?_ },
        after.covered.fewer (fun _ row => row) (List.Subset.refl _) rfl rfl⟩
      rcases List.mem_cons.1 there with rfl | old
      · refine ⟨id ▸ (tidy.orderly.rows row inside).1, ?_⟩
        intro b' inside' same'
        obtain ⟨b, before, was, -⟩ := keeps.rows b' inside'
        have id' : b'.id = b.id := congrArg BatchRef.batchId was
        have org' : b'.orgId = b.orgId := congrArg BatchRef.orgId was
        show b'.orgId = batch.orgId
        rw [org', org]
        exact tidy.orderly.unique b before row inside (by rw [← id', same', id])
      · exact after.orderly.works x old
    cases result with
    | claimed batch days => exact works batch rfl _
    | orgUnavailable batch => exact works batch rfl _
    | notClaimable => exact after
  · exact after

theorem exitEarly (tidy : Tidy w) {x : Work} (member : x ∈ w.works) (error : String) (draw : Draw)
    (delivery : Delivery) : Tidy (w.after (.exitEarly x error draw delivery)) :=
  (tidy.onDb fun _ _ => fail_keeps).workOn member none

theorem loop (tidy : Tidy w) {x : Work} (member : x ∈ w.works) (result : LoopResult) :
    Tidy (w.after (.loop x result)) := by
  unfold World.after
  dsimp only
  split
  · exact tidy.workOn member _
  · exact tidy.workOn member _
  · exact tidy

theorem fail (tidy : Tidy w) {x : Work} (member : x ∈ w.works) (draw : Draw)
    (delivery : Delivery) : Tidy (w.after (.fail x draw delivery)) :=
  (tidy.onDb fun _ _ => fail_keeps).workOn member none

theorem complete (tidy : Tidy w) {x : Work} (member : x ∈ w.works) (draw : Draw) (now : Date)
    (delivery : Delivery) : Tidy (w.after (.complete x draw now delivery)) := by
  rw [World.after]
  cases x.stage with
  | completing days processed stats =>
      rcases onDb_cases w delivery
          (completeBatch (loopCompletion x.batch days processed stats) draw now) with
        eq | ⟨a, db, commits, eq | eq⟩
      · simp only [eq]
        exact tidy.workOn member _
      all_goals
        have keeps := complete_keeps (tidy.orderly.works x member).2 commits
        have after : Tidy { w with db } := ⟨tidy.orderly.keeps keeps, tidy.covered.keeps keeps⟩
        simp only [eq]
      · exact after.workOn member _
      · exact after.workOn member _
  | orgUnavailable => exact tidy
  | claimed days => exact tidy
  | storing days processed stats => exact tidy
  | failing => exact tidy

/-- A result is stored for which somebody is accountable. -/
theorem stored (tidy : Tidy w) {x : Work} (member : x ∈ w.works) {written : Bool}
    (accountable : written = true → w.Accountable (ref x.batch)) (next : Option WorkStage) :
    Tidy ((w.put (ref x.batch).resultKey written).workOn x next) := by
  cases written with
  | false => exact tidy.workOn member next
  | true =>
      obtain ⟨someone, charged⟩ := accountable rfl
      have submitted := (tidy.orderly.works x member).1
      have put : Tidy (w.put (ref x.batch).resultKey true) := by
        refine ⟨tidy.orderly.put (tidy.orderly.submitted _ submitted) (.inr rfl) true,
          tidy.covered.put (ref x.batch).under_resultKey charged ?_ true⟩
        intro settled
        rcases someone with row | ⟨r, there, deletes⟩
        · exact (tidy.covered.settled _ settled).1 row
        · exact (tidy.covered.deleted r there _ deletes).2 settled
      exact put.workOn member next

theorem store (tidy : Tidy w) {x : Work} (member : x ∈ w.works) {outcome : ResultOutcome}
    (careful : w.Careful (.store x outcome)) : Tidy (w.after (.store x outcome)) := by
  unfold World.after
  dsimp only
  split
  · exact tidy.stored member (fun _ => careful rfl) _
  · exact tidy.stored member (fun written => careful written) _
  · exact tidy

theorem die (tidy : Tidy w) {x : Work} (member : x ∈ w.works) {written : Bool}
    (careful : w.Careful (.die x written)) : Tidy (w.after (.die x written)) := by
  rw [World.after]
  split
  · rename_i days processed stats stage
    exact tidy.stored member (fun is => careful is ⟨days, processed, stats, stage⟩) _
  · exact tidy.workOn member none

/-! ### Removals begin -/

/-- What lies under the prefix of a batch with a row, the row names, a result apart that was
stored and not set. -/
theorem objectKeys (tidy : Tidy w) {b : Batch} (member : b ∈ w.db.batches)
    (unwritten : b.resultObjectKey = none → (ref b).resultKey ∉ w.bucket.objects) {key : String}
    (there : key ∈ w.bucket.objects) (under : (ref b).Under key) : key ∈ b.objectKeys := by
  obtain ⟨input, result⟩ := (tidy.orderly.rows b member).2
  rcases (tidy.orderly.objects key there (ref b) under).2 with rfl | rfl
  · rw [Batch.objectKeys, ← input]
    split
    · exact List.mem_singleton_self _
    · exact List.mem_cons_self
  · cases is : b.resultObjectKey with
    | none => exact absurd there (unwritten is)
    | some named =>
        rw [Batch.objectKeys, is, result named is]
        exact List.mem_cons_of_mem _ (List.mem_singleton_self _)

theorem delete (tidy : Tidy w) (b : BatchRef) (draw : Draw) (delivery : Delivery) :
    Tidy (w.after (.delete b draw delivery)) := by
  rw [World.after]
  rcases onDb_cases w delivery (deleteBatchForOrg b.batchId b.orgId draw) with
    eq | ⟨result, db, commits, eq | eq⟩
  · rw [eq]
    exact tidy
  all_goals
    have keeps := delete_keeps commits
    have after : Tidy { w with db } := ⟨tidy.orderly.keeps keeps, tidy.covered.keeps keeps⟩
    rw [eq]
  · cases result with
    | processing => exact after
    | notFound => exact after
    | deleted inputObjectKey resultObjectKey refunded =>
        obtain ⟨row, member, id, org, rfl, rfl, gone⟩ := delete_answer commits
        obtain rfl : ref row = b := by
          rw [ref, id, org]
        have hasRow : w.HasRow (ref row) := ⟨row, member, rfl⟩
        obtain ⟨input, set_⟩ := (tidy.orderly.rows row member).2
        constructor
        · apply after.orderly.removals
          intro q inside
          rcases List.mem_cons.1 inside with rfl | old
          · refine .inr ⟨?_, nofun⟩
            rintro _ (⟨r, is, rfl⟩ | ⟨r, among, -⟩ | absurd_)
            · obtain rfl := Option.mem_some_iff.1 is
              exact (tidy.orderly.rows row member).1
            · cases among
            · exact absurd_.elim
          · exact .inl old
        · have open_ : ∀ r, World.Settled (World.deletion { w with db } (ref row)
              (some (.deleted row.inputObjectKey row.resultObjectKey refunded))) r →
              w.Settled r := by
            rintro r (said | ⟨q, inside, among⟩)
            · exact .inl said
            · rcases List.mem_cons.1 inside with rfl | old
              · cases among
              · exact .inr ⟨q, old, among⟩
          refine ⟨?_, ?_, ?_, fun r settled => after.covered.settled r (open_ r settled)⟩
          · intro q inside r inHand key there under
            rcases List.mem_cons.1 inside with rfl | old
            · obtain rfl : r = ref row := inHand.1
              show key ∈ [row.inputObjectKey, row.resultObjectKey.getD (ref row).resultKey]
              rcases (tidy.orderly.objects key there (ref row) under).2 with rfl | rfl
              · rw [input]
                exact List.mem_cons_self
              · have named :
                    row.resultObjectKey.getD (ref row).resultKey = (ref row).resultKey := by
                  cases is : row.resultObjectKey with
                  | none => rfl
                  | some key => exact set_ key is
                rw [named]
                exact List.mem_cons_of_mem _ (List.mem_singleton_self _)
            · exact after.covered.charged q old r inHand key there under
          · intro q inside r is
            rcases List.mem_cons.1 inside with rfl | old
            · obtain rfl := Option.mem_some_iff.1 is
              refine ⟨?_, fun settled => (tidy.covered.settled _ (open_ _ settled)).1 hasRow⟩
              rintro ⟨b', inside', same⟩
              exact gone b' inside' ((congrArg BatchRef.batchId same).trans id)
            · obtain ⟨none_, not_⟩ := after.covered.deleted q old r is
              exact ⟨none_, fun settled => not_ (open_ r settled)⟩
          · show (ref row :: w.removals.filterMap Removal.deletes).Nodup
            refine List.nodup_cons.2 ⟨fun among => ?_, tidy.covered.single⟩
            obtain ⟨q, inside, is⟩ := List.mem_filterMap.1 among
            exact (tidy.covered.deleted q inside _ is).1 hasRow
  · exact after

theorem wipe (tidy : Tidy w) {orgId : Uuid} (careful : w.Careful (.wipe orgId)) :
    Tidy (w.after (.wipe orgId)) := by
  constructor
  · apply tidy.orderly.removals
    intro q inside
    rcases List.mem_cons.1 inside with rfl | old
    · refine .inr ⟨?_, nofun⟩
      rintro _ (⟨r, is, -⟩ | ⟨r, among, -⟩ | absurd_)
      · cases is
      · cases among
      · exact absurd_.elim
    · exact .inl old
  · apply tidy.covered.begins rfl rfl
    rintro b ⟨owned, either⟩ key there under
    rcases either with ⟨row, member, rfl⟩ | is
    · have own : row.orgId = orgId := owned
      refine List.mem_flatMap.2 ⟨row, List.mem_filter.2 ⟨member, decide_eq_true own⟩, ?_⟩
      exact tidy.objectKeys member (careful row member own) there under
    · cases is

theorem sweep (tidy : Tidy w) (now : Date) : Tidy (w.after (.sweep now)) := by
  constructor
  · apply tidy.orderly.removals
    intro q inside
    rcases List.mem_cons.1 inside with rfl | old
    · refine .inr ⟨?_, nofun⟩
      rintro _ (⟨r, is, -⟩ | ⟨r, among, -⟩ | ⟨t, among, -⟩)
      · cases is
      · cases among
      · cases among
    · exact .inl old
  · exact tidy.covered.begins rfl rfl fun b inHand => inHand.1.elim

/-! ### Removals go on -/

/-- What a removal has deleted, of the batches in its hand, is everything. -/
theorem emptied (tidy : Tidy w) {r : Removal} (member : r ∈ w.removals) {bucket : Bucket}
    (deleted : bucket.objects = w.bucket.objects.filter fun key => !decide (key ∈ r.keys))
    {b : BatchRef} (inHand : w.InHand r b) : ∀ key ∈ bucket.objects, ¬ b.Under key := by
  intro key there under
  rw [deleted, List.mem_filter] at there
  have listed := tidy.covered.charged r member b inHand key there.1 under
  rw [decide_eq_true listed] at there
  cases there.2

/-- A batch whose row is there is in no deletion. -/
theorem undeleted (tidy : Tidy w) {b : BatchRef} (row : w.HasRow b) :
    ∀ r ∈ w.removals, b ∉ r.deletes :=
  fun r member is => (tidy.covered.deleted r member b is).1 row

/-- Of the rows a removal takes away nothing is left, when it has no keys to delete any more. -/
theorem swept (tidy : Tidy w) {r : Removal} (member : r ∈ w.removals) (done : r.keys = [])
    (p : BatchRef → Bool) (db : Database) (selected : ∀ b, p b = true → r.Charge b)
    (without : ∀ b ∈ db.batches, p (ref b) = false) :
    ∀ b ∈ w.refsOf fun b => p (ref b), b.batchId ∈ w.submitted ∧ World.Gone { w with db } b ∧
      ∀ r ∈ w.removals, b ∉ r.deletes := by
  intro b inside
  obtain ⟨row, chosen, rfl⟩ := List.mem_map.1 inside
  obtain ⟨there, chosen⟩ := List.mem_filter.1 chosen
  have hasRow : w.HasRow (ref row) := ⟨row, there, rfl⟩
  refine ⟨(tidy.orderly.rows row there).1, ⟨?_, ?_⟩, tidy.undeleted hasRow⟩
  · rintro ⟨row', left, same⟩
    have out := without row' left
    rw [same] at out
    rw [out] at chosen
    cases chosen
  · intro key stored under
    have listed := tidy.covered.charged r member _ ⟨selected _ chosen, .inl hasRow⟩ key stored under
    rw [done] at listed
    cases listed

/-- A sweep goes on. -/
theorem sweepOn (tidy : Tidy w) {now : Date} {cleared more : List BatchRef}
    {stage stage' : SweepStage} (member : .sweeping now cleared stage ∈ w.removals)
    (gone : ∀ b ∈ more, b.batchId ∈ w.submitted ∧ w.Gone b ∧ ∀ r ∈ w.removals, b ∉ r.deletes)
    (page : ∀ t ∈ stage'.page, t.id ∈ w.submitted)
    (due : ∀ orgId ∈ stage'.purges, ¬ w.db.ActiveOrg orgId)
    (charged : ∀ b, stage'.Charge b → w.HasRow b → ∀ key ∈ w.bucket.objects, b.Under key →
      key ∈ stage'.keys) : Tidy (w.sweepOn now cleared stage (some (more, stage'))) := by
  have known := tidy.orderly.names _ member
  constructor
  · apply tidy.orderly.removalOn
    intro q is
    obtain rfl := Option.mem_some_iff.1 is
    refine ⟨?_, due⟩
    rintro id (⟨b, is, -⟩ | ⟨b, among, rfl⟩ | ⟨t, among, rfl⟩)
    · cases is
    · rcases List.mem_append.1 among with new | old
      · exact (gone b new).1
      · exact known _ (.inr (.inl ⟨b, old, rfl⟩))
    · exact page t among
  · refine tidy.covered.removalOn member (fun q is => ?_) fun q is b among => ?_
    · obtain rfl := Option.mem_some_iff.1 is
      refine ⟨rfl, fun b inHand => charged b inHand.1 ?_⟩
      rcases inHand.2 with row | is
      · exact row
      · cases is
    · obtain rfl := Option.mem_some_iff.1 is
      rcases List.mem_append.1 among with new | old
      · obtain ⟨-, left, apart⟩ := gone b new
        exact .inr ⟨left, fun q' inside => apart q' (List.mem_of_mem_erase inside)⟩
      · exact .inl old

/-- A sweep goes on to a stage at which it is about to remove nothing. -/
theorem sweepIdle (tidy : Tidy w) {now : Date} {cleared : List BatchRef}
    {stage stage' : SweepStage} (member : .sweeping now cleared stage ∈ w.removals)
    (page : stage'.page = []) (charge : ∀ b, ¬ stage'.Charge b)
    (due : ∀ orgId ∈ stage'.purges, ¬ w.db.ActiveOrg orgId) :
    Tidy (w.sweepOn now cleared stage (some ([], stage'))) := by
  refine tidy.sweepOn member nofun ?_ due fun b charged => absurd charged (charge b)
  rw [page]
  exact nofun

/-- The page of a sweep, as the rows have it. -/
theorem of_page {pageSize : ℕ} {now : Date} {page : List BatchPurgeTarget}
    (isPage : w.db.IsExpiredPage now pageSize page) :
    ∀ t ∈ page, ∃ b ∈ w.db.batches, t = b.target := by
  intro t member
  obtain ⟨b, expired, rfl⟩ := List.mem_map.1 (isPage.1.subset member)
  exact ⟨b, List.mem_of_mem_filter expired, rfl⟩

theorem listing (tidy : Tidy w) {pageSize : ℕ} {c : Circumstances} {now : Date}
    {cleared : List BatchRef} (member : .sweeping now cleared .listing ∈ w.removals)
    (isPage : w.db.IsExpiredPage now pageSize c.page)
    (careful : w.Careful (.advance (.sweeping now cleared .listing) c)) :
    Tidy (w.sweepStep c now cleared .listing) := by
  have rows := of_page isPage
  rw [World.sweepStep]
  by_cases empty : c.page = []
  · rw [if_pos empty]
    apply tidy.sweepIdle member rfl (fun _ => id)
    rintro orgId inside ⟨o, there, is, active⟩
    obtain ⟨o', chosen, same⟩ := List.mem_map.1 inside
    obtain ⟨there', due⟩ := List.mem_filter.1 chosen
    -- an organisation due for purge is deleted, and its id is its own
    have one : o' = o :=
      List.inj_on_of_nodup_map tidy.orderly.orgIds there' there (same.trans is.symm)
    simp only [Bool.decide_and, Bool.and_eq_true, decide_eq_true_eq] at due
    obtain ⟨⟨t, deleted, -⟩, -⟩ := due
    rw [one, show o.deletedAt = none from active] at deleted
    cases deleted
  · rw [if_neg empty]
    refine tidy.sweepOn member nofun (fun t inside => ?_) nofun ?_
    · obtain ⟨b, there, rfl⟩ := rows t inside
      exact (tidy.orderly.rows b there).1
    · rintro _ ⟨t, inside, is⟩ ⟨row, there, rfl⟩ key stored under
      obtain ⟨b, there', rfl⟩ := rows t inside
      have org : b.orgId = row.orgId := tidy.orderly.unique b there' row there is
      have same : ref row = ref b := by
        rw [ref, ref, org, show b.id = row.id from is]
      rw [same] at under
      refine List.mem_flatMap.2 ⟨b.target, inside, ?_⟩
      exact tidy.objectKeys there' (careful b.target inside) stored under

/-- Objects went. -/
theorem shrunk (tidy : Tidy w) {bucket : Bucket} (subset : bucket.objects ⊆ w.bucket.objects) :
    Tidy { w with bucket } :=
  ⟨tidy.orderly.fewer subset, tidy.covered.thin subset⟩

/-- Rows went or changed. -/
theorem changed (tidy : Tidy w) {db : Database} (keeps : Keeps w.db db) : Tidy { w with db } :=
  ⟨tidy.orderly.keeps keeps, tidy.covered.keeps keeps⟩

/-! #### The stages of a sweep -/

section Sweep

variable {c : Circumstances} {now : Date} {cleared : List BatchRef}

/-- The objects of a page are deleted. -/
theorem deletingObjects (tidy : Tidy w) {page : List BatchPurgeTarget}
    (member : .sweeping now cleared (.deletingObjects page) ∈ w.removals) :
    Tidy (w.sweepStep c now cleared (.deletingObjects page)) := by
  have names := tidy.orderly.names _ member
  rw [World.sweepStep]
  rcases onBucket_cases w (Shared.deleteObjects_ends c.replies (page.flatMap targetKeys) w.bucket)
    with ⟨a, bucket, eq, gone⟩ | ⟨e, bucket, eq, -, thinned⟩
  · have after := tidy.shrunk (gone ▸ List.filter_subset_self _)
    simp only [eq]
    refine after.sweepOn member (List.forall_mem_nil _)
      (fun t inside => names _ (.inr (.inr ⟨t, inside, rfl⟩)))
      (List.forall_mem_nil _) fun b charge row key there under => ?_
    exact absurd under (tidy.emptied member gone ⟨charge, .inl row⟩ key there)
  · simp only [eq]
    exact (tidy.shrunk thinned.subset).drop member

/-- The rows of a page go, with their objects gone before. -/
theorem deletingRows (tidy : Tidy w) {page : List BatchPurgeTarget}
    (member : .sweeping now cleared (.deletingRows page) ∈ w.removals) :
    Tidy (w.sweepStep c now cleared (.deletingRows page)) := by
  rw [World.sweepStep]
  rcases onDb_cases w c.delivery (deleteBatchesByIds (page.map (·.id))) with
    eq | ⟨n, db, commits, eq | eq⟩
  · simp only [eq]
    exact tidy.drop member
  all_goals
    simp only [deleteBatchesByIds, Txn.commits_bind, Txn.commits_get, Txn.commits_modify,
      Txn.commits_pure] at commits
    obtain ⟨_, _, ⟨rfl, rfl⟩, _, _, rfl, rfl, rfl⟩ := commits
    have after := tidy.changed (.of_delete w.db fun b => b.id ∈ page.map (·.id))
    simp only [eq]
  · have swept := tidy.swept member rfl (fun b => b.batchId ∈ page.map (·.id))
      (w.db.deleteBatches fun b => b.id ∈ page.map (·.id))
      (fun b chosen => List.mem_map.1 (of_decide_eq_true chosen))
      fun b left => decide_eq_false (mem_deleteBatches.1 left).2
    exact after.sweepOn member swept (List.forall_mem_nil _) (List.forall_mem_nil _)
      fun _ absurd_ => absurd_.elim
  · exact after.drop member

theorem purging (tidy : Tidy w) {left : List Uuid}
    (member : .sweeping now cleared (.purging left) ∈ w.removals) :
    Tidy (w.sweepStep c now cleared (.purging left)) := by
  have due := tidy.orderly.due _ member
  rw [World.sweepStep.eq_def]
  cases left with
  | nil => exact tidy.sweepIdle member rfl (fun _ => id) (List.forall_mem_nil _)
  | cons orgId left =>
      rcases onBucket_cases w (shrinks_listKeys c.replies (orgObjectPrefix orgId) w.bucket) with
        ⟨keys, bucket, eq, subset⟩ | ⟨e, bucket, eq, subset⟩
      · simp only [eq]
        exact (tidy.shrunk subset).sweepIdle member rfl (fun _ => id) due
      · simp only [eq]
        exact (tidy.shrunk subset).drop member

theorem emptying (tidy : Tidy w) {orgId : Uuid} {keys : List String} {left : List Uuid}
    (member : .sweeping now cleared (.emptying orgId keys left) ∈ w.removals) :
    Tidy (w.sweepStep c now cleared (.emptying orgId keys left)) := by
  have due := tidy.orderly.due _ member
  rw [World.sweepStep]
  rcases onBucket_cases w (shrinks_deleteListed c.replies keys w.bucket) with
    ⟨a, bucket, eq, subset⟩ | ⟨e, bucket, eq, subset⟩
  · simp only [eq]
    exact (tidy.shrunk subset).sweepIdle member rfl (fun _ => id) due
  · simp only [eq]
    exact (tidy.shrunk subset).drop member

/-- The prefix of an organisation is empty before its rows go. -/
theorem confirming (tidy : Tidy w) {orgId : Uuid} {left : List Uuid}
    (member : .sweeping now cleared (.confirming orgId left) ∈ w.removals) :
    Tidy (w.sweepStep c now cleared (.confirming orgId left)) := by
  have due := tidy.orderly.due _ member
  rw [World.sweepStep]
  rcases onBucket_cases w (Shared.listKeys_ends c.replies (orgObjectPrefix orgId) w.bucket) with
    ⟨keys, bucket, eq, listed, same⟩ | ⟨e, bucket, eq, -, same⟩
  · have after := tidy.shrunk (fun key there => same ▸ there)
    simp only [eq]
    cases keys with
    | cons key keys => exact after.drop member
    | nil =>
        refine after.sweepOn member (List.forall_mem_nil _) (List.forall_mem_nil _) due ?_
        -- the prefix of the organisation holds those of its batches
        rintro b owned - key there under
        have own : b.orgId = orgId := owned
        have inside : StartsWith (orgObjectPrefix orgId) key := own ▸ b.under_org under
        have found : key ∈ w.bucket.objects.filter
            fun key => StartsWith (orgObjectPrefix orgId) key :=
          List.mem_filter.2 ⟨same ▸ there, decide_eq_true inside⟩
        rw [← listed] at found
        cases found
  · simp only [eq]
    exact (tidy.shrunk (fun key there => same ▸ there)).drop member

/-- The rows of an organisation go. -/
theorem erasing (tidy : Tidy w) {orgId : Uuid} {left : List Uuid}
    (member : .sweeping now cleared (.erasing orgId left) ∈ w.removals) :
    Tidy (w.sweepStep c now cleared (.erasing orgId left)) := by
  have due := tidy.orderly.due _ member
  have after := tidy.changed (.of_wiped w.db orgId)
  have inactive := due orgId List.mem_cons_self
  have without : ∀ b ∈ (w.db.wiped orgId).batches, b.orgId ≠ orgId :=
    fun b inside => (mem_deleteBatches.1 inside).2
  have marked : Tidy { w with db := w.db.wiped orgId, purgedOrgs := orgId :: w.purgedOrgs } := by
    refine ⟨{ after.orderly with purged := fun orgId' purged => ?_ },
      after.covered.fewer (fun _ => id) (List.Subset.refl _) rfl rfl⟩
    rcases List.mem_cons.1 purged with rfl | before
    · exact ⟨inactive, without⟩
    · exact after.orderly.purged orgId' before
  have charge : ∀ b : BatchRef, decide (b.orgId = orgId) = true →
      (Removal.sweeping now cleared (.erasing orgId left)).Charge b :=
    fun b chosen => show b.orgId = orgId from of_decide_eq_true chosen
  have swept := tidy.swept member rfl (fun b => b.orgId = orgId) (w.db.wiped orgId) charge
    fun b inside => decide_eq_false (without b inside)
  rw [World.sweepStep]
  cases c.delivery with
  | answered =>
      refine marked.sweepOn member swept (List.forall_mem_nil _) (fun orgId' inside => ?_)
        fun _ absurd_ => absurd_.elim
      exact marked.orderly.due _ member orgId' (List.mem_cons_of_mem _ inside)
  | lostAfter => exact marked.drop member
  | lostBefore => exact tidy.drop member

theorem exports (tidy : Tidy w) (member : .sweeping now cleared .exports ∈ w.removals) :
    Tidy (w.sweepStep c now cleared .exports) := by
  rw [World.sweepStep]
  rcases onBucket_cases w (shrinks_deleteStaleExports c.replies now w.bucket) with
    ⟨a, bucket, eq, subset⟩ | ⟨e, bucket, eq, subset⟩
  · simp only [eq]
    exact (tidy.shrunk subset).sweepIdle member rfl (fun _ => id) (List.forall_mem_nil _)
  · simp only [eq]
    exact (tidy.shrunk subset).drop member

theorem ledger (tidy : Tidy w) (member : .sweeping now cleared .ledger ∈ w.removals) :
    Tidy (w.sweepStep c now cleared .ledger) := by
  rw [World.sweepStep]
  rcases onDb_cases w c.delivery (purgeExpiredLedgerEntries c.dbNow now) with
    eq | ⟨n, db, commits, eq | eq⟩
  · simp only [eq]
    exact tidy.drop member
  · simp only [eq]
    exact (tidy.changed (purgeLedger_keeps commits)).sweepIdle member rfl (fun _ => id)
      (List.forall_mem_nil _)
  · simp only [eq]
    exact (tidy.changed (purgeLedger_keeps commits)).drop member

/-- The batches of a retired organisation went with its purge. -/
theorem retiring (tidy : Tidy w) (member : .sweeping now cleared .retiring ∈ w.removals) :
    Tidy (w.sweepStep c now cleared .retiring) := by
  have names := tidy.orderly.names _ member
  rw [World.sweepStep]
  have none_ : (w.refsOf fun b => Retired w.purgedOrgs w.db b.orgId) = [] := by
    rw [World.refsOf, List.map_eq_nil_iff, List.filter_eq_nil_iff]
    intro b inside retired
    exact (tidy.orderly.purged b.orgId (of_decide_eq_true retired).1).2 b inside rfl
  rcases onDb_cases w c.delivery (deleteRetiredOrganizations w.purgedOrgs) with
    eq | ⟨n, db, commits, eq | eq⟩
  · simp only [eq]
    exact tidy.drop member
  · have after := tidy.changed (retire_keeps commits)
    simp only [eq, none_, List.nil_append]
    constructor
    · apply after.orderly.removalOn
      intro q is
      obtain rfl := Option.mem_some_iff.1 is
      refine ⟨?_, (List.forall_mem_nil _)⟩
      rintro id (⟨b, is, -⟩ | seen | absurd_)
      · cases is
      · exact names id (.inr (.inl seen))
      · exact absurd_.elim
    · refine after.covered.removalOn_same member (fun q is => ?_) fun q is => ?_
      · obtain rfl := Option.mem_some_iff.1 is
        exact ⟨rfl, fun b inHand => inHand.1.elim⟩
      · obtain rfl := Option.mem_some_iff.1 is
        exact List.Subset.refl _
  · simp only [eq]
    exact (tidy.changed (retire_keeps commits)).drop member

end Sweep

theorem sweepStep (tidy : Tidy w) {pageSize : ℕ} {c : Circumstances} {now : Date}
    {cleared : List BatchRef} {stage : SweepStage}
    (member : .sweeping now cleared stage ∈ w.removals)
    (isPage : w.PageOf pageSize c (.sweeping now cleared stage))
    (careful : w.Careful (.advance (.sweeping now cleared stage) c)) :
    Tidy (w.sweepStep c now cleared stage) := by
  cases stage with
  | listing => exact tidy.listing member isPage careful
  | deletingObjects page => exact tidy.deletingObjects member
  | deletingRows page => exact tidy.deletingRows member
  | purging left => exact tidy.purging member
  | emptying orgId keys left => exact tidy.emptying member
  | confirming orgId left => exact tidy.confirming member
  | erasing orgId left => exact tidy.erasing member
  | exports => exact tidy.exports member
  | ledger => exact tidy.ledger member
  | retiring => exact tidy.retiring member

/-- A deletion of two objects is one request. -/
theorem onBucket_pair (w : World) {replies : Replies} (done : replies w.bucket.requests = .done)
    (inputKey resultKey : String) :
    w.onBucket (deleteObjects replies [inputKey, resultKey]) =
      (some ⟨⟩, { w with bucket := w.bucket.without fun key => key ∈ [inputKey, resultKey] }) := by
  have whole : Theory.Chunked.slices Shared.deleteBatchLimit [inputKey, resultKey] =
      [[inputKey, resultKey]] := by
    simp [Theory.Chunked.slices, Shared.deleteBatchLimit]
  have exec_ : Interruptible.exec (deleteObjects replies [inputKey, resultKey]) w.bucket =
      (.ok ⟨⟩, w.bucket.without fun key => key ∈ [inputKey, resultKey]) := by
    rw [deleteObjects, whole, List.forM_cons, List.forM_nil, Interruptible.exec_bind,
      Shared.deleteChunk, Interruptible.exec_bind, Interruptible.exec_get]
    simp only [done]
    rfl
  rw [World.onBucket, exec_]

theorem deleting (tidy : Tidy w) {b : BatchRef} {inputKey resultKey : String} {c : Circumstances}
    (member : .deleting b inputKey resultKey ∈ w.removals)
    (careful : w.Careful (.advance (.deleting b inputKey resultKey) c)) :
    Tidy (w.removalStep c (.deleting b inputKey resultKey)) := by
  have eq := onBucket_pair w careful inputKey resultKey
  have emptied : ∀ key ∈ (w.bucket.without fun key => key ∈ [inputKey, resultKey]).objects,
      ¬ b.Under key := tidy.emptied member rfl ⟨rfl, .inr rfl⟩
  have subset : (w.bucket.without fun key => key ∈ [inputKey, resultKey]).objects ⊆
      w.bucket.objects := List.filter_subset_self _
  obtain ⟨rowless, -⟩ := tidy.covered.deleted _ member b rfl
  rw [World.removalStep, eq]
  constructor
  · apply (tidy.orderly.fewer subset).removalOn
    intro q is
    obtain rfl := Option.mem_some_iff.1 is
    refine ⟨?_, nofun⟩
    rintro id (⟨_, is, -⟩ | ⟨b', among, rfl⟩ | absurd_)
    · cases is
    · obtain rfl := List.mem_singleton.1 among
      exact tidy.orderly.names _ member _ (.inl ⟨b', rfl, rfl⟩)
    · exact absurd_.elim
  · refine (tidy.covered.thin subset).removalOn member (fun q is => ?_) fun q is b' among => ?_
    · obtain rfl := Option.mem_some_iff.1 is
      exact ⟨rfl, fun _ inHand => inHand.1.elim⟩
    · obtain rfl := Option.mem_some_iff.1 is
      obtain rfl := List.mem_singleton.1 among
      refine .inr ⟨⟨rowless, emptied⟩, fun q' inside is => ?_⟩
      -- the deletion of a batch is one
      have once : ((Removal.deleting b' inputKey resultKey ::
          w.removals.erase (.deleting b' inputKey resultKey)).filterMap Removal.deletes).Nodup :=
        (((List.perm_cons_erase member).filterMap _).nodup_iff).1 tidy.covered.single
      exact (List.nodup_cons.1 once).1 (List.mem_filterMap.2 ⟨q', inside, is⟩)

/-- A removal goes on, and names what it has named. -/
theorem goesOn (tidy : Tidy w) {r next : Removal} (member : r ∈ w.removals)
    (quiet : next.deletes = none) (idle : next.purges = [])
    (cleared : ∀ b ∈ next.cleared, b.batchId ∈ w.submitted ∧
      (b ∈ r.cleared ∨ w.Gone b ∧ ∀ q ∈ w.removals, b ∉ q.deletes))
    (other : ∀ now cleared stage, next ≠ .sweeping now cleared stage)
    (charged : ∀ b, next.Charge b → w.HasRow b → ∀ key ∈ w.bucket.objects, b.Under key →
      key ∈ next.keys) : Tidy (w.removalOn r (some next)) := by
  constructor
  · apply tidy.orderly.removalOn
    intro q is
    obtain rfl := Option.mem_some_iff.1 is
    refine ⟨?_, by rw [idle]; exact nofun⟩
    rintro id (⟨b, is, -⟩ | ⟨b, among, rfl⟩ | seen)
    · rw [quiet] at is
      cases is
    · exact (cleared b among).1
    · cases next with
      | sweeping now refs stage => exact absurd rfl (other now refs stage)
      | deleting => exact seen.elim
      | wiping => exact seen.elim
      | wiped => exact seen.elim
      | recording => exact seen.elim
  · refine tidy.covered.removalOn member (fun q is => ?_) fun q is b among => ?_
    · obtain rfl := Option.mem_some_iff.1 is
      refine ⟨quiet, fun b inHand => charged b inHand.1 (inHand.2.resolve_right fun is => ?_)⟩
      rw [quiet] at is
      cases is
    · obtain rfl := Option.mem_some_iff.1 is
      refine (cleared b among).2.imp_right fun gone => ⟨gone.1, fun q' inside => ?_⟩
      exact gone.2 q' (List.mem_of_mem_erase inside)

/-- The objects of a wipe are deleted. -/
theorem wiping (tidy : Tidy w) {orgId : Uuid} {keys : List String} {c : Circumstances}
    (member : .wiping orgId keys ∈ w.removals) : Tidy (w.removalStep c (.wiping orgId keys)) := by
  rw [World.removalStep]
  rcases onBucket_cases w (Shared.deleteObjects_ends c.replies keys w.bucket) with
    ⟨a, bucket, eq, gone⟩ | ⟨e, bucket, eq, -, thinned⟩
  · have after := tidy.shrunk (gone ▸ List.filter_subset_self _)
    simp only [eq]
    refine after.goesOn member rfl rfl nofun nofun fun b owned row key there under => ?_
    exact absurd under (tidy.emptied member gone ⟨owned, .inl row⟩ key there)
  · simp only [eq]
    exact (tidy.shrunk thinned.subset).drop member

/-- The rows of a wipe go. -/
theorem wiped (tidy : Tidy w) {orgId : Uuid} {c : Circumstances}
    (member : .wiped orgId ∈ w.removals) : Tidy (w.removalStep c (.wiped orgId)) := by
  have charge : ∀ b : BatchRef, decide (b.orgId = orgId) = true → (Removal.wiped orgId).Charge b :=
    fun b chosen => show b.orgId = orgId from of_decide_eq_true chosen
  have swept := tidy.swept member rfl (fun b => b.orgId = orgId) (w.db.wiped orgId) charge
    fun b inside => decide_eq_false (mem_deleteBatches.1 inside).2
  rw [World.removalStep]
  rcases onDb_cases w c.delivery (modify fun db => db.wiped orgId : Tx Unit) with
    eq | ⟨a, db, commits, eq | eq⟩
  · simp only [eq]
    exact tidy.drop member
  all_goals
    rw [Txn.commits_modify] at commits
    subst commits
    have after := tidy.changed (.of_wiped w.db orgId)
    simp only [eq]
  · refine after.goesOn member rfl rfl (fun b among => ?_) nofun fun _ absurd_ => absurd_.elim
    exact ⟨(swept b among).1, .inr (swept b among).2⟩
  · exact after.drop member

/-- A removal is on record, and reports success. -/
theorem recording (tidy : Tidy w) {refs : List BatchRef} {c : Circumstances}
    (member : .recording refs ∈ w.removals) : Tidy (w.removalStep c (.recording refs)) := by
  have names := tidy.orderly.names _ member
  have dropped := tidy.drop member
  rw [World.removalStep]
  cases c.delivery with
  | lostBefore => exact dropped
  | lostAfter => exact dropped
  | answered =>
      have before : ∀ b, World.Settled { w.removalOn (.recording refs) none with
          reported := refs ++ w.reported } b → w.Settled b := by
        rintro b (said | ⟨q, inside, among⟩)
        · rcases List.mem_append.1 said with new | old
          · exact .inr ⟨_, member, new⟩
          · exact .inl old
        · exact .inr ⟨q, List.mem_of_mem_erase inside, among⟩
      refine ⟨{ dropped.orderly with reported := fun b said => ?_ },
        { dropped.covered with deleted := ?_, settled := ?_ }⟩
      · rcases List.mem_append.1 said with new | old
        · exact names _ (.inr (.inl ⟨b, new, rfl⟩))
        · exact tidy.orderly.reported b old
      · intro q inside b is
        obtain ⟨none_, not_⟩ := tidy.covered.deleted q (List.mem_of_mem_erase inside) b is
        exact ⟨none_, fun settled => not_ (before b settled)⟩
      · intro b settled
        exact tidy.covered.settled b (before b settled)

theorem removalStep (tidy : Tidy w) {pageSize : ℕ} {c : Circumstances} {r : Removal}
    (member : r ∈ w.removals) (isPage : w.PageOf pageSize c r)
    (careful : w.Careful (.advance r c)) : Tidy (w.removalStep c r) := by
  cases r with
  | deleting b inputKey resultKey => exact tidy.deleting member careful
  | sweeping now cleared stage => exact tidy.sweepStep member isPage careful
  | wiping orgId keys => exact tidy.wiping member
  | wiped orgId => exact tidy.wiped member
  | recording refs => exact tidy.recording member

/-! ### All steps -/

theorem step {pageSize : ℕ} (tidy : Tidy w) {a : Action} (careful : w.Careful a) {w' : World}
    (steps : step pageSize w a w') : Tidy w' := by
  obtain ⟨allowed, rfl⟩ := steps
  cases a with
  | upload b outcome => exact tidy.upload allowed outcome
  | create p filename draw now delivery =>
      obtain ⟨member, unlocked, column, header, rows, stage⟩ := allowed
      exact tidy.create member unlocked stage filename draw now delivery
  | enqueue p accepted => exact tidy.enqueue allowed.1 accepted
  | refuse p draw delivery => exact tidy.refuse allowed.1 draw delivery
  | discard p replies => exact tidy.discard allowed.1 replies
  | dropRequest p => exact tidy.uploadEnds allowed
  | deliver batchId delivery => exact tidy.deliver batchId delivery
  | exitEarly x error draw delivery => exact tidy.exitEarly allowed.1 error draw delivery
  | loop x result => exact tidy.loop allowed.1 result
  | store x outcome => exact tidy.store allowed.1 careful
  | complete x draw now delivery => exact tidy.complete allowed.1 draw now delivery
  | fail x draw delivery => exact tidy.fail allowed.1 draw delivery
  | die x written => exact tidy.die allowed careful
  | delete b draw delivery => exact tidy.delete b draw delivery
  | wipe orgId => exact tidy.wipe careful
  | sweep now => exact tidy.sweep now
  | advance r c => exact tidy.removalStep allowed.1 allowed.2 careful
  | dropRemoval r => exact tidy.drop allowed
  | softDelete orgId user draw now => exact tidy.onDb fun _ _ => softDelete_keeps

theorem noFileOutlives (tidy : Tidy w) : w.NoFileOutlives :=
  fun b reported _ => (tidy.covered.settled b (.inl reported)).2

end Tidy

/-- The organisation of the runs below. -/
def wipedOrg : Uuid := .numbered 1

def wipedBatch : BatchRef := ⟨wipedOrg, .numbered 2⟩

/-- An organisation with ten credits, and nothing else. -/
def fundedWorld : World where
  db :=
    { organizations := [⟨wipedOrg, none, 30, false⟩]
      creditLedger := [⟨.numbered 3, wipedOrg, 10, .grant, none, none, 0⟩]
      emailChecks := []
      phoneChecks := []
      batches := []
      auditEvents := [] }
  purgedOrgs := []
  bucket := ⟨[], 0⟩
  uploads := []
  works := []
  removals := []
  drawn := []
  submitted := []
  reported := []

theorem fundedWorld_initial : fundedWorld.Initial := by
  refine ⟨by decide +kernel, rfl, ?_, rfl, rfl, rfl, rfl, rfl, ?_⟩
  · intro key member
    cases member
  · intro orgId member
    cases member

/-- What the transactions of the runs draw. -/
def drawn1 : Draw := ⟨0, .numbered 4, .numbered 5, .numbered 6⟩

def drawn2 : Draw := ⟨0, .numbered 7, .numbered 8, .numbered 9⟩

/-- Its batch, as the worker has claimed it. -/
def wipedRow : Batch :=
  Batch.claim
    ((creationInput wipedBatch "a.csv" 0 false 1).row drawn1
      (Date.addDays 0 30).timestamp)

def wipedStats : BatchStats := emptyStats 0 false

/-- The batch is uploaded, and its worker comes to the completion. -/
def upToCompletion : List Action :=
  [.upload wipedBatch (.stored (.ok 0 false 1) false),
    .create ⟨wipedBatch, .inspected 0 false 1⟩ "a.csv" drawn1 0 .answered,
    .enqueue ⟨wipedBatch, .enqueueing 1⟩ true,
    .deliver wipedBatch.batchId .answered,
    .loop ⟨wipedRow, .claimed 30⟩ (.through 1 wipedStats),
    .store ⟨wipedRow, .storing 30 1 wipedStats⟩ .stored]

/-- A wipe, whose rows name these objects. -/
def wipeOf (keys : List String) : List Action :=
  let fine : Circumstances := ⟨fun _ => .done, .answered, [], 0⟩
  [.wipe wipedOrg, .advance (.wiping wipedOrg keys) fine, .advance (.wiped wipedOrg) fine,
    .advance (.recording [wipedBatch]) fine]

/-- The completion goes through. -/
def completedAndWiped : List Action :=
  upToCompletion ++
    (.complete ⟨wipedRow, .completing 30 1 wipedStats⟩ drawn2 0 .answered ::
      wipeOf [wipedBatch.inputKey, wipedBatch.resultKey])

/-- The completion fails, and the batch with it. -/
def failedAndWiped : List Action :=
  upToCompletion ++
    (.complete ⟨wipedRow, .completing 30 1 wipedStats⟩ drawn2 0
        .lostBefore ::
      .fail ⟨wipedRow, .failing⟩ drawn2 .answered ::
      wipeOf [wipedBatch.inputKey])

instance (reply : Reply) : Decidable (reply = .done) :=
  match reply with
  | .done => .isTrue rfl
  | .failed _ => .isFalse nofun

namespace World

instance (w : World) (r : Removal) (b : BatchRef) : Decidable (w.InHand r b) :=
  have : Decidable (r.Charge b) :=
    match r with
    | .deleting _ _ _ => inferInstanceAs (Decidable (_ = _))
    | .wiping _ _ => inferInstanceAs (Decidable (_ = _))
    | .wiped _ => inferInstanceAs (Decidable (_ = _))
    | .recording _ => .isFalse id
    | .sweeping _ _ stage =>
        match stage with
        | .deletingObjects page => inferInstanceAs (Decidable (∃ t ∈ page, _))
        | .deletingRows page => inferInstanceAs (Decidable (∃ t ∈ page, _))
        | .erasing _ _ => inferInstanceAs (Decidable (_ = _))
        | .listing => .isFalse id
        | .purging _ => .isFalse id
        | .emptying _ _ _ => .isFalse id
        | .confirming _ _ => .isFalse id
        | .exports => .isFalse id
        | .ledger => .isFalse id
        | .retiring => .isFalse id
  inferInstanceAs (Decidable (_ ∧ _))

instance (w : World) (b : BatchRef) : Decidable (w.Accountable b) :=
  inferInstanceAs (Decidable (_ ∧ _))

instance Careful.decidable (w : World) : ∀ a, Decidable (Careful w a)
  | .store _ _ => inferInstanceAs (Decidable (_ → _))
  | .die _ _ => inferInstanceAs (Decidable (_ → _ → _))
  | .wipe _ => inferInstanceAs (Decidable (∀ b ∈ w.db.batches, _))
  | .advance (.sweeping _ _ .listing) c => inferInstanceAs (Decidable (∀ t ∈ c.page, _))
  | .advance (.deleting _ _ _) c => inferInstanceAs (Decidable (c.replies _ = .done))
  | .advance (.sweeping _ _ (.deletingObjects _)) _ => .isTrue trivial
  | .advance (.sweeping _ _ (.deletingRows _)) _ => .isTrue trivial
  | .advance (.sweeping _ _ (.purging _)) _ => .isTrue trivial
  | .advance (.sweeping _ _ (.emptying _ _ _)) _ => .isTrue trivial
  | .advance (.sweeping _ _ (.confirming _ _)) _ => .isTrue trivial
  | .advance (.sweeping _ _ (.erasing _ _)) _ => .isTrue trivial
  | .advance (.sweeping _ _ .exports) _ => .isTrue trivial
  | .advance (.sweeping _ _ .ledger) _ => .isTrue trivial
  | .advance (.sweeping _ _ .retiring) _ => .isTrue trivial
  | .advance (.wiping _ _) _ => .isTrue trivial
  | .advance (.wiped _) _ => .isTrue trivial
  | .advance (.recording _) _ => .isTrue trivial
  | .upload _ _ => .isTrue trivial
  | .create _ _ _ _ _ => .isTrue trivial
  | .enqueue _ _ => .isTrue trivial
  | .refuse _ _ _ => .isTrue trivial
  | .discard _ _ => .isTrue trivial
  | .dropRequest _ => .isTrue trivial
  | .deliver _ _ => .isTrue trivial
  | .exitEarly _ _ _ _ => .isTrue trivial
  | .loop _ _ => .isTrue trivial
  | .complete _ _ _ _ => .isTrue trivial
  | .fail _ _ _ => .isTrue trivial
  | .delete _ _ _ => .isTrue trivial
  | .sweep _ => .isTrue trivial
  | .dropRemoval _ => .isTrue trivial
  | .softDelete _ _ _ _ => .isTrue trivial

end World

/-- A careful run that removes a batch and its files. -/
theorem completedAndWiped_careful :
    ∃ tr, Run (step 500) fundedWorld tr (completedAndWiped.foldl World.after fundedWorld) ∧
      ∀ e ∈ tr, e.source.Careful e.action :=
  Executable.run_guarded (by decide +kernel)

end Tozalist.Worker.BatchFiles
