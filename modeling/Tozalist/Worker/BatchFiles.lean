/-
# Tozalist.Worker.BatchFiles -- the rows of batches, and their files in the bucket

Everything that writes or removes a batch or its objects, over one database and one bucket:

* `POST /v1/batches` and `/internal/batches`, which upload the input before they insert the row;
* `processBatch`, which uploads the result before it sets the column of its key;
* the two routes that delete a batch: the row first, then the objects;
* `wipeCheckDataForOrg` and the retention sweep: the objects that the rows name first, then the
  rows, and for an organisation due for purge everything under its prefix.

Each call to the database or the bucket is a step of its own, and any of them may fail, after it
took effect or before, and any party may die between two.  A job is delivered at any time and any
number of times, whether the queue took it or not, so there are more runs here than in
`Credits.Custody`, whose transactions these are; `Worker.FilesCustody` says which ones are runs
there.  `drawn`, `submitted` and `reported` are ghosts.
-/
import Tozalist.Api.CsvInspect
import Tozalist.Worker.Announcement
import Tozalist.Worker.LifecycleSweep

namespace Tozalist.Worker.BatchFiles

set_option autoImplicit false

open Api (CsvInspection)
open Db
open Lifecycle (targetKeys StaleExport)
open Shared (Bucket Replies Reply StorageCall StartsWith batchInputKey deleteObjects listKeys
  orgObjectPrefix)
open Theory (Interruptible StepOf Txn)
open Theory.Txn (Delivery)

/-! ## Names -/

/-- A batch, as its storage prefix names it. -/
structure BatchRef where
  orgId : Uuid
  batchId : Uuid
  deriving DecidableEq, Repr

namespace BatchRef

/-- Batch objects live at `org/{orgId}/batches/{batchId}/`. -/
def objectPrefix (ref : BatchRef) : String :=
  "org/" ++ ref.orgId.text ++ "/batches/" ++ ref.batchId.text ++ "/"

/-- The key lies under the prefix of the batch. -/
def Under (ref : BatchRef) (key : String) : Prop := StartsWith ref.objectPrefix key

instance (ref : BatchRef) (key : String) : Decidable (ref.Under key) :=
  inferInstanceAs (Decidable (StartsWith _ _))

def inputKey (ref : BatchRef) : String := batchInputKey ref.orgId ref.batchId

def resultKey (ref : BatchRef) : String := batchResultKey ref.orgId ref.batchId

theorem under_inputKey (ref : BatchRef) : ref.Under ref.inputKey := by
  refine ⟨"input.csv".toList, ?_⟩
  rw [← String.toList_append]
  congr 1
  simp only [objectPrefix, inputKey, batchInputKey, String.append_assoc]
  rfl

theorem under_resultKey (ref : BatchRef) : ref.Under ref.resultKey := by
  refine ⟨"result.csv".toList, ?_⟩
  rw [← String.toList_append]
  congr 1
  simp only [objectPrefix, resultKey, batchResultKey, String.append_assoc]
  rfl

theorem objectPrefix_toList (ref : BatchRef) :
    ref.objectPrefix.toList = "org/".toList ++ (ref.orgId.text.toList ++
      ("/batches/".toList ++ (ref.batchId.text.toList ++ "/".toList))) := by
  simp only [objectPrefix, String.toList_append, List.append_assoc]

theorem under_org (ref : BatchRef) {key : String} (under : ref.Under key) :
    StartsWith (orgObjectPrefix ref.orgId) key := by
  refine List.IsPrefix.trans ?_ under
  refine ⟨("batches/" ++ ref.batchId.text ++ "/").toList, ?_⟩
  rw [← String.toList_append]
  congr 1
  simp only [objectPrefix, orgObjectPrefix, String.append_assoc]
  rfl

/-- **A key lies under one batch only**: ids have one length. -/
theorem under_inj {ref ref' : BatchRef} {key : String} (here : ref.Under key)
    (there : ref'.Under key) : ref = ref' := by
  have long : ∀ r : BatchRef, r.objectPrefix.toList.length = 86 := by
    intro r
    rw [objectPrefix_toList]
    simp only [List.length_append, r.orgId.canonical.1, r.batchId.canonical.1]
    rfl
  have same : ref.objectPrefix.toList = ref'.objectPrefix.toList :=
    (List.prefix_of_prefix_length_le here there (by rw [long, long])).eq_of_length
      (by rw [long, long])
  rw [objectPrefix_toList, objectPrefix_toList, List.append_cancel_left_eq] at same
  obtain ⟨orgs, rest⟩ := List.append_inj same
    (ref.orgId.canonical.1.trans ref'.orgId.canonical.1.symm)
  rw [List.append_cancel_left_eq, List.append_cancel_right_eq] at rest
  have first : ref.orgId = ref'.orgId := Uuid.ext_text (String.toList_injective orgs)
  have second : ref.batchId = ref'.batchId := Uuid.ext_text (String.toList_injective rest)
  cases ref
  cases ref'
  cases first
  cases second
  rfl

end BatchRef

/-- The batch of a row. -/
def ref (b : Batch) : BatchRef := ⟨b.orgId, b.id⟩

/-- The batch of a row of a page. -/
def targetRef (target : BatchPurgeTarget) : BatchRef := ⟨target.orgId, target.id⟩

/-! ## The parties -/

/-- How the streams of an upload end. -/
inductive UploadOutcome where
  | stored (inspection : CsvInspection) (truncated : Bool)
  /-- a stream throws, with the object written or not -/
  | failed (written : Bool)
  deriving DecidableEq, Repr

/-- A request that creates a batch, from the end of its upload on. -/
inductive UploadStage where
  | inspected (emailColumn : ℕ) (hasHeader : Bool) (totalRows : ℕ)
  /-- the row is there; `batchQueue.enqueue` is next -/
  | enqueueing (totalRows : ℕ)
  /-- the queue refused; `failBatch` is next -/
  | refused (totalRows : ℕ)
  /-- `deleteObjects([inputKey])` is next, and ends the request -/
  | discarding
  deriving DecidableEq, Repr

structure Upload where
  ref : BatchRef
  stage : UploadStage
  deriving DecidableEq, Repr

/-- What the request goes on with after its streams. -/
def UploadOutcome.stage : UploadOutcome → UploadStage
  | .stored (.ok emailColumn hasHeader totalRows) false =>
      .inspected emailColumn hasHeader totalRows
  | _ => .discarding

/-- The input object is in the bucket. -/
def UploadOutcome.written : UploadOutcome → Bool
  | .stored _ _ => true
  | .failed written => written

/-- An execution of `processBatch` that has won its claim. -/
inductive WorkStage where
  | orgUnavailable
  /-- in the loop, with the stream of the result open -/
  | claimed (retentionDays : Int)
  /-- `resultStream.end()`; the upload is finishing -/
  | storing (retentionDays : Int) (processed : ℕ) (stats : BatchStats)
  /-- `completeBatch` is next -/
  | completing (retentionDays : Int) (processed : ℕ) (stats : BatchStats)
  /-- in the `catch` branch; `failBatch` is next -/
  | failing
  deriving DecidableEq, Repr

structure Work where
  batch : Batch
  stage : WorkStage
  deriving DecidableEq, Repr

/-- How the upload of a result ends. -/
inductive ResultOutcome where
  | stored
  /-- the upload throws, with the object written or not -/
  | failed (written : Bool)
  deriving DecidableEq, Repr

def ResultOutcome.written : ResultOutcome → Bool
  | .stored => true
  | .failed written => written

/-- Where `runLifecycleSweep` stands. -/
inductive SweepStage where
  /-- `listExpiredBatches` is next -/
  | listing
  | deletingObjects (page : List BatchPurgeTarget)
  | deletingRows (page : List BatchPurgeTarget)
  /-- the organisations due for purge that are left -/
  | purging (due : List Uuid)
  | emptying (orgId : Uuid) (keys : List String) (due : List Uuid)
  | confirming (orgId : Uuid) (due : List Uuid)
  /-- the prefix is empty; `hardDeleteOrganizationData` is next -/
  | erasing (orgId : Uuid) (due : List Uuid)
  | exports
  | ledger
  /-- `deleteRetiredOrganizations` is next -/
  | retiring
  deriving DecidableEq, Repr

/-- An operation that removes batches, from where it has looked at their rows. -/
inductive Removal where
  /-- a deletion whose row is gone, with its objects next -/
  | deleting (ref : BatchRef) (inputKey resultKey : String)
  /-- a wipe in its transaction: it has listed the keys, and their objects are next -/
  | wiping (orgId : Uuid) (keys : List String)
  /-- a wipe in its transaction, with the rows next -/
  | wiped (orgId : Uuid)
  | sweeping (now : Date) (cleared : List BatchRef) (stage : SweepStage)
  /-- the audit event is next, and then the operation reports success -/
  | recording (refs : List BatchRef)
  deriving DecidableEq, Repr

structure World where
  db : Database
  /-- organisations with a `purged_at` -/
  purgedOrgs : List Uuid
  bucket : Bucket
  uploads : List Upload
  works : List Work
  removals : List Removal
  /-- ids that `randomUUID` has drawn for a batch -/
  drawn : List Uuid
  /-- ids under which a row was to be inserted -/
  submitted : List Uuid
  /-- batches whose removal has reported success -/
  reported : List BatchRef

/-- What database and bucket do in one step of a removal. -/
structure Circumstances where
  replies : Replies
  delivery : Delivery
  page : List BatchPurgeTarget
  dbNow : Timestamp

inductive Action where
  | upload (ref : BatchRef) (outcome : UploadOutcome)
  | create (p : Upload) (filename : String) (draw : Draw) (now : Date) (delivery : Delivery)
  | enqueue (p : Upload) (accepted : Bool)
  | refuse (p : Upload) (draw : Draw) (delivery : Delivery)
  | discard (p : Upload) (replies : Replies)
  | dropRequest (p : Upload)
  | deliver (batchId : Uuid) (delivery : Delivery)
  /-- an exit before the loop -/
  | exitEarly (x : Work) (error : String) (draw : Draw) (delivery : Delivery)
  | loop (x : Work) (result : LoopResult)
  | store (x : Work) (outcome : ResultOutcome)
  | complete (x : Work) (draw : Draw) (now : Date) (delivery : Delivery)
  | fail (x : Work) (draw : Draw) (delivery : Delivery)
  /-- the worker dies, with a result that was finishing written or not -/
  | die (x : Work) (written : Bool)
  | delete (ref : BatchRef) (draw : Draw) (delivery : Delivery)
  | wipe (orgId : Uuid)
  | sweep (now : Date)
  | advance (r : Removal) (c : Circumstances)
  | dropRemoval (r : Removal)
  | softDelete (orgId actorUserId : Uuid) (draw : Draw) (now : Date)

/-! ## Steps -/

/-- Write an object; one of that key is overwritten. -/
def putObject (bucket : Bucket) (key : String) : Bucket :=
  { bucket with objects := if key ∈ bucket.objects then bucket.objects else key :: bucket.objects }

/-- `if (keys.length > 0) await deps.storage.deleteObjects(keys)` -/
def deleteListed (replies : Replies) (keys : List String) : StorageCall PUnit :=
  if keys = [] then pure ⟨⟩ else deleteObjects replies keys

/-- Step 5 of the sweep. -/
def deleteStaleExports (replies : Replies) (now : Date) : StorageCall PUnit := do
  let allKeys ← listKeys replies "org/"
  deleteListed replies (allKeys.filter fun key => StaleExport now key)

/-- The input of a creation. -/
def creationInput (ref : BatchRef) (filename : String) (emailColumn : ℕ) (hasHeader : Bool)
    (totalRows : ℕ) : CreateBatchInput :=
  { batchId := ref.batchId
    orgId := ref.orgId
    filename := filename
    totalRows := totalRows
    inputObjectKey := ref.inputKey
    stats := emptyStats emailColumn hasHeader }

/-- The error of an exit before the loop, where one is taken. -/
def Work.earlyError (x : Work) : Option String :=
  match x.stage with
  | .orgUnavailable => some "org_unavailable"
  | .claimed _ => if readLayout x.batch.stats = none then some "invalid_layout" else none
  | _ => none

/-- An organisation whose purge is over, and whose ledger is gone. -/
def Retired (purgedOrgs : List Uuid) (db : Database) (id : Uuid) : Prop :=
  id ∈ purgedOrgs ∧ ∀ e ∈ db.creditLedger, e.orgId ≠ id

instance (purgedOrgs : List Uuid) (db : Database) (id : Uuid) :
    Decidable (Retired purgedOrgs db id) :=
  inferInstanceAs (Decidable (_ ∧ _))

/-- `deleteRetiredOrganizations`; their checks and batches go with them. -/
def deleteRetiredOrganizations (purgedOrgs : List Uuid) : Tx Unit :=
  modify fun db =>
    { db with
      organizations := db.organizations.filter fun o => ¬ Retired purgedOrgs db o.id
      emailChecks := db.emailChecks.filter fun c => ¬ Retired purgedOrgs db c.orgId
      phoneChecks := db.phoneChecks.filter fun c => ¬ Retired purgedOrgs db c.orgId
      batches := db.batches.filter fun b => ¬ Retired purgedOrgs db b.orgId }

namespace World

/-- The batch has a row. -/
def HasRow (w : World) (r : BatchRef) : Prop := ∃ b ∈ w.db.batches, ref b = r

instance (w : World) (r : BatchRef) : Decidable (w.HasRow r) :=
  inferInstanceAs (Decidable (∃ b ∈ w.db.batches, _))

/-- The batches of the rows that `p` selects. -/
def refsOf (w : World) (p : Batch → Bool) : List BatchRef := (w.db.batches.filter p).map ref

/-- A call to the bucket; `none` when it throws. -/
def onBucket {α : Type} (w : World) (call : StorageCall α) : Option α × World :=
  match Interruptible.exec call w.bucket with
  | (.ok a, bucket) => (some a, { w with bucket })
  | (.error _, bucket) => (none, { w with bucket })

/-- A transaction; `none` when it throws. -/
def onDb {α : Type} (w : World) (delivery : Delivery) (tx : Tx α) : Option α × World :=
  ((Txn.attempt delivery tx w.db).1, { w with db := (Txn.attempt delivery tx w.db).2 })

/-- A request goes on at another stage, or ends. -/
def uploadOn (w : World) (p : Upload) (next : Option UploadStage) : World :=
  { w with
    uploads := (next.map fun stage => { p with stage := stage }).toList ++ w.uploads.erase p }

/-- An execution goes on at another stage, or ends. -/
def workOn (w : World) (x : Work) (next : Option WorkStage) : World :=
  { w with works := (next.map fun stage => { x with stage := stage }).toList ++ w.works.erase x }

/-- A removal goes on as another, or ends. -/
def removalOn (w : World) (r : Removal) (next : Option Removal) : World :=
  { w with removals := next.toList ++ w.removals.erase r }

/-- An object is written when `written` says so. -/
def put (w : World) (key : String) (written : Bool) : World :=
  if written then { w with bucket := putObject w.bucket key } else w

/-- `listOrganizationsDueForPurge`. -/
def dueForPurge (w : World) (now : Date) : List Uuid :=
  (w.db.organizations.filter fun o =>
    (∃ t ∈ o.deletedAt, t ≤ (now.addDays (-orgPurgeGraceDays)).timestamp) ∧
      o.id ∉ w.purgedOrgs).map (·.id)

/-- A wipe of the organisation holds the lock on its row. -/
def Locked (w : World) (orgId : Uuid) : Prop :=
  ∃ r ∈ w.removals, r = .wiped orgId ∨ ∃ keys, r = .wiping orgId keys

/-- The stage of a sweep at which it goes on, after a call that answered or threw. -/
def sweepOn (w : World) (now : Date) (cleared : List BatchRef) (stage : SweepStage)
    (next : Option (List BatchRef × SweepStage)) : World :=
  w.removalOn (.sweeping now cleared stage)
    (next.map fun (more, stage) => .sweeping now (more ++ cleared) stage)

/-- A step of `runLifecycleSweep`. -/
def sweepStep (w : World) (c : Circumstances) (now : Date) (cleared : List BatchRef)
    (stage : SweepStage) : World :=
  let on := fun (w' : World) => w'.sweepOn now cleared stage
  match stage with
  | .listing =>
      if c.page = [] then on w (some ([], .purging (w.dueForPurge now)))
      else on w (some ([], .deletingObjects c.page))
  | .deletingObjects page =>
      match w.onBucket (deleteObjects c.replies (page.flatMap targetKeys)) with
      | (some _, w') => on w' (some ([], .deletingRows page))
      | (none, w') => on w' none
  | .deletingRows page =>
      let refs := w.refsOf fun b => b.id ∈ page.map (·.id)
      match w.onDb c.delivery (deleteBatchesByIds (page.map (·.id))) with
      | (some _, w') => on w' (some (refs, .listing))
      | (none, w') => on w' none
  | .purging [] => on w (some ([], .exports))
  | .purging (orgId :: due) =>
      match w.onBucket (listKeys c.replies (orgObjectPrefix orgId)) with
      | (some keys, w') => on w' (some ([], .emptying orgId keys due))
      | (none, w') => on w' none
  | .emptying orgId keys due =>
      match w.onBucket (deleteListed c.replies keys) with
      | (some _, w') => on w' (some ([], .confirming orgId due))
      | (none, w') => on w' none
  | .confirming orgId due =>
      match w.onBucket (listKeys c.replies (orgObjectPrefix orgId)) with
      | (some [], w') => on w' (some ([], .erasing orgId due))
      | (_, w') => on w' none
  | .erasing orgId due =>
      let refs := w.refsOf fun b => b.orgId = orgId
      let marked := fun w' : World => { w' with purgedOrgs := orgId :: w'.purgedOrgs }
      let erase : Tx Unit := modify fun db => db.wiped orgId
      match c.delivery with
      | .answered => on (marked (w.onDb c.delivery erase).2) (some (refs, .purging due))
      | .lostAfter => on (marked (w.onDb c.delivery erase).2) none
      | .lostBefore => on w none
  | .exports =>
      match w.onBucket (deleteStaleExports c.replies now) with
      | (some _, w') => on w' (some ([], .ledger))
      | (none, w') => on w' none
  | .ledger =>
      match w.onDb c.delivery (purgeExpiredLedgerEntries c.dbNow now) with
      | (some _, w') => on w' (some ([], .retiring))
      | (none, w') => on w' none
  | .retiring =>
      let refs := w.refsOf fun b => Retired w.purgedOrgs w.db b.orgId
      match w.onDb c.delivery (deleteRetiredOrganizations w.purgedOrgs) with
      | (some _, w') =>
          w'.removalOn (.sweeping now cleared stage) (some (.recording (refs ++ cleared)))
      | (none, w') => on w' none

/-- A step of a removal. -/
def removalStep (w : World) (c : Circumstances) : Removal → World
  | .deleting ref inputKey resultKey =>
      -- a call that throws is logged, and the route goes on
      (w.onBucket (deleteObjects c.replies [inputKey, resultKey])).2.removalOn
        (.deleting ref inputKey resultKey) (some (.recording [ref]))
  | .wiping orgId keys =>
      match w.onBucket (deleteObjects c.replies keys) with
      | (some _, w') => w'.removalOn (.wiping orgId keys) (some (.wiped orgId))
      | (none, w') => w'.removalOn (.wiping orgId keys) none
  | .wiped orgId =>
      let refs := w.refsOf fun b => b.orgId = orgId
      match w.onDb c.delivery (modify fun db => db.wiped orgId : Tx Unit) with
      | (some _, w') => w'.removalOn (.wiped orgId) (some (.recording refs))
      | (none, w') => w'.removalOn (.wiped orgId) none
  | .sweeping now cleared stage => w.sweepStep c now cleared stage
  | .recording refs =>
      match c.delivery with
      | .answered => { w.removalOn (.recording refs) none with reported := refs ++ w.reported }
      | _ => w.removalOn (.recording refs) none

/-- What `createBatchWithReservation` makes of a request. -/
def created (w : World) (p : Upload) (totalRows : ℕ) : Option CreateBatchResult → World
  | some (.created _ _) => w.uploadOn p (some (.enqueueing totalRows))
  | some _ => w.uploadOn p (some .discarding)
  | none => w.uploadOn p none

/-- What a claim makes of a job. -/
def claimed (w : World) : Option ClaimBatchResult → World
  | some (.claimed batch days) => { w with works := ⟨batch, .claimed days⟩ :: w.works }
  | some (.orgUnavailable batch) => { w with works := ⟨batch, .orgUnavailable⟩ :: w.works }
  | _ => w

/-- What `deleteBatchForOrg` makes of a deletion; the key of the result is deterministic. -/
def deletion (w : World) (ref : BatchRef) : Option DeleteBatchResult → World
  | some (.deleted inputObjectKey resultObjectKey _) =>
      { w with
        removals :=
          .deleting ref inputObjectKey (resultObjectKey.getD ref.resultKey) :: w.removals }
  | _ => w

/-- One step. -/
def after (w : World) : Action → World
  | .upload ref outcome =>
      { w.put ref.inputKey outcome.written with
        drawn := ref.batchId :: w.drawn
        uploads := ⟨ref, outcome.stage⟩ :: w.uploads }
  | .create p filename draw now delivery =>
      match p.stage with
      | .inspected emailColumn hasHeader totalRows =>
          let input := creationInput p.ref filename emailColumn hasHeader totalRows
          let (answer, w') := w.onDb delivery (createBatchWithReservation input draw now)
          { w'.created p totalRows answer with submitted := p.ref.batchId :: w.submitted }
      | _ => w
  | .enqueue p accepted =>
      match p.stage with
      | .enqueueing totalRows =>
          w.uploadOn p (if accepted then none else some (.refused totalRows))
      | _ => w
  | .refuse p draw delivery =>
      match p.stage with
      | .refused totalRows =>
          let input := Credits.queueUnavailable ⟨p.ref.orgId, p.ref.batchId, totalRows⟩
          match w.onDb delivery (failBatch input draw) with
          | (some _, w') => w'.uploadOn p (some .discarding)
          | (none, w') => w'.uploadOn p none
      | _ => w
  | .discard p replies => (w.onBucket (deleteObjects replies [p.ref.inputKey])).2.uploadOn p none
  | .dropRequest p => w.uploadOn p none
  | .deliver batchId delivery =>
      let (answer, w') := w.onDb delivery (claimBatchForProcessing batchId)
      w'.claimed answer
  | .exitEarly x error draw delivery =>
      (w.onDb delivery (failBatch (failing x.batch error) draw)).2.workOn x none
  | .loop x result =>
      match x.stage, result with
      | .claimed days, .through processed stats => w.workOn x (some (.storing days processed stats))
      | .claimed _, .thrown _ => w.workOn x (some .failing)
      | _, _ => w
  | .store x outcome =>
      match x.stage, outcome with
      | .storing days processed stats, .stored =>
          (w.put (ref x.batch).resultKey true).workOn x (some (.completing days processed stats))
      | .storing _ _ _, .failed written =>
          (w.put (ref x.batch).resultKey written).workOn x (some .failing)
      | _, _ => w
  | .complete x draw now delivery =>
      match x.stage with
      | .completing days processed stats =>
          let input := loopCompletion x.batch days processed stats
          match w.onDb delivery (completeBatch input draw now) with
          | (some _, w') => w'.workOn x none
          | (none, w') => w'.workOn x (some .failing)
      | _ => w
  | .fail x draw delivery =>
      (w.onDb delivery (failBatch (failing x.batch "processing_failed") draw)).2.workOn x none
  | .die x written =>
      match x.stage with
      | .storing _ _ _ => (w.put (ref x.batch).resultKey written).workOn x none
      | _ => w.workOn x none
  | .delete ref draw delivery =>
      let (answer, w') := w.onDb delivery (deleteBatchForOrg ref.batchId ref.orgId draw)
      w'.deletion ref answer
  | .wipe orgId =>
      let objectKeys := (w.db.batches.filter fun b => b.orgId = orgId).flatMap Batch.objectKeys
      { w with removals := .wiping orgId objectKeys :: w.removals }
  | .sweep now => { w with removals := .sweeping now [] .listing :: w.removals }
  | .advance r c => w.removalStep c r
  | .dropRemoval r => w.removalOn r none
  | .softDelete orgId actorUserId draw now =>
      (w.onDb .answered (softDeleteOrganization orgId actorUserId draw now)).2

/-- The page is one the database can answer with, where the removal asks for one. -/
def PageOf (pageSize : ℕ) (w : World) (c : Circumstances) : Removal → Prop
  | .sweeping now _ .listing => w.db.IsExpiredPage now pageSize c.page
  | _ => True

/-- When an action can happen. -/
def Allows (pageSize : ℕ) (w : World) : Action → Prop
  | .upload ref _ => ref.batchId ∉ w.drawn
  | .create p _ _ _ _ =>
      p ∈ w.uploads ∧ ¬ w.Locked p.ref.orgId ∧
        ∃ column header rows, p.stage = .inspected column header rows
  | .enqueue p _ => p ∈ w.uploads ∧ ∃ rows, p.stage = .enqueueing rows
  | .refuse p _ _ => p ∈ w.uploads ∧ ∃ rows, p.stage = .refused rows
  | .discard p _ => p ∈ w.uploads ∧ p.stage = .discarding
  | .dropRequest p => p ∈ w.uploads
  | .deliver _ _ => True
  | .exitEarly x error _ _ => x ∈ w.works ∧ x.earlyError = some error
  | .loop x _ => x ∈ w.works ∧ x.earlyError = none ∧ ∃ days, x.stage = .claimed days
  | .store x _ => x ∈ w.works ∧ ∃ days processed stats, x.stage = .storing days processed stats
  | .complete x _ _ _ =>
      x ∈ w.works ∧ ∃ days processed stats, x.stage = .completing days processed stats
  | .fail x _ _ => x ∈ w.works ∧ x.stage = .failing
  | .die x _ => x ∈ w.works
  | .delete _ _ _ => True
  | .wipe orgId => w.db.ActiveOrg orgId ∧ ¬ w.Locked orgId
  | .sweep _ => True
  | .advance r c => r ∈ w.removals ∧ w.PageOf pageSize c r
  | .dropRemoval r => r ∈ w.removals
  | .softDelete orgId _ _ _ => ¬ w.Locked orgId

instance (stage : UploadStage) :
    Decidable (∃ column header rows, stage = .inspected column header rows) :=
  match stage with
  | .inspected column header rows => .isTrue ⟨column, header, rows, rfl⟩
  | .enqueueing _ => .isFalse nofun
  | .refused _ => .isFalse nofun
  | .discarding => .isFalse nofun

instance (stage : UploadStage) : Decidable (∃ rows, stage = .enqueueing rows) :=
  match stage with
  | .enqueueing rows => .isTrue ⟨rows, rfl⟩
  | .inspected _ _ _ => .isFalse nofun
  | .refused _ => .isFalse nofun
  | .discarding => .isFalse nofun

instance (stage : UploadStage) : Decidable (∃ rows, stage = .refused rows) :=
  match stage with
  | .refused rows => .isTrue ⟨rows, rfl⟩
  | .inspected _ _ _ => .isFalse nofun
  | .enqueueing _ => .isFalse nofun
  | .discarding => .isFalse nofun

instance (stage : WorkStage) : Decidable (∃ days, stage = .claimed days) :=
  match stage with
  | .claimed days => .isTrue ⟨days, rfl⟩
  | .orgUnavailable => .isFalse nofun
  | .storing _ _ _ => .isFalse nofun
  | .completing _ _ _ => .isFalse nofun
  | .failing => .isFalse nofun

instance (stage : WorkStage) :
    Decidable (∃ days processed stats, stage = .storing days processed stats) :=
  match stage with
  | .storing days processed stats => .isTrue ⟨days, processed, stats, rfl⟩
  | .orgUnavailable => .isFalse nofun
  | .claimed _ => .isFalse nofun
  | .completing _ _ _ => .isFalse nofun
  | .failing => .isFalse nofun

instance (stage : WorkStage) :
    Decidable (∃ days processed stats, stage = .completing days processed stats) :=
  match stage with
  | .completing days processed stats => .isTrue ⟨days, processed, stats, rfl⟩
  | .orgUnavailable => .isFalse nofun
  | .claimed _ => .isFalse nofun
  | .storing _ _ _ => .isFalse nofun
  | .failing => .isFalse nofun

/-- The lock is on one of the removals. -/
def Removal.locks (orgId : Uuid) : Removal → Bool
  | .wiped orgId' => orgId' = orgId
  | .wiping orgId' _ => orgId' = orgId
  | _ => false

theorem locked_iff (w : World) (orgId : Uuid) :
    w.Locked orgId ↔ w.removals.any (Removal.locks orgId) = true := by
  rw [List.any_eq_true]
  refine exists_congr fun r => and_congr_right fun _ => ?_
  cases r <;> simp [Removal.locks]

instance (w : World) (orgId : Uuid) : Decidable (w.Locked orgId) :=
  decidable_of_iff _ (w.locked_iff orgId).symm

instance PageOf.decidable (pageSize : ℕ) (w : World) (c : Circumstances) :
    ∀ r, Decidable (PageOf pageSize w c r)
  | .sweeping now _ .listing => inferInstanceAs (Decidable (w.db.IsExpiredPage now pageSize c.page))
  | .sweeping _ _ (.deletingObjects _) => .isTrue trivial
  | .sweeping _ _ (.deletingRows _) => .isTrue trivial
  | .sweeping _ _ (.purging _) => .isTrue trivial
  | .sweeping _ _ (.emptying _ _ _) => .isTrue trivial
  | .sweeping _ _ (.confirming _ _) => .isTrue trivial
  | .sweeping _ _ (.erasing _ _) => .isTrue trivial
  | .sweeping _ _ .exports => .isTrue trivial
  | .sweeping _ _ .ledger => .isTrue trivial
  | .sweeping _ _ .retiring => .isTrue trivial
  | .deleting _ _ _ => .isTrue trivial
  | .wiping _ _ => .isTrue trivial
  | .wiped _ => .isTrue trivial
  | .recording _ => .isTrue trivial

instance Allows.decidable (pageSize : ℕ) (w : World) : ∀ a, Decidable (Allows pageSize w a)
  | .upload _ _ => inferInstanceAs (Decidable (¬ _))
  | .create _ _ _ _ _ => inferInstanceAs (Decidable (_ ∧ _))
  | .enqueue _ _ => inferInstanceAs (Decidable (_ ∧ _))
  | .refuse _ _ _ => inferInstanceAs (Decidable (_ ∧ _))
  | .discard _ _ => inferInstanceAs (Decidable (_ ∧ _))
  | .dropRequest _ => inferInstanceAs (Decidable (_ ∈ _))
  | .deliver _ _ => .isTrue trivial
  | .exitEarly _ _ _ _ => inferInstanceAs (Decidable (_ ∧ _))
  | .loop _ _ => inferInstanceAs (Decidable (_ ∧ _))
  | .store _ _ => inferInstanceAs (Decidable (_ ∧ _))
  | .complete _ _ _ _ => inferInstanceAs (Decidable (_ ∧ _))
  | .fail _ _ _ => inferInstanceAs (Decidable (_ ∧ _))
  | .die _ _ => inferInstanceAs (Decidable (_ ∈ _))
  | .delete _ _ _ => .isTrue trivial
  | .wipe _ => inferInstanceAs (Decidable (_ ∧ _))
  | .sweep _ => .isTrue trivial
  | .advance _ _ => inferInstanceAs (Decidable (_ ∧ _))
  | .dropRemoval _ => inferInstanceAs (Decidable (_ ∈ _))
  | .softDelete _ _ _ _ => inferInstanceAs (Decidable (¬ _))

/-- Organisations with a primary key, no batches yet, no objects of batches, and nobody at
work. -/
structure Initial (w : World) : Prop where
  orgIds : (w.db.organizations.map (·.id)).Nodup
  batches : w.db.batches = []
  objects : ∀ key ∈ w.bucket.objects, ∀ r : BatchRef, ¬ r.Under key
  uploads : w.uploads = []
  works : w.works = []
  removals : w.removals = []
  submitted : w.submitted = []
  reported : w.reported = []
  purged : ∀ orgId ∈ w.purgedOrgs, ¬ w.db.ActiveOrg orgId

end World

def step (pageSize : ℕ) : World → Action → World → Prop :=
  StepOf (World.Allows pageSize) World.after

end Tozalist.Worker.BatchFiles
