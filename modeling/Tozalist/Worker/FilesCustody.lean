/-
# Tozalist.Worker.FilesCustody -- the rows of the batches run in the custody

`BatchFiles` has the tables of `Credits.Custody` and a bucket beside them: what is one step there
stops here between the bucket and the tables, and a sweep goes on to the organisations.  A run of
it is a run of the custody where it is `Within`: a job is handed out that was put to the queue, a
batch has rows and is charged for them at most (`inspectCsv_totalRows`, `Deduplicated.within`),
and what a sweep does to organisations and to old ledger entries leaves the tables as they are.

* `removalStep_moves` -- what a step of a wipe or a sweep leaves to the others;
* `Ready` -- ids are submitted once, and an organisation is active while a wipe has its lock;
* `files_runs` -- what these parties do, the custody can do.
-/
import Tozalist.Worker.CustodyRuns
import Tozalist.Worker.FileRemoval

namespace Tozalist.Worker.BatchFiles

set_option autoImplicit false

open Credits (Created Custody queueUnavailable)
open Credits.Settlement (Worker)
open Db
open Lifecycle (targetKeys)
open Shared (StorageCall deleteObjects listKeys orgObjectPrefix)
open Theory (Run Transition Txn)
open Theory.Txn (Delivery)
open World.Removal (locks)

/-! ## What the custody has of them -/

/-- The upload that waits for the queue. -/
def Upload.request? (p : Upload) : Option Created :=
  match p.stage with
  | .enqueueing rows => some ⟨p.ref.orgId, p.ref.batchId, rows⟩
  | _ => none

/-- The upload that was told the queue is unavailable. -/
def Upload.refusal? (p : Upload) : Option Created :=
  match p.stage with
  | .refused rows => some ⟨p.ref.orgId, p.ref.batchId, rows⟩
  | _ => none

def Work.worker (x : Work) : Worker where
  batch := x.batch
  failing := match x.stage with
    | .orgUnavailable => true
    | .failing => true
    | _ => false

/-- The page a sweep has listed and not deleted. -/
def Removal.page? : Removal → Option (List BatchPurgeTarget)
  | .sweeping _ _ (.deletingObjects page) => some page
  | .sweeping _ _ (.deletingRows page) => some page
  | _ => none

def World.manifest (jobs : List Uuid) (w : World) : Manifest where
  db := w.db
  ids := w.submitted
  requests := w.uploads.filterMap (·.request?)
  refusals := w.uploads.filterMap (·.refusal?)
  jobs := jobs
  crew := w.works.map (·.worker)
  pages := w.removals.filterMap (·.page?)

/-! ## What a removal leaves to the others -/

/-- The other parties are as they were. -/
structure Beside (w w' : World) : Prop where
  uploads : w'.uploads = w.uploads
  works : w'.works = w.works
  removals : w'.removals = w.removals
  submitted : w'.submitted = w.submitted
  drawn : w'.drawn = w.drawn

theorem Beside.refl (w : World) : Beside w w := ⟨rfl, rfl, rfl, rfl, rfl⟩

theorem onBucket_beside {α : Type} {w w' : World} {call : StorageCall α} {answer : Option α}
    (is : w.onBucket call = (answer, w')) : Beside w w' ∧ w'.db = w.db := by
  rw [World.onBucket] at is
  split at is <;> (cases is; exact ⟨⟨rfl, rfl, rfl, rfl, rfl⟩, rfl⟩)

theorem onDb_beside {α : Type} {w w' : World} {delivery : Delivery} {tx : Tx α}
    {answer : Option α} (is : w.onDb delivery tx = (answer, w')) :
    Beside w w' ∧ Txn.attempt delivery tx w.db = (answer, w'.db) := by
  cases is
  exact ⟨⟨rfl, rfl, rfl, rfl, rfl⟩, rfl⟩

/-- The sweep is past its batches. -/
def SweepStage.Late : SweepStage → Prop
  | .erasing _ _ => True
  | .ledger => True
  | .retiring => True
  | _ => False

def Removal.Late : Removal → Prop
  | .sweeping _ _ stage => stage.Late
  | _ => False

/-- What a step of a removal that is not late makes of the tables. -/
def Removal.tables (c : Circumstances) (db : Database) : Removal → Database
  | .wiped orgId => (Txn.attempt c.delivery (modify fun db => db.wiped orgId : Tx Unit) db).2
  | .sweeping _ _ (.deletingRows page) =>
      (Txn.attempt c.delivery (deleteBatchesByIds (page.map (·.id))) db).2
  | _ => db

/-- The page it may have then. -/
def Removal.next? (c : Circumstances) : Removal → Option (List BatchPurgeTarget)
  | .sweeping _ _ .listing => some c.page
  | .sweeping _ _ (.deletingObjects page) => some page
  | _ => none

/-- Another removal takes its place, if any, with no new lock. -/
structure Moves (w : World) (c : Circumstances) (r : Removal) (w' : World) : Prop where
  uploads : w'.uploads = w.uploads
  works : w'.works = w.works
  submitted : w'.submitted = w.submitted
  drawn : w'.drawn = w.drawn
  db : ¬ r.Late → w'.db = r.tables c w.db
  removals : ∃ next : Option Removal, w'.removals = next.toList ++ w.removals.erase r ∧
    ∀ q ∈ next, (∀ orgId, locks orgId q = true → locks orgId r = true) ∧
      ∀ page ∈ q.page?, r.next? c = some page

section Moves

variable {w w' : World} {c : Circumstances} {r : Removal}

/-- It has no lock. -/
theorem no_lock {locked : Uuid → Prop} : ∀ orgId, false = true → locked orgId := nofun

/-- It has no page. -/
theorem no_page {next : Option (List BatchPurgeTarget)} :
    ∀ page ∈ (none : Option (List BatchPurgeTarget)), next = some page := nofun

/-- It throws, or ends. -/
theorem Moves.ends (beside : Beside w w') (db : ¬ r.Late → w'.db = r.tables c w.db) :
    Moves w c r (w'.removalOn r none) where
  uploads := beside.uploads
  works := beside.works
  submitted := beside.submitted
  drawn := beside.drawn
  db := db
  removals := ⟨none, by rw [← beside.removals]; rfl, nofun⟩

/-- It goes on as another. -/
theorem Moves.goesOn {next : Removal} (beside : Beside w w')
    (db : ¬ r.Late → w'.db = r.tables c w.db)
    (locked : ∀ orgId, locks orgId next = true → locks orgId r = true)
    (paged : ∀ page ∈ next.page?, r.next? c = some page) :
    Moves w c r (w'.removalOn r (some next)) where
  uploads := beside.uploads
  works := beside.works
  submitted := beside.submitted
  drawn := beside.drawn
  db := db
  removals := by
    refine ⟨some next, by rw [← beside.removals]; rfl, fun q is => ?_⟩
    obtain rfl := Option.mem_some_iff.1 is
    exact ⟨locked, paged⟩

/-- A sweep goes on to another stage. -/
theorem Moves.sweeps {now : Date} {cleared more : List BatchRef} {stage next : SweepStage}
    (beside : Beside w w')
    (db : ¬ stage.Late → w'.db = (Removal.sweeping now cleared stage).tables c w.db)
    (paged : ∀ page ∈ (Removal.sweeping now (more ++ cleared) next).page?,
      (Removal.sweeping now cleared stage).next? c = some page) :
    Moves w c (.sweeping now cleared stage) (w'.sweepOn now cleared stage (some (more, next))) :=
  .goesOn (r := .sweeping now cleared stage) beside db no_lock paged

/-- **What a step of a sweep leaves to the others.** -/
theorem sweepStep_moves (w : World) (c : Circumstances) (now : Date) (cleared : List BatchRef)
    (stage : SweepStage) :
    Moves w c (.sweeping now cleared stage) (w.sweepStep c now cleared stage) := by
  have throws : ∀ {w'}, Beside w w' →
      (¬ stage.Late → w'.db = (Removal.sweeping now cleared stage).tables c w.db) →
      Moves w c (.sweeping now cleared stage) (w'.sweepOn now cleared stage none) :=
    fun beside db => .ends beside db
  cases stage with
  | listing =>
      simp only [World.sweepStep]
      split
      · exact .sweeps (.refl w) (fun _ => rfl) no_page
      · exact .sweeps (.refl w) (fun _ => rfl) fun _ is => is
  | deletingObjects page =>
      rcases is : w.onBucket (deleteObjects c.replies (page.flatMap targetKeys)) with ⟨answer, w'⟩
      obtain ⟨beside, db⟩ := onBucket_beside is
      simp only [World.sweepStep, is]
      cases answer with
      | some _ => exact .sweeps beside (fun _ => db) fun _ is => is
      | none => exact throws beside fun _ => db
  | deletingRows page =>
      rcases is : w.onDb c.delivery (deleteBatchesByIds (page.map (·.id))) with ⟨answer, w'⟩
      obtain ⟨beside, db⟩ := onDb_beside is
      have swept : w'.db = (Removal.sweeping now cleared (.deletingRows page)).tables c w.db := by
        rw [Removal.tables, db]
      simp only [World.sweepStep, is]
      cases answer with
      | some _ => exact .sweeps beside (fun _ => swept) no_page
      | none => exact throws beside fun _ => swept
  | purging due =>
      cases due with
      | nil => exact .sweeps (.refl w) (fun _ => rfl) no_page
      | cons orgId due =>
          rcases is : w.onBucket (listKeys c.replies (orgObjectPrefix orgId)) with ⟨answer, w'⟩
          obtain ⟨beside, db⟩ := onBucket_beside is
          simp only [World.sweepStep, is]
          cases answer with
          | some _ => exact .sweeps beside (fun _ => db) no_page
          | none => exact throws beside fun _ => db
  | emptying orgId keys due =>
      rcases is : w.onBucket (deleteListed c.replies keys) with ⟨answer, w'⟩
      obtain ⟨beside, db⟩ := onBucket_beside is
      simp only [World.sweepStep, is]
      cases answer with
      | some _ => exact .sweeps beside (fun _ => db) no_page
      | none => exact throws beside fun _ => db
  | confirming orgId due =>
      rcases is : w.onBucket (listKeys c.replies (orgObjectPrefix orgId)) with ⟨answer, w'⟩
      obtain ⟨beside, db⟩ := onBucket_beside is
      simp only [World.sweepStep, is]
      rcases answer with _ | ⟨_ | _⟩
      · exact throws beside fun _ => db
      · exact .sweeps beside (fun _ => db) no_page
      · exact throws beside fun _ => db
  | erasing orgId due =>
      simp only [World.sweepStep]
      split
      · exact .sweeps ⟨rfl, rfl, rfl, rfl, rfl⟩ (fun early => absurd trivial early) no_page
      · exact throws ⟨rfl, rfl, rfl, rfl, rfl⟩ fun early => absurd trivial early
      · exact throws (.refl w) fun early => absurd trivial early
  | exports =>
      rcases is : w.onBucket (deleteStaleExports c.replies now) with ⟨answer, w'⟩
      obtain ⟨beside, db⟩ := onBucket_beside is
      simp only [World.sweepStep, is]
      cases answer with
      | some _ => exact .sweeps beside (fun _ => db) no_page
      | none => exact throws beside fun _ => db
  | ledger =>
      rcases is : w.onDb c.delivery (purgeExpiredLedgerEntries c.dbNow now) with ⟨answer, w'⟩
      obtain ⟨beside, -⟩ := onDb_beside is
      simp only [World.sweepStep, is]
      cases answer with
      | some _ => exact .sweeps beside (fun early => absurd trivial early) no_page
      | none => exact throws beside fun early => absurd trivial early
  | retiring =>
      rcases is : w.onDb c.delivery (deleteRetiredOrganizations w.purgedOrgs) with ⟨answer, w'⟩
      obtain ⟨beside, -⟩ := onDb_beside is
      simp only [World.sweepStep, is]
      cases answer with
      | some _ =>
          exact .goesOn (r := .sweeping now cleared .retiring) beside
            (fun early => absurd trivial early) no_lock no_page
      | none => exact throws beside fun early => absurd trivial early

/-- **What a step of a removal leaves to the others.** -/
theorem removalStep_moves (w : World) (c : Circumstances) (r : Removal) :
    Moves w c r (w.removalStep c r) := by
  cases r with
  | deleting ref inputKey resultKey =>
      rcases is : w.onBucket (deleteObjects c.replies [inputKey, resultKey]) with ⟨answer, w'⟩
      obtain ⟨beside, db⟩ := onBucket_beside is
      simp only [World.removalStep, is]
      exact .goesOn (r := .deleting ref inputKey resultKey) beside (fun _ => db) no_lock no_page
  | wiping orgId keys =>
      rcases is : w.onBucket (deleteObjects c.replies keys) with ⟨answer, w'⟩
      obtain ⟨beside, db⟩ := onBucket_beside is
      simp only [World.removalStep, is]
      cases answer with
      | some _ =>
          exact .goesOn (r := .wiping orgId keys) beside (fun _ => db) (fun _ same => same) no_page
      | none => exact .ends (r := .wiping orgId keys) beside fun _ => db
  | wiped orgId =>
      rcases is : w.onDb c.delivery (modify fun db => db.wiped orgId : Tx Unit) with ⟨answer, w'⟩
      obtain ⟨beside, db⟩ := onDb_beside is
      have gone : w'.db = (Removal.wiped orgId).tables c w.db := by
        rw [Removal.tables, db]
      simp only [World.removalStep, is]
      cases answer with
      | some _ => exact .goesOn beside (fun _ => gone) no_lock no_page
      | none => exact .ends beside fun _ => gone
  | sweeping now cleared stage => exact sweepStep_moves w c now cleared stage
  | recording refs =>
      simp only [World.removalStep]
      split
      · have ends_ : Moves w c (.recording refs) (w.removalOn (.recording refs) none) :=
          .ends (.refl w) fun _ => rfl
        exact { ends_ with }
      · exact .ends (.refl w) fun _ => rfl

end Moves

/-! ## Ready -/

/-- An id is submitted once, and an organisation is active while a wipe has its lock. -/
structure Ready (w : World) : Prop extends Requested w where
  active : ∀ orgId, w.Locked orgId → w.db.ActiveOrg orgId

theorem World.Initial.ready {w : World} (initial : w.Initial) : Ready w where
  toRequested := initial.orderly.toRequested
  active orgId locked := by
    obtain ⟨r, member, -⟩ := locked
    rw [initial.removals] at member
    cases member

/-- What is committed leaves the organisations as they are. -/
theorem attempt_organizations {α : Type} {tx : Tx α} {db : Database} (delivery : Delivery)
    (same : ∀ a db', Txn.Commits tx db a db' → db'.organizations = db.organizations) :
    (Txn.attempt delivery tx db).2.organizations = db.organizations := by
  rcases Txn.attempt_store delivery tx db with eq | ⟨-, a, commits⟩
  · rw [eq]
  · exact same a _ commits

theorem create_organizations {input : CreateBatchInput} {draw : Draw} {now : Date}
    {db db' : Database} {result : CreateBatchResult}
    (commits : Txn.Commits (createBatchWithReservation input draw now) db result db') :
    db'.organizations = db.organizations := by
  rcases createBatchWithReservation_commits commits with ⟨-, rfl⟩ | ⟨_, _, _, _, _, _, _, _, _, rfl⟩
  · rfl
  · rfl

theorem claim_organizations {id : Uuid} {db db' : Database} {result : ClaimBatchResult}
    (commits : Txn.Commits (claimBatchForProcessing id) db result db') :
    db'.organizations = db.organizations := by
  obtain ⟨_, ⟨commits', -, -⟩ | ⟨_, _, _, _, _, commits'⟩⟩ := claimBatchForProcessing_commits id db
  · obtain ⟨-, rfl⟩ := commits.unique commits'
    rfl
  · obtain ⟨-, rfl⟩ := commits.unique commits'
    rfl

theorem fail_organizations {input : FailBatchInput} {draw : Draw} {db db' : Database} {u : Unit}
    (commits : Txn.Commits (failBatch input draw) db u db') :
    db'.organizations = db.organizations := by
  rcases failBatch_commits.1 commits with ⟨-, rfl⟩ | ⟨-, -, ⟨-, rfl⟩ | ⟨-, rfl⟩⟩ <;> rfl

theorem complete_organizations {input : CompleteBatchInput} {draw : Draw} {now : Date}
    {db db' : Database} {u : Unit}
    (commits : Txn.Commits (completeBatch input draw now) db u db') :
    db'.organizations = db.organizations := by
  rcases completeBatch_commits.1 commits with ⟨-, rfl⟩ | ⟨-, -, -, rfl⟩ <;> rfl

theorem delete_organizations {id orgId : Uuid} {draw : Draw} {db db' : Database}
    {result : DeleteBatchResult}
    (commits : Txn.Commits (deleteBatchForOrg id orgId draw) db result db') :
    db'.organizations = db.organizations := by
  rcases deleteBatchForOrg_commits commits with rfl | ⟨_, _, _, _, ⟨-, rfl⟩ | ⟨-, -, ⟨-, rfl⟩ |
    ⟨-, rfl⟩⟩⟩ <;> rfl

/-- A deletion ends the standing of its own organisation only. -/
theorem softDelete_active {orgId user other : Uuid} {draw : Draw} {now : Date} {db db' : Database}
    {result : Bool}
    (commits : Txn.Commits (softDeleteOrganization orgId user draw now) db result db')
    (apart : other ≠ orgId) (active : db.ActiveOrg other) : db'.ActiveOrg other := by
  simp only [softDeleteOrganization, Txn.commits_bind, Txn.commits_get, Txn.commits_ite,
    Txn.commits_pure, Txn.commits_modify, recordAuditEvent] at commits
  obtain ⟨_, _, ⟨rfl, rfl⟩, ⟨-, -, rfl⟩ | ⟨-, _, _, rfl, _, _, rfl, -, rfl⟩⟩ := commits
  · exact active
  · obtain ⟨o, member, rfl, stands⟩ := active
    have same : o.softDelete orgId now = o := if_neg fun both => apart both.1
    exact ⟨o, List.mem_map.2 ⟨o, member, same⟩, rfl, stands⟩

namespace Ready

variable {w w' : World}

/-- No lock is new, and the organisations stay. -/
theorem of (ready : Ready w) (requested : Requested w')
    (locked : ∀ orgId, w'.Locked orgId → w.Locked orgId)
    (organizations : w'.db.organizations = w.db.organizations) : Ready w' where
  toRequested := requested
  active orgId lock := by
    obtain ⟨o, inside, is⟩ := ready.active orgId (locked orgId lock)
    exact ⟨o, organizations ▸ inside, is⟩

/-- The removals stay as well. -/
theorem goesOn (ready : Ready w) (requested : Requested w') (removals : w'.removals = w.removals)
    (organizations : w'.db.organizations = w.db.organizations) : Ready w' :=
  ready.of requested (fun _ ⟨r, member, lock⟩ => ⟨r, removals ▸ member, lock⟩) organizations

/-- A request or an execution calls the database. -/
theorem onDb {α : Type} (ready : Ready w) {delivery : Delivery} {tx : Tx α}
    (same : ∀ a db', Txn.Commits tx w.db a db' → db'.organizations = w.db.organizations) :
    Ready (w.onDb delivery tx).2 :=
  ready.goesOn (ready.toRequested.congr rfl rfl rfl) rfl (attempt_organizations delivery same)

theorem uploadOn (ready : Ready w) {p : Upload} (member : p ∈ w.uploads)
    {next : Option UploadStage} (later : ∀ stage ∈ next, ¬ Upload.Waiting ⟨p.ref, stage⟩) :
    Ready (w.uploadOn p next) :=
  ready.goesOn (ready.toRequested.uploadOn member later) rfl rfl

theorem uploadEnds (ready : Ready w) {p : Upload} (member : p ∈ w.uploads) :
    Ready (w.uploadOn p none) :=
  ready.uploadOn member nofun

theorem uploadRefused (ready : Ready w) {p : Upload} (member : p ∈ w.uploads) (rows : ℕ) :
    Ready (w.uploadOn p (some (.refused rows))) :=
  ready.uploadOn member (Upload.not_waiting nofun)

theorem uploadDiscards (ready : Ready w) {p : Upload} (member : p ∈ w.uploads) :
    Ready (w.uploadOn p (some .discarding)) :=
  ready.uploadOn member (Upload.not_waiting nofun)

theorem workOn (ready : Ready w) (x : Work) (next : Option WorkStage) : Ready (w.workOn x next) :=
  ready.goesOn (ready.toRequested.congr rfl rfl rfl) rfl rfl

theorem put (ready : Ready w) (key : String) (written : Bool) : Ready (w.put key written) := by
  cases written with
  | false => exact ready
  | true => exact ready.goesOn (ready.toRequested.congr rfl rfl rfl) rfl rfl

/-- A removal begins, without a lock. -/
theorem begins (ready : Ready w) {r : Removal} (free : ∀ orgId, locks orgId r = false) :
    Ready { w with removals := r :: w.removals } := by
  refine ready.of (ready.toRequested.congr rfl rfl rfl) (fun orgId lock => ?_) rfl
  rw [World.locked_iff, List.any_cons, free, Bool.false_or] at lock
  exact (w.locked_iff orgId).2 lock

/-- A removal goes on where it leaves the organisations. -/
theorem advance (ready : Ready w) {r : Removal} {c : Circumstances} (member : r ∈ w.removals)
    (moves : Moves w c r w') (organizations : w'.db.organizations = w.db.organizations) :
    Ready w' := by
  obtain ⟨next, removals, known⟩ := moves.removals
  refine ready.of (ready.toRequested.congr moves.uploads moves.submitted moves.drawn)
    (fun orgId lock => ?_) organizations
  rw [World.locked_iff, removals, List.any_eq_true] at lock
  obtain ⟨q, inside, lock⟩ := lock
  rw [World.locked_iff, List.any_eq_true]
  rcases List.mem_append.1 inside with new | old
  · exact ⟨r, member, (known q (Option.mem_toList.1 new)).1 orgId lock⟩
  · exact ⟨q, List.mem_of_mem_erase old, lock⟩

end Ready

/-! ## Within the custody -/

/-- A batch has rows, and its loop charges them at most; the job was put to the queue; and a sweep
past its batches leaves the tables as they are. -/
def World.Within (w : World) (jobs : List Uuid) : Action → Prop
  | .create p _ _ _ _ => ∀ column header rows, p.stage = .inspected column header rows → 1 ≤ rows
  | .deliver batchId _ => batchId ∈ jobs
  | .complete x _ _ _ => ∀ days processed stats, x.stage = .completing days processed stats →
      stats.charged ≤ x.batch.totalRows
  | .advance r c => r.Late → (w.removalStep c r).db = w.db
  | _ => True

/-- The job that a step puts to the queue. -/
def Action.queues : Action → Option Uuid
  | .enqueue p _ => some p.ref.batchId
  | _ => none

/-- A step of a removal keeps the organisations, where it is not late. -/
theorem tables_organizations (c : Circumstances) (db : Database) (r : Removal) :
    (r.tables c db).organizations = db.organizations := by
  unfold Removal.tables
  split
  · refine attempt_organizations _ fun _ _ commits => ?_
    rw [(Txn.commits_modify _ _ _ _).1 commits]
    rfl
  · refine attempt_organizations _ fun _ _ commits => ?_
    simp only [deleteBatchesByIds, Txn.commits_bind, Txn.commits_get, Txn.commits_modify,
      Txn.commits_pure] at commits
    obtain ⟨_, _, ⟨rfl, rfl⟩, _, _, rfl, -, rfl⟩ := commits
    rfl
  · rfl

section Steps

variable {pageSize : ℕ} {jobs : List Uuid} {w : World}

theorem Ready.after (ready : Ready w) {a : Action} (allowed : World.Allows pageSize w a)
    (within : w.Within jobs a) : Ready (w.after a) := by
  cases a with
  | upload b outcome =>
      have drawn := ready.toRequested.upload allowed outcome.stage
      rw [World.after]
      cases outcome.written with
      | false => exact ready.goesOn (drawn.congr rfl rfl rfl) rfl rfl
      | true => exact ready.goesOn (drawn.congr rfl rfl rfl) rfl rfl
  | create p filename draw now delivery =>
      obtain ⟨member, -, column, header, rows, stage⟩ := allowed
      simp only [World.after, stage]
      rw [World.created_eq]
      refine ready.goesOn ?_ rfl
        (attempt_organizations delivery fun _ _ => create_organizations)
      exact (ready.toRequested.submit member UploadStage.told_later).congr rfl rfl rfl
  | enqueue p accepted =>
      obtain ⟨member, rows, stage⟩ := allowed
      simp only [World.after, stage]
      cases accepted with
      | true => exact ready.uploadEnds member
      | false => exact ready.uploadRefused member rows
  | refuse p draw delivery =>
      obtain ⟨member, rows, stage⟩ := allowed
      have failed : Ready (w.onDb delivery (failBatch (queueUnavailable
          ⟨p.ref.orgId, p.ref.batchId, rows⟩) draw)).2 :=
        ready.onDb fun _ _ => fail_organizations
      rcases is : w.onDb delivery (failBatch (queueUnavailable
        ⟨p.ref.orgId, p.ref.batchId, rows⟩) draw) with ⟨answer, w'⟩
      rw [is] at failed
      have there : p ∈ w'.uploads := (onDb_beside is).1.uploads ▸ member
      simp only [World.after, stage, is]
      cases answer with
      | some _ => exact failed.uploadDiscards there
      | none => exact failed.uploadEnds there
  | discard p replies =>
      rcases is : w.onBucket (deleteObjects replies [p.ref.inputKey]) with ⟨answer, w'⟩
      obtain ⟨beside, db⟩ := onBucket_beside is
      have ready' := ready.goesOn
        (ready.toRequested.congr beside.uploads beside.submitted beside.drawn) beside.removals
        (congrArg _ db)
      simp only [World.after, is]
      exact ready'.uploadEnds (beside.uploads ▸ allowed.1)
  | dropRequest p => exact ready.uploadEnds allowed
  | deliver batchId delivery =>
      have claimed : Ready (w.onDb delivery (claimBatchForProcessing batchId)).2 :=
        ready.onDb fun _ _ => claim_organizations
      simp only [World.after]
      rcases (w.onDb delivery (claimBatchForProcessing batchId)).1 with _ | _ | _ | _ <;>
        exact claimed.goesOn (claimed.toRequested.congr rfl rfl rfl) rfl rfl
  | exitEarly x error draw delivery =>
      exact (ready.onDb fun _ _ => fail_organizations).workOn x none
  | loop x result =>
      simp only [World.after]
      split
      · exact ready.workOn x _
      · exact ready.workOn x _
      · exact ready
  | store x outcome =>
      simp only [World.after]
      split
      · exact (ready.put _ _).workOn x _
      · exact (ready.put _ _).workOn x _
      · exact ready
  | complete x draw now delivery =>
      obtain ⟨member, days, processed, stats, stage⟩ := allowed
      have completed : Ready (w.onDb delivery
          (completeBatch (loopCompletion x.batch days processed stats) draw now)).2 :=
        ready.onDb fun _ _ => complete_organizations
      rcases is : w.onDb delivery
        (completeBatch (loopCompletion x.batch days processed stats) draw now) with ⟨answer, w'⟩
      rw [is] at completed
      simp only [World.after, stage, is]
      cases answer with
      | some _ => exact completed.workOn x none
      | none => exact completed.workOn x _
  | fail x draw delivery => exact (ready.onDb fun _ _ => fail_organizations).workOn x none
  | die x written =>
      simp only [World.after]
      split
      · exact (ready.put _ _).workOn x none
      · exact ready.workOn x none
  | delete b draw delivery =>
      have deleted : Ready (w.onDb delivery (deleteBatchForOrg b.batchId b.orgId draw)).2 :=
        ready.onDb fun _ _ => delete_organizations
      simp only [World.after]
      rcases (w.onDb delivery (deleteBatchForOrg b.batchId b.orgId draw)).1 with _ | _ | _ | _
      · exact deleted
      · exact deleted.begins fun _ => rfl
      · exact deleted
      · exact deleted
  | wipe orgId =>
      refine ⟨ready.toRequested.congr rfl rfl rfl, fun other lock => ?_⟩
      rw [World.locked_iff, List.any_eq_true] at lock
      obtain ⟨r, inside, lock⟩ := lock
      rcases List.mem_cons.1 inside with rfl | old
      · obtain rfl : orgId = other := of_decide_eq_true lock
        exact allowed.1
      · exact ready.active other ((w.locked_iff other).2 (List.any_eq_true.2 ⟨r, old, lock⟩))
  | sweep now => exact ready.begins fun _ => rfl
  | advance r c =>
      refine ready.advance allowed.1 (removalStep_moves w c r) ?_
      show (w.removalStep c r).db.organizations = w.db.organizations
      by_cases late : r.Late
      · rw [within late]
      · rw [(removalStep_moves w c r).db late]
        exact tables_organizations c w.db r
  | dropRemoval r =>
      refine ready.of (ready.toRequested.congr rfl rfl rfl) ?_ rfl
      rintro orgId ⟨q, inside, lock⟩
      exact ⟨q, List.mem_of_mem_erase inside, lock⟩
  | softDelete orgId user draw now =>
      refine ⟨ready.toRequested.congr rfl rfl rfl, fun other lock => ?_⟩
      have apart : other ≠ orgId := by
        rintro rfl
        exact allowed lock
      have active := ready.active other lock
      rcases Txn.attempt_store .answered (softDeleteOrganization orgId user draw now) w.db with
        eq | ⟨-, result, commits⟩
      · show Database.ActiveOrg (Txn.attempt _ _ _).2 other
        rw [eq]
        exact active
      · exact softDelete_active commits apart active

variable {sha256Hex : JsString → String} {s : Custody} {p : Upload} {x : Work} {db : Database}

theorem manifest_beside {w' : World} (beside : Beside w w') (db : w'.db = w.db) :
    w'.manifest jobs = w.manifest jobs := by
  obtain ⟨uploads, works, removals, submitted, -⟩ := beside
  simp only [World.manifest, uploads, works, removals, submitted, db]

/-- What the custody has of a request, and of the others. -/
theorem carried_request (carried : Carried (w.manifest jobs) s) (member : p ∈ w.uploads) :
    Carried { w.manifest jobs with
      requests := p.request?.toList ++ (w.uploads.erase p).filterMap (·.request?)
      refusals := p.refusal?.toList ++ (w.uploads.erase p).filterMap (·.refusal?) } s :=
  carried.fewer (crew_perm Upload.request? member).symm.subperm
    (crew_perm Upload.refusal? member).symm.subperm (.refl _)

/-- A request goes on, or ends. -/
theorem leads_uploadOn {next : Option UploadStage} {ids : List Uuid}
    (led : Leads sha256Hex s (Carried { w.manifest jobs with
      db := db
      ids := ids
      requests := (next.bind fun stage => Upload.request? ⟨p.ref, stage⟩).toList ++
        (w.uploads.erase p).filterMap (·.request?)
      refusals := (next.bind fun stage => Upload.refusal? ⟨p.ref, stage⟩).toList ++
        (w.uploads.erase p).filterMap (·.refusal?) })) :
    Leads sha256Hex s
      (Carried (World.manifest jobs { w.uploadOn p next with db := db, submitted := ids })) := by
  cases next with
  | none => exact led
  | some stage =>
      rw [World.manifest, World.uploadOn]
      simp only [Option.map_some, Option.toList_some, List.singleton_append,
        filterMap_cons_toList]
      exact led

/-- A request that does not wait for the queue ends. -/
theorem leads_ended (carried : Carried (w.manifest jobs) s) (member : p ∈ w.uploads) :
    Leads sha256Hex s (Carried ((w.uploadOn p none).manifest jobs)) :=
  .here ((carried_request carried member).fewer (List.sublist_append_right _ _).subperm
    (List.sublist_append_right _ _).subperm (.refl _))

theorem crew_workOn (member : x ∈ w.works) :
    (w.works.map (·.worker)).Perm (x.worker :: (w.works.erase x).map (·.worker)) :=
  (List.perm_cons_erase member).map _

/-- A removal goes on, with the page it may have. -/
theorem leads_moves {w' : World} {r : Removal} {c : Circumstances} (moves : Moves w c r w')
    (led : Leads sha256Hex s (Carried { w.manifest jobs with
      db := w'.db
      pages := (r.next? c).toList ++ (w.removals.erase r).filterMap (·.page?) })) :
    Leads sha256Hex s (Carried (w'.manifest jobs)) := by
  obtain ⟨next, removals, known⟩ := moves.removals
  have listed : (w'.removals.filterMap (·.page?)).Subperm
      ((r.next? c).toList ++ (w.removals.erase r).filterMap (·.page?)) := by
    rw [removals]
    cases next with
    | none => exact (List.sublist_append_right _ _).subperm
    | some q =>
        rw [Option.toList_some, List.singleton_append, filterMap_cons_toList]
        cases page : q.page? with
        | none => exact (List.sublist_append_right _ _).subperm
        | some held => rw [(known q rfl).2 held page]
  refine led.onward fun s' carried' => .here ?_
  rw [World.manifest, moves.uploads, moves.works, moves.submitted]
  exact carried'.fewer (.refl _) (.refl _) listed

/-- **A step of a removal** is one of the custody, or none. -/
theorem leads_removalStep (ready : Ready w) (carried : Carried (w.manifest jobs) s) {r : Removal}
    {c : Circumstances} (member : r ∈ w.removals) (page : w.PageOf pageSize c r)
    (late : r.Late → (w.removalStep c r).db = w.db) :
    Leads sha256Hex s (Carried ((w.removalStep c r).manifest jobs)) := by
  have moves := removalStep_moves w c r
  have has := crew_perm Removal.page? member
  -- the tables stay, and the page if there is one
  have idle : (w.removalStep c r).db = w.db → (r.next? c = none ∨ r.next? c = r.page?) →
      Leads sha256Hex s (Carried ((w.removalStep c r).manifest jobs)) := by
    intro db next
    apply leads_moves moves
    rw [db]
    refine .here (carried.fewer (.refl _) (.refl _) (List.Subperm.trans ?_ has.symm.subperm))
    rcases next with none_ | same
    · rw [none_]
      exact (List.sublist_append_right _ _).subperm
    · rw [same]
  by_cases past : r.Late
  · refine idle (late past) (.inl ?_)
    cases r with
    | sweeping now cleared stage => cases stage <;> first | rfl | exact past.elim
    | _ => rfl
  have db := moves.db past
  cases r with
  | deleting ref inputKey resultKey => exact idle db (.inl rfl)
  | wiping orgId keys => exact idle db (.inl rfl)
  | wiped orgId =>
      apply leads_moves moves
      rw [db]
      have active : w.db.ActiveOrg orgId := ready.active orgId ⟨_, member, .inl rfl⟩
      exact (carried.fewer (.refl _) (.refl _) has.symm.subperm).wipe active c.delivery
  | recording refs => exact idle db (.inl rfl)
  | sweeping now cleared stage =>
      cases stage with
      | listing =>
          apply leads_moves moves
          rw [db]
          exact (carried.fewer (.refl _) (.refl _) has.symm.subperm).sweepList page
      | deletingRows page =>
          apply leads_moves moves
          rw [db]
          exact carried.sweepDelete has c.delivery
      | deletingObjects page => exact idle db (.inr rfl)
      | purging due => exact idle db (.inl rfl)
      | emptying orgId keys due => exact idle db (.inl rfl)
      | confirming orgId due => exact idle db (.inl rfl)
      | exports => exact idle db (.inl rfl)
      | erasing orgId due => exact absurd trivial past
      | ledger => exact absurd trivial past
      | retiring => exact absurd trivial past

/-- **A step of these parties** is one or two of the custody, or none. -/
theorem files_step (ready : Ready w) (carried : Carried (w.manifest jobs) s) {a : Action}
    (allowed : World.Allows pageSize w a) (within : w.Within jobs a) :
    Leads sha256Hex s (Carried ((w.after a).manifest (a.queues.toList ++ jobs))) := by
  cases a with
  | upload b outcome =>
      have quiet : Upload.request? ⟨b, outcome.stage⟩ = none ∧
          Upload.refusal? ⟨b, outcome.stage⟩ = none := by
        rcases outcome with ⟨_ | _, _ | _⟩ | _ <;> exact ⟨rfl, rfl⟩
      have same : (w.after (.upload b outcome)).manifest jobs = w.manifest jobs := by
        simp only [World.after, World.manifest, List.filterMap_cons_none quiet.1,
          List.filterMap_cons_none quiet.2]
        cases outcome.written <;> rfl
      exact .here (same ▸ carried)
  | create p filename draw now delivery =>
      obtain ⟨member, -, column, header, rows, stage⟩ := allowed
      have fresh := (ready.uploads p member).2 ⟨column, header, rows, stage⟩
      have carried' := carried_request carried member
      rw [show p.request? = none by rw [Upload.request?, stage],
        show p.refusal? = none by rw [Upload.refusal?, stage]] at carried'
      rcases is : Txn.attempt delivery (createBatchWithReservation
        (creationInput p.ref filename column header rows) draw now) w.db with ⟨answer, db⟩
      have led : Leads sha256Hex s _ :=
        carried'.upload (within column header rows stage) fresh is
      simp only [World.after, stage, World.onDb, is]
      rw [World.created_eq]
      apply leads_uploadOn (w := w)
      rcases answer with _ | _ | _ | _ <;> exact led
  | enqueue p accepted =>
      obtain ⟨member, rows, stage⟩ := allowed
      have carried' := carried_request carried member
      rw [show p.request? = some ⟨p.ref.orgId, p.ref.batchId, rows⟩ by rw [Upload.request?, stage],
        show p.refusal? = none by rw [Upload.refusal?, stage]] at carried'
      have honest : accepted = true → true = true := fun _ => rfl
      have led : Leads sha256Hex s _ := carried'.enqueue (.refl _) honest
      simp only [World.after, stage]
      apply leads_uploadOn (w := w)
      cases accepted <;> exact led
  | refuse p draw delivery =>
      obtain ⟨member, rows, stage⟩ := allowed
      have carried' := carried_request carried member
      rw [show p.request? = none by rw [Upload.request?, stage],
        show p.refusal? = some ⟨p.ref.orgId, p.ref.batchId, rows⟩ by
          rw [Upload.refusal?, stage]] at carried'
      have led : Leads sha256Hex s _ := carried'.refuse (.refl _) draw delivery
      simp only [World.after, stage, World.onDb]
      cases (Txn.attempt delivery (failBatch (queueUnavailable
          ⟨p.ref.orgId, p.ref.batchId, rows⟩) draw) w.db).1 with
      | some _ =>
          apply leads_uploadOn (w := w)
          exact led
      | none =>
          apply leads_uploadOn (w := w)
          exact led
  | discard p replies =>
      rcases is : w.onBucket (deleteObjects replies [p.ref.inputKey]) with ⟨answer, w'⟩
      obtain ⟨beside, db⟩ := onBucket_beside is
      simp only [World.after, is]
      exact leads_ended ((manifest_beside beside db).symm ▸ carried)
        (beside.uploads.symm ▸ allowed.1)
  | dropRequest p => exact leads_ended carried allowed
  | deliver batchId delivery =>
      rcases is : Txn.attempt delivery (claimBatchForProcessing batchId) w.db with ⟨answer, db⟩
      have led : Leads sha256Hex s _ := carried.deliver within is
      simp only [World.after, World.onDb, is]
      rcases answer with _ | _ | _ | _ <;> exact led
  | exitEarly x error draw delivery =>
      obtain ⟨member, early⟩ := allowed
      have has := crew_workOn member
      cases stage : x.stage with
      | orgUnavailable =>
          rw [show x.worker = ⟨x.batch, true⟩ by rw [Work.worker, stage]] at has
          exact carried.fail has error draw delivery
      | claimed days =>
          -- the layout is looked at before anything is done
          rw [show x.worker = ⟨x.batch, false⟩ by rw [Work.worker, stage]] at has
          exact (carried.turn has).onward fun s' carried' =>
            carried'.fail (.refl _) error draw delivery
      | storing days processed stats => simp [Work.earlyError, stage] at early
      | completing days processed stats => simp [Work.earlyError, stage] at early
      | failing => simp [Work.earlyError, stage] at early
  | loop x result =>
      obtain ⟨member, -, days, stage⟩ := allowed
      have has := crew_workOn member
      rw [show x.worker = ⟨x.batch, false⟩ by rw [Work.worker, stage]] at has
      simp only [World.after, stage]
      cases result with
      | through processed stats => exact .here (carried.perm has)
      | thrown counts => exact carried.turn has
  | store x outcome =>
      obtain ⟨member, days, processed, stats, stage⟩ := allowed
      have has := crew_workOn member
      rw [show x.worker = ⟨x.batch, false⟩ by rw [Work.worker, stage]] at has
      simp only [World.after, stage]
      rcases outcome with _ | ⟨_ | _⟩
      · exact .here (carried.perm has)
      · exact carried.turn has
      · exact carried.turn has
  | complete x draw now delivery =>
      obtain ⟨member, days, processed, stats, stage⟩ := allowed
      have has := crew_workOn member
      rw [show x.worker = ⟨x.batch, false⟩ by rw [Work.worker, stage]] at has
      rcases is : Txn.attempt delivery
        (completeBatch (loopCompletion x.batch days processed stats) draw now) w.db with
        ⟨answer, db⟩
      have led : Leads sha256Hex s _ :=
        carried.complete has rfl (within days processed stats stage) is
      simp only [World.after, stage, World.onDb, is]
      cases answer <;> exact led
  | fail x draw delivery =>
      obtain ⟨member, stage⟩ := allowed
      have has := crew_workOn member
      rw [show x.worker = ⟨x.batch, true⟩ by rw [Work.worker, stage]] at has
      exact carried.fail has "processing_failed" draw delivery
  | die x written =>
      have died : Leads sha256Hex s _ := carried.die (crew_workOn allowed)
      simp only [World.after]
      split
      · cases written <;> exact died
      · exact died
  | delete b draw delivery =>
      have led : Leads sha256Hex s _ := carried.delete b.batchId b.orgId draw delivery
      simp only [World.after, World.onDb]
      rcases (Txn.attempt delivery (deleteBatchForOrg b.batchId b.orgId draw) w.db).1 with
        _ | _ | _ | _ <;> exact led
  | wipe orgId => exact .here carried
  | sweep now => exact .here carried
  | advance r c => exact leads_removalStep ready carried allowed.1 allowed.2 within
  | dropRemoval r =>
      refine .here (carried.fewer (.refl _) (.refl _) ?_)
      exact (List.erase_sublist.filterMap _).subperm
  | softDelete orgId user draw now =>
      exact carried.changed (a := .softDelete orgId user draw now) trivial
        (fun db => (Txn.transaction (softDeleteOrganization orgId user draw now) db).2) rfl

/-- The jobs that were put to the queue. -/
def queued (tr : List (Transition World Action)) : List Uuid :=
  tr.filterMap (·.action.queues)

theorem queued_snoc (tr : List (Transition World Action)) (e : Transition World Action) :
    queued (tr ++ [e]) = queued tr ++ e.action.queues.toList := by
  rw [queued, List.filterMap_append, filterMap_cons_toList, List.filterMap_nil, List.append_nil,
    queued]

/-- What these parties do to the tables, the custody does, in a run that stays within it. -/
theorem files_lead {w' : World} {tr : List (Transition World Action)} (ready : Ready w)
    (carried : Carried (w.manifest []) s) (run : Run (step pageSize) w tr w')
    (within : ∀ first e rest, tr = first ++ e :: rest →
      e.source.Within (queued first) e.action) :
    Ready w' ∧ Leads sha256Hex s (Carried (w'.manifest (queued tr))) := by
  induction run with
  | refl => exact ⟨ready, .here carried⟩
  | @next t _ tr a _ last ih =>
      obtain ⟨allowed, rfl⟩ := last
      obtain ⟨ready', led⟩ := ih fun first e rest cut =>
        within first e (rest ++ [⟨t, a, t.after a⟩]) (by rw [cut, List.append_assoc]; rfl)
      have now : t.Within (queued tr) a := within tr ⟨t, a, t.after a⟩ [] rfl
      refine ⟨ready'.after allowed now, led.onward fun s' carried' => ?_⟩
      refine (files_step ready' carried' allowed now).onward fun s'' carried'' => .here ?_
      refine { carried'' with jobs := List.Subset.trans ?_ carried''.jobs }
      rw [queued_snoc]
      exact fun id member => List.mem_append.2 (List.mem_append.1 member).symm

/-- The custody of these tables, with nothing in flight. -/
def opening (db : Database) : Custody where
  db := db
  created := []
  requests := []
  refusals := []
  jobs := []
  running := []
  pages := []
  charged := fun _ => none

theorem World.Initial.carried (initial : w.Initial) : Carried (w.manifest []) (opening w.db) where
  db := rfl
  created := nofun
  requests := by simp [World.manifest, opening, initial.uploads]
  refusals := by simp [World.manifest, opening, initial.uploads]
  jobs := List.Subset.refl _
  running := by simp [World.manifest, opening, initial.works]
  pages := by simp [World.manifest, opening, initial.removals]

/-- **Uploads, executions, deletions, wipes and sweeps run in the custody**: what they do to the
tables from the beginning, in a run that stays within it, it does. -/
theorem files_runs {start : World} {tr : List (Transition World Action)} (initial : start.Initial)
    (run : Run (step pageSize) start tr w)
    (within : ∀ first e rest, tr = first ++ e :: rest →
      e.source.Within (queued first) e.action) :
    Leads sha256Hex (opening start.db) (Carried (w.manifest (queued tr))) :=
  (files_lead initial.ready initial.carried run within).2

end Steps

end Tozalist.Worker.BatchFiles
