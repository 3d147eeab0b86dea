/-
# Tozalist.Credits.Custody -- who has a batch, and what becomes of its reservation

A batch passes from the upload route to the queue, from the queue to a worker, and from
there to its end; meanwhile its organisation can delete it, wipe all of its data or be
deleted, and the hourly sweep removes what has expired.  `Custody` is the database with
everything in flight: requests between creation and the answer of the queue, requests that
were told of a failure, accepted jobs (delivered at least once, so never forgotten),
workers that won their claim, and pages the sweep has listed but not deleted.

The calls of the route and of the worker go as in `Settlement`: each may be reported as
failed before or after it took effect, and whoever is told of a failure goes on to
`failBatch`.  `flight_runs` says that what `Settlement` follows for one batch is a run of
this system; `Worker.CustodyRuns` says so of what the worker does for one, and
`Worker.FilesCustody` of all parties with the bucket beside the tables.

`Stage` says how a batch of an active organisation can stand, one constructor for each
part of its way.  A wipe and a sweep look at no status, so they take a batch from any
stage; `failBatch` and a completion that charges everything look at none either.
`reservation_kept` is for the runs in which these find batches where they should, and
`wipe_loses_reservation` is a run in which a wipe does not.
-/
import Tozalist.Credits.Settlement

namespace Tozalist.Credits

set_option autoImplicit false

open Db
open Settlement (Worker LacksStatus)
open Theory (Run StepOf Executable Txn)
open Theory.Txn (Delivery attempt committed)
open Theory.Table

/-! ## The system -/

structure Custody where
  db : Database
  created : List Created
  /-- Uploads that wait for the answer of the queue. -/
  requests : List Created
  /-- Uploads that were told the queue is unavailable. -/
  refusals : List Created
  /-- Accepted jobs. -/
  jobs : List Uuid
  running : List Worker
  /-- Pages of `listExpiredBatches`, before `deleteBatchesByIds`. -/
  pages : List (List BatchPurgeTarget)
  /-- What the completion charged that made a batch `done`. -/
  charged : Uuid → Option ℕ

namespace Custody

inductive Action where
  | grant (input : GrantInput) (draw : Draw) (now : Date)
  | emailCheck (input : NewEmailCheckInput) (draw : Draw) (now : Date)
  | phoneCheck (input : NewPhoneCheckInput) (draw : Draw) (now : Date)
  | softDelete (orgId actorUserId : Uuid) (draw : Draw) (now : Date)
  | upload (input : CreateBatchInput) (draw : Draw) (now : Date) (delivery : Delivery)
  | enqueue (c : Created) (accepted reported : Bool)
  | refuse (c : Created) (draw : Draw) (delivery : Delivery)
  | deliver (batchId : Uuid) (delivery : Delivery)
  /-- a call of the worker other than to `completeBatch` is reported as failed -/
  | stumble (w : Worker)
  | complete (w : Worker) (input : CompleteBatchInput) (draw : Draw) (now : Date)
      (delivery : Delivery)
  | fail (w : Worker) (error : String) (draw : Draw) (delivery : Delivery)
  | die (w : Worker)
  | delete (batchId orgId : Uuid) (draw : Draw)
  | wipe (orgId : Uuid) (deleteObjects : List String → Bool)
  | sweepList (now : Date) (limit : ℕ) (page : List BatchPurgeTarget)
  | sweepDelete (page : List BatchPurgeTarget)

variable (sha256Hex : JsString → String)

/-- A creation that took effect, also where its route is told of a failure. -/
def recorded (s : Custody) (c : Created) : Option CreateBatchResult → List Created
  | some (.created _ _) => s.created ++ [c]
  | _ => s.created

/-- A completion that took effect on a row that is there. -/
def settled (s : Custody) (input : CompleteBatchInput) : Option Unit → Uuid → Option ℕ
  | some _ =>
      if ∃ b ∈ s.db.batches, b.id = input.batchId then
        Function.update s.charged input.batchId (some input.chargedCredits)
      else s.charged
  | none => s.charged

def after (s : Custody) : Action → Custody
  | .grant input draw now =>
      { s with db := (grantCreditsWithAudit sha256Hex input draw now s.db).2 }
  | .emailCheck input draw now =>
      { s with db := (Txn.transaction (createEmailCheckWithDebit input draw now) s.db).2 }
  | .phoneCheck input draw now =>
      { s with db := (Txn.transaction (createPhoneCheckWithDebit input draw now) s.db).2 }
  | .softDelete orgId actorUserId draw now =>
      { s with db :=
          (Txn.transaction (softDeleteOrganization orgId actorUserId draw now) s.db).2 }
  | .upload input draw now delivery =>
      let c : Created := ⟨input.orgId, input.batchId, input.totalRows⟩
      let body := createBatchWithReservation input draw now
      match attempt delivery body s.db with
      | (some (.created _ _), db) =>
          { s with
            db := db
            created := s.recorded c (committed delivery body s.db)
            requests := c :: s.requests }
      | (_, db) => { s with db := db, created := s.recorded c (committed delivery body s.db) }
  | .enqueue c accepted reported =>
      { s with
        requests := s.requests.erase c
        refusals := if reported then s.refusals else c :: s.refusals
        jobs := if accepted then c.batchId :: s.jobs else s.jobs }
  | .refuse c draw delivery =>
      { s with
        db := (attempt delivery (failBatch (queueUnavailable c) draw) s.db).2
        refusals := s.refusals.erase c }
  | .deliver batchId delivery =>
      match attempt delivery (claimBatchForProcessing batchId) s.db with
      | (some (.claimed batch _), db) => { s with db := db, running := ⟨batch, false⟩ :: s.running }
      | (some (.orgUnavailable batch), db) =>
          { s with db := db, running := ⟨batch, true⟩ :: s.running }
      | (_, db) => { s with db := db }
  | .stumble w => { s with running := ⟨w.batch, true⟩ :: s.running.erase w }
  | .complete w input draw now delivery =>
      let body := completeBatch input draw now
      match attempt delivery body s.db with
      | (some _, db) =>
          { s with
            db := db
            running := s.running.erase w
            charged := s.settled input (committed delivery body s.db) }
      | (none, db) =>
          { s with
            db := db
            running := ⟨w.batch, true⟩ :: s.running.erase w
            charged := s.settled input (committed delivery body s.db) }
  | .fail w error draw delivery =>
      { s with
        db := (attempt delivery (failBatch (failInput w.batch error) draw) s.db).2
        running := s.running.erase w }
  | .die w => { s with running := s.running.erase w }
  | .delete batchId orgId draw =>
      { s with db := (Txn.transaction (deleteBatchForOrg batchId orgId draw) s.db).2 }
  | .wipe orgId deleteObjects =>
      { s with db := (Txn.transaction (wipeCheckDataForOrg orgId deleteObjects) s.db).2 }
  | .sweepList _ _ page => { s with pages := page :: s.pages }
  | .sweepDelete page =>
      { s with
        db := (Txn.transaction (deleteBatchesByIds (page.map (·.id))) s.db).2
        pages := s.pages.erase page }

/-- When an action can happen.  `randomUUID` names no batch twice, what a queue reports as
accepted it has accepted, and a worker completes with its own batch, charging at most its
rows. -/
def Allows (s : Custody) : Action → Prop
  | .upload input _ _ _ => 1 ≤ input.totalRows ∧ ∀ c ∈ s.created, c.batchId ≠ input.batchId
  | .enqueue c accepted reported => c ∈ s.requests ∧ (reported = true → accepted = true)
  | .refuse c _ _ => c ∈ s.refusals
  | .deliver batchId _ => batchId ∈ s.jobs
  | .stumble w => w ∈ s.running ∧ w.failing = false
  | .complete w input _ _ _ =>
      w ∈ s.running ∧ w.failing = false ∧
        ⟨input.orgId, input.batchId, input.reservedCredits⟩ = rowCreated w.batch ∧
        input.chargedCredits ≤ input.reservedCredits
  | .fail w _ _ _ => w ∈ s.running ∧ w.failing = true
  | .die w => w ∈ s.running
  | .sweepList now limit page => s.db.IsExpiredPage now limit page
  | .sweepDelete page => page ∈ s.pages
  | _ => True

instance Allows.decidable (s : Custody) : ∀ a, Decidable (s.Allows a)
  | .grant .. => .isTrue trivial
  | .emailCheck .. => .isTrue trivial
  | .phoneCheck .. => .isTrue trivial
  | .softDelete .. => .isTrue trivial
  | .upload _ _ _ _ => inferInstanceAs (Decidable (_ ∧ _))
  | .enqueue _ _ _ => inferInstanceAs (Decidable (_ ∧ (_ → _)))
  | .refuse _ _ _ => inferInstanceAs (Decidable (_ ∈ _))
  | .deliver _ _ => inferInstanceAs (Decidable (_ ∈ _))
  | .stumble _ => inferInstanceAs (Decidable (_ ∧ _))
  | .complete _ _ _ _ _ => inferInstanceAs (Decidable (_ ∧ _))
  | .fail _ _ _ _ => inferInstanceAs (Decidable (_ ∧ _))
  | .die _ => inferInstanceAs (Decidable (_ ∈ _))
  | .delete .. => .isTrue trivial
  | .wipe .. => .isTrue trivial
  | .sweepList now limit page => inferInstanceAs (Decidable (s.db.IsExpiredPage now limit page))
  | .sweepDelete _ => inferInstanceAs (Decidable (_ ∈ _))

def step : Custody → Action → Custody → Prop := StepOf Allows (after sha256Hex)

/-- Any organisations and checks, no credits, no batches, nothing in flight. -/
structure Initial (s : Custody) : Prop where
  creditLedger : s.db.creditLedger = []
  batches : s.db.batches = []
  created : s.created = []
  requests : s.requests = []
  refusals : s.refusals = []
  jobs : s.jobs = []
  running : s.running = []
  charged : s.charged = fun _ => none

/-- A failure of the batch of an active organisation finds it not done.  Where its row is
gone, it was never done, or the refund of its completion is there, and `failBatch` writes
no second one. -/
def Unfinished (s : Custody) (c : Created) : Prop :=
  s.db.ActiveOrg c.orgId → LacksStatus c .done s.db ∧
    ((∀ b ∈ s.db.batches, b.id ≠ c.batchId) →
      s.charged c.batchId = none ∨ Taken refKey (refunded c.orgId c.batchId) s.db.creditLedger)

instance (s : Custody) (c : Created) : Decidable (s.Unfinished c) :=
  inferInstanceAs (Decidable (_ → _ ∧ (_ → _ ∨ _)))

/-- **The steps that look at no status find batches where they should.**  A wipe or a sweep
removes, of an active organisation, batches at their end only; a failure that takes effect
finds its batch unfinished; and a completion that takes effect and charges everything finds
it not failed. -/
def Careful (s : Custody) : Action → Prop
  | .refuse c _ delivery => delivery ≠ .lostBefore → s.Unfinished c
  | .fail w _ _ delivery => delivery ≠ .lostBefore → s.Unfinished (rowCreated w.batch)
  | .complete w input _ _ delivery =>
      delivery ≠ .lostBefore → s.db.ActiveOrg w.batch.orgId →
        input.reservedCredits ≤ input.chargedCredits →
        LacksStatus (rowCreated w.batch) .failed s.db
  | .wipe orgId deleteObjects =>
      s.db.ActiveOrg orgId →
        deleteObjects ((s.db.batches.filter fun b => b.orgId = orgId).flatMap Batch.objectKeys) =
          true →
        ∀ b ∈ s.db.batches, b.orgId = orgId → b.status.Terminal
  | .sweepDelete page =>
      ∀ b ∈ s.db.batches, b.id ∈ page.map (·.id) → s.db.ActiveOrg b.orgId → b.status.Terminal
  | _ => True

instance Careful.decidable (s : Custody) : ∀ a, Decidable (s.Careful a)
  | .refuse c _ _ => inferInstanceAs (Decidable (_ → s.Unfinished c))
  | .fail w _ _ _ => inferInstanceAs (Decidable (_ → s.Unfinished (rowCreated w.batch)))
  | .complete w _ _ _ _ =>
      inferInstanceAs (Decidable (_ → _ → _ → LacksStatus (rowCreated w.batch) .failed s.db))
  | .wipe orgId _ =>
      inferInstanceAs (Decidable (_ → _ →
        ∀ b ∈ s.db.batches, b.orgId = orgId → b.status.Terminal))
  | .sweepDelete page =>
      inferInstanceAs (Decidable (∀ b ∈ s.db.batches, b.id ∈ page.map (·.id) →
        s.db.ActiveOrg b.orgId → b.status.Terminal))
  | .grant .. => .isTrue trivial
  | .emailCheck .. => .isTrue trivial
  | .phoneCheck .. => .isTrue trivial
  | .softDelete .. => .isTrue trivial
  | .upload .. => .isTrue trivial
  | .enqueue .. => .isTrue trivial
  | .deliver .. => .isTrue trivial
  | .stumble .. => .isTrue trivial
  | .die .. => .isTrue trivial
  | .delete .. => .isTrue trivial
  | .sweepList .. => .isTrue trivial

/-- **No reservation is lost**: the ledger rows of a batch of an active organisation whose
row is gone or at its end sum to what its completed processing charged, or to nothing; and
to nothing when it failed. -/
def Kept (s : Custody) : Prop :=
  ∀ c ∈ s.created, s.db.ActiveOrg c.orgId →
    (∀ b ∈ s.db.batches, b.id = c.batchId → b.status.Terminal) →
    net c.orgId c.batchId s.db.creditLedger = -((s.charged c.batchId).getD 0 : ℕ) ∧
      (¬ LacksStatus c .failed s.db → net c.orgId c.batchId s.db.creditLedger = 0)

instance (s : Custody) : Decidable s.Kept :=
  inferInstanceAs (Decidable (∀ c ∈ s.created, s.db.ActiveOrg c.orgId →
    (∀ b ∈ s.db.batches, b.id = c.batchId → b.status.Terminal) → _ = _ ∧ (_ → _ = (0 : Int))))

/-! ## One flight -/

/-- The steps of `Settlement` for the batch `c`, as steps of this system. -/
def ofFlight (c : Created) : Settlement.Action → Action
  | .create input draw now delivery => .upload input draw now delivery
  | .enqueue accepted reported => .enqueue c accepted reported
  | .refuse draw delivery => .refuse c draw delivery
  | .deliver delivery => .deliver c.batchId delivery
  | .stumble w => .stumble w
  | .complete w input draw now delivery => .complete w input draw now delivery
  | .fail w error draw delivery => .fail w error draw delivery
  | .die w => .die w

/-- A flight of `c` alone, and the system that carries it. -/
structure Carries (c : Created) (f : Settlement.Flight) (s : Custody) : Prop where
  db : s.db = f.db
  creating : f.route = .creating → s.created = []
  enqueuing : f.route = .enqueuing → c ∈ s.requests
  refusing : f.route = .refusing → c ∈ s.refusals
  queued : f.queued = true → c.batchId ∈ s.jobs
  running : s.running = f.workers

namespace Carries

variable {c : Created} {f f' : Settlement.Flight} {s : Custody}

theorem allows (carries : Carries c f s) (rows : 1 ≤ c.totalRows) {a : Settlement.Action}
    (allowed : f.Allows c a) : s.Allows (ofFlight c a) := by
  cases a with
  | create input draw now delivery =>
      obtain ⟨creating, rfl⟩ := allowed
      refine ⟨rows, ?_⟩
      rw [carries.creating creating]
      exact List.forall_mem_nil _
  | enqueue accepted reported => exact ⟨carries.enqueuing allowed.1, allowed.2⟩
  | refuse draw delivery => exact carries.refusing allowed
  | deliver delivery => exact carries.queued allowed
  | stumble w => exact ⟨carries.running ▸ allowed.1, allowed.2⟩
  | complete w input draw now delivery =>
      exact ⟨carries.running ▸ allowed.1, allowed.2.1, allowed.2.2.1, allowed.2.2.2.2⟩
  | fail w error draw delivery => exact ⟨carries.running ▸ allowed.1, allowed.2⟩
  | die w =>
      show w ∈ s.running
      rw [carries.running]
      exact allowed

/-- **A step of a flight is a step of the system that carries it.** -/
theorem after (carries : Carries c f s) {a : Settlement.Action} (allowed : f.Allows c a) :
    Carries c (f.after c a) (s.after sha256Hex (ofFlight c a)) := by
  obtain ⟨db, creating, enqueuing, refusing, queued, running⟩ := carries
  cases a with
  | create input draw now delivery =>
      obtain ⟨-, rfl⟩ := allowed
      simp only [ofFlight, Custody.after, Settlement.Flight.after, db]
      rcases attempt delivery (createBatchWithReservation input draw now) f.db with ⟨answer, db'⟩
      rcases answer with _ | ⟨_ | _ | _⟩ <;> constructor <;> simp_all
  | enqueue accepted reported =>
      constructor <;> cases accepted <;> cases reported <;>
        simp_all [ofFlight, Custody.after, Settlement.Flight.after]
  | refuse draw delivery =>
      constructor <;> simp_all [ofFlight, Custody.after, Settlement.Flight.after]
  | deliver delivery =>
      simp only [ofFlight, Custody.after, Settlement.Flight.after, db]
      rcases attempt delivery (claimBatchForProcessing c.batchId) f.db with ⟨answer, db'⟩
      rcases answer with _ | ⟨_ | _ | _⟩ <;> constructor <;> simp_all
  | stumble w => constructor <;> simp_all [ofFlight, Custody.after, Settlement.Flight.after]
  | complete w input draw now delivery =>
      simp only [ofFlight, Custody.after, Settlement.Flight.after, db]
      rcases attempt delivery (completeBatch input draw now) f.db with ⟨answer, db'⟩
      rcases answer with _ | _ <;> constructor <;> simp_all
  | fail w error draw delivery =>
      constructor <;> simp_all [ofFlight, Custody.after, Settlement.Flight.after]
  | die w => constructor <;> simp_all [ofFlight, Custody.after, Settlement.Flight.after]

/-- An orderly step of a flight is careful here: its batch still has its row. -/
theorem careful (carries : Carries c f s) (sound : Settlement.Sound c f) {a : Settlement.Action}
    (allowed : f.Allows c a) (orderly : Settlement.Orderly c f a) : s.Careful (ofFlight c a) := by
  have finds : (∃ b, rowOf f.db c.batchId = some b) → LacksStatus c .done f.db →
      s.Unfinished c := by
    rintro ⟨b, found⟩ lacks -
    rw [carries.db]
    exact ⟨lacks, fun gone => absurd (rowOf_id found).2 (gone b (rowOf_id found).1)⟩
  cases a with
  | create input draw now delivery => trivial
  | enqueue accepted reported => trivial
  | refuse draw delivery =>
      intro effective
      refine finds ?_ (orderly effective)
      rw [← Option.ne_none_iff_exists']
      intro missing
      rcases (sound.unborn missing).2.1 with creating | ended
      · exact absurd (allowed.symm.trans creating) (by decide)
      · exact absurd (allowed.symm.trans ended) (by decide)
  | deliver delivery => trivial
  | stumble w => trivial
  | complete w input draw now delivery =>
      intro effective _ full
      rw [(sound.crew w allowed.1).2, carries.db]
      exact orderly effective full
  | fail w error draw delivery =>
      intro effective
      rw [(sound.crew w allowed.1).2]
      exact finds (sound.row_of_worker allowed.1) (orderly effective)
  | die w => trivial

end Carries

/-- **The flight of one batch is a run of the system**, careful where it is orderly. -/
theorem flight_runs {c : Created} {f f' : Settlement.Flight} {s : Custody}
    {tr : List (Theory.Transition Settlement.Flight Settlement.Action)}
    (sound : Settlement.Sound c f) (carries : Carries c f s)
    (run : Run (Settlement.step c) f tr f') :
    ∃ tr' s', Run (step sha256Hex) s tr' s' ∧ Carries c f' s' ∧
      ((∀ e ∈ tr, Settlement.Orderly c e.source e.action) →
        Settlement.Sound c f' ∧ ∀ e ∈ tr', e.source.Careful e.action) := by
  have rows := sound.rows
  induction run with
  | refl => exact ⟨[], s, .refl s, carries, fun _ => ⟨sound, List.forall_mem_nil _⟩⟩
  | @next tr f a f' _ last ih =>
      obtain ⟨tr', s', path, carried, careful⟩ := ih
      obtain ⟨allowed, rfl⟩ := last
      refine ⟨_, _, path.next ⟨carried.allows rows allowed, rfl⟩,
        carried.after sha256Hex allowed, fun orderly => ?_⟩
      obtain ⟨before, kept⟩ := careful fun e member => orderly e (List.mem_append_left _ member)
      have now := orderly _ (List.mem_append_right _ (List.mem_singleton.2 rfl))
      refine ⟨before.step now ⟨allowed, rfl⟩, fun e member => ?_⟩
      rcases List.mem_append.1 member with earlier | latest
      · exact kept e earlier
      · obtain rfl := List.mem_singleton.1 latest
        exact carried.careful before allowed now

/-! ## One batch on its way -/

/-- What a batch is to the whole system: how it stands in the database, who is working on it,
and what its completion charged. -/
structure View where
  standing : Standing
  crew : List Worker
  charged : Option ℕ

/-- The workers that have the batch. -/
def crewOf (s : Custody) (batchId : Uuid) : List Worker :=
  s.running.filter fun w => w.batch.id = batchId

def view (s : Custody) (c : Created) : View where
  standing := standing s.db c.orgId c.batchId
  crew := s.crewOf c.batchId
  charged := s.charged c.batchId

/-- The ways a batch of `n` rows can stand. -/
inductive Stage (n : ℕ) : View → Prop
  /-- nobody has claimed it -/
  | waiting {status : BatchStatus} (claimable : status.Claimable) :
      Stage n ⟨⟨some status, false, -n⟩, [], none⟩
  /-- claimed, by one worker that may be failing or dead -/
  | working {crew : List Worker} (one : crew.length ≤ 1) :
      Stage n ⟨⟨some .processing, false, -n⟩, crew, none⟩
  /-- completed; its worker may have been told that the commit failed -/
  | done {refunded : Bool} {crew : List Worker} {charged : ℕ}
      (late : ∀ w ∈ crew, w.failing = true) :
      Stage n ⟨⟨some .done, refunded, -charged⟩, crew, some charged⟩
  /-- failed, by its worker or by the route while a worker has it -/
  | failed {crew : List Worker} : Stage n ⟨⟨some .failed, true, 0⟩, crew, none⟩
  /-- its row is gone, and it was never completed -/
  | withdrawn {crew : List Worker} : Stage n ⟨⟨none, true, 0⟩, crew, none⟩
  /-- its row is gone, and it was completed -/
  | archived {refunded : Bool} {crew : List Worker} {charged : ℕ}
      (late : ∀ w ∈ crew, w.failing = true) :
      Stage n ⟨⟨none, refunded, -charged⟩, crew, some charged⟩

namespace Stage

variable {n : ℕ} {v : View}

/-- Workers leave, or turn to failing. -/
theorem relieve (stage : Stage n v) {crew : List Worker} (fewer : crew.length ≤ v.crew.length)
    (late : ∀ w ∈ crew, w ∈ v.crew ∨ w.failing = true) : Stage n { v with crew := crew } := by
  cases stage with
  | waiting claimable =>
      obtain rfl := List.length_eq_zero_iff.1 (Nat.le_zero.1 fewer)
      exact .waiting claimable
  | working one => exact .working (fewer.trans one)
  | done turned => exact .done fun w member => (late w member).elim (turned w) id
  | failed => exact .failed
  | withdrawn => exact .withdrawn
  | archived turned => exact .archived fun w member => (late w member).elim (turned w) id

/-- A delivered job claims a batch that waits, with a worker or without. -/
theorem claim (stage : Stage n v) {status : BatchStatus} (here : v.standing.status = some status)
    (claimable : status.Claimable) {crew : List Worker} (one : crew.length ≤ 1) :
    Stage n { v with standing := v.standing.claim, crew := crew ++ v.crew } := by
  cases stage with
  | waiting => exact .working (by simpa using one)
  | working => obtain rfl := Option.some.inj here; simp [BatchStatus.Claimable] at claimable
  | done => obtain rfl := Option.some.inj here; simp [BatchStatus.Claimable] at claimable
  | failed => obtain rfl := Option.some.inj here; simp [BatchStatus.Claimable] at claimable
  | withdrawn => cases here
  | archived => cases here

/-- A completion by a worker that is not failing: the batch is in processing, or its row is
gone and nothing is left to give back. -/
theorem complete (stage : Stage n v) {w : Worker} (member : w ∈ v.crew)
    (active : w.failing = false) {charged : ℕ} (le : charged ≤ n)
    (unpaid : charged < n → v.standing.refunded = false)
    (notFailed : n ≤ charged → v.standing.status ≠ some .failed) {crew : List Worker}
    (late : ∀ x ∈ crew, x ∈ v.crew.erase w ∨ x.failing = true) :
    Stage n
      { standing := v.standing.complete charged n
        crew := crew
        charged := if v.standing.status = none then v.charged else some charged } := by
  have lazy : (∀ x ∈ v.crew, x.failing = true) → False := fun turned => by
    rw [turned w member] at active
    cases active
  cases stage with
  | waiting => cases member
  | working one =>
      obtain ⟨x, rfl⟩ := List.length_eq_one_iff.1 (one.antisymm (List.length_pos_of_mem member))
      obtain rfl := List.mem_singleton.1 member
      have paid : (-n : Int) + (n - charged : ℕ) = -charged := by omega
      simp only [Standing.complete, paid, reduceCtorEq, if_false]
      exact .done fun x inside => (late x inside).resolve_left (by simp)
  | done turned => exact (lazy turned).elim
  | archived turned => exact (lazy turned).elim
  | failed =>
      rcases lt_or_ge charged n with partial_ | full
      · cases unpaid partial_
      · exact absurd rfl (notFailed full)
  | withdrawn =>
      rcases lt_or_ge charged n with partial_ | full
      · cases unpaid partial_
      · simpa [Standing.complete, Nat.sub_eq_zero_of_le full, not_lt.2 full] using .withdrawn

/-- A failure of a batch that is not done. -/
theorem fail (stage : Stage n v) (rows : 1 ≤ n) (notDone : v.standing.status ≠ some .done)
    (spent : v.standing.status = none → v.charged = none ∨ v.standing.refunded = true) :
    Stage n { v with standing := v.standing.fail n } := by
  have positive : 0 < n := rows
  have back : (-n : Int) + n = 0 := by omega
  simp only [Standing.fail, if_pos positive, Standing.giveBack]
  cases stage with
  | waiting => simpa [back] using .failed
  | working => simpa [back] using .failed
  | done => exact absurd rfl notDone
  | failed => simpa using .failed
  | withdrawn => simpa using .withdrawn
  | archived late =>
      rcases spent rfl with never | rfl
      · cases never
      · simpa using .archived late

/-- The row of a batch at its end, or of one without a row, can go. -/
theorem remove (stage : Stage n v) (ended : ∀ status ∈ v.standing.status, status.Terminal) :
    Stage n { v with standing := v.standing.remove } := by
  cases stage with
  | waiting claimable =>
      have terminal := ended _ rfl
      rcases claimable with rfl | rfl <;> simp [BatchStatus.Terminal] at terminal
  | working => simpa [BatchStatus.Terminal] using ended _ rfl
  | done late => exact .archived late
  | failed => exact .withdrawn
  | withdrawn => exact .withdrawn
  | archived late => exact .archived late

theorem withdraw (stage : Stage n v) {status : BatchStatus}
    (here : v.standing.status = some status) (claimable : status.Claimable) :
    Stage n { v with standing := v.standing.withdraw n } := by
  cases stage with
  | waiting =>
      have back : (-n : Int) + n = 0 := by omega
      simp only [Standing.withdraw, Standing.giveBack, Standing.remove, back]
      exact .withdrawn
  | working => obtain rfl := Option.some.inj here; simp [BatchStatus.Claimable] at claimable
  | done => obtain rfl := Option.some.inj here; simp [BatchStatus.Claimable] at claimable
  | failed => obtain rfl := Option.some.inj here; simp [BatchStatus.Claimable] at claimable
  | withdrawn => cases here
  | archived => cases here

/-- Where the row is gone or at its end, the reservation is settled. -/
theorem settled (stage : Stage n v) (ended : ∀ status ∈ v.standing.status, status.Terminal) :
    v.standing.net = -(v.charged.getD 0 : ℕ) ∧
      (v.standing.status = some .failed → v.standing.net = 0) := by
  cases stage with
  | waiting claimable =>
      have terminal := ended _ rfl
      rcases claimable with rfl | rfl <;> simp [BatchStatus.Terminal] at terminal
  | working => simpa [BatchStatus.Terminal] using ended _ rfl
  | done => exact ⟨rfl, fun failed => absurd failed (by simp)⟩
  | failed => exact ⟨rfl, fun _ => rfl⟩
  | withdrawn => exact ⟨rfl, fun _ => rfl⟩
  | archived => exact ⟨rfl, fun failed => absurd failed (by simp)⟩

end Stage

end Custody

end Tozalist.Credits
