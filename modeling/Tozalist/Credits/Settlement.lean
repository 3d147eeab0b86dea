/-
# Tozalist.Credits.Settlement -- a batch's status and its ledger, whatever fails

One batch, from its upload to its end, over calls that can fail: each call to the
database, and each call to the queue, may be reported as failed before or after it took
effect (`Theory.Txn.attempt`).  The upload route answers a failed enqueue with
`failBatch`; the worker answers any failed call between its claim and its end, the commit
of `completeBatch` included, with `failBatch`.

`failBatch` looks at no status.  `settlement_consistent_iff` says that status and ledger
tell the same story in every state of a run, and that an end is final, exactly when no
failure takes effect on a batch that is done and no completion that charges everything
takes effect on a batch that failed.  `late_failure_contradicts` is a run with such a
failure.
-/
import Tozalist.Credits.Safety

namespace Tozalist.Credits.Settlement

set_option autoImplicit false

open Db
open Theory (Run StepOf Executable Txn Transition)
open Theory.Txn (Delivery attempt attempt_cases attempt_store attempt_of_commits)
open Theory.Table

/-! ## The system -/

/-- Where the upload route is. -/
inductive Route where
  | creating
  | enqueuing
  | refusing
  | ended
  deriving DecidableEq, Repr

/-- An execution after its claim: the row it read, and whether it is in its `catch` branch,
or in one that fails the batch at once. -/
structure Worker where
  batch : Batch
  failing : Bool
  deriving DecidableEq

structure Flight where
  db : Database
  route : Route
  /-- The queue has accepted the job, and delivers it at least once. -/
  queued : Bool
  workers : List Worker

inductive Action where
  | create (input : CreateBatchInput) (draw : Draw) (now : Date) (delivery : Delivery)
  | enqueue (accepted reported : Bool)
  | refuse (draw : Draw) (delivery : Delivery)
  | deliver (delivery : Delivery)
  /-- a call of the worker other than to `completeBatch` is reported as failed -/
  | stumble (w : Worker)
  | complete (w : Worker) (input : CompleteBatchInput) (draw : Draw) (now : Date)
      (delivery : Delivery)
  | fail (w : Worker) (error : String) (draw : Draw) (delivery : Delivery)
  | die (w : Worker)

variable (c : Created)

def Flight.after (s : Flight) : Action → Flight
  | .create input draw now delivery =>
      match attempt delivery (createBatchWithReservation input draw now) s.db with
      | (some (.created _ _), db) => { s with db := db, route := .enqueuing }
      | (_, db) => { s with db := db, route := .ended }
  | .enqueue accepted reported =>
      { s with
        queued := s.queued || accepted
        route := if reported then .ended else .refusing }
  | .refuse draw delivery =>
      { s with
        db := (attempt delivery (failBatch (queueUnavailable c) draw) s.db).2
        route := .ended }
  | .deliver delivery =>
      match attempt delivery (claimBatchForProcessing c.batchId) s.db with
      | (some (.claimed batch _), db) => { s with db := db, workers := ⟨batch, false⟩ :: s.workers }
      | (some (.orgUnavailable batch), db) =>
          { s with db := db, workers := ⟨batch, true⟩ :: s.workers }
      | (_, db) => { s with db := db }
  | .stumble w => { s with workers := ⟨w.batch, true⟩ :: s.workers.erase w }
  | .complete w input draw now delivery =>
      match attempt delivery (completeBatch input draw now) s.db with
      | (some _, db) => { s with db := db, workers := s.workers.erase w }
      | (none, db) => { s with db := db, workers := ⟨w.batch, true⟩ :: s.workers.erase w }
  | .fail w error draw delivery =>
      { s with
        db := (attempt delivery (failBatch (failInput w.batch error) draw) s.db).2
        workers := s.workers.erase w }
  | .die w => { s with workers := s.workers.erase w }

/-- When an action can happen.  What a queue reports as accepted it has accepted; a
completion is of the worker's own batch and stores what it charges. -/
def Flight.Allows (s : Flight) : Action → Prop
  | .create input _ _ _ =>
      s.route = .creating ∧ ⟨input.orgId, input.batchId, input.totalRows⟩ = c
  | .enqueue accepted reported => s.route = .enqueuing ∧ (reported = true → accepted = true)
  | .refuse _ _ => s.route = .refusing
  | .deliver _ => s.queued = true
  | .stumble w => w ∈ s.workers ∧ w.failing = false
  | .complete w input _ _ _ =>
      w ∈ s.workers ∧ w.failing = false ∧
        ⟨input.orgId, input.batchId, input.reservedCredits⟩ = rowCreated w.batch ∧
        input.stats.charged = input.chargedCredits ∧
        input.chargedCredits ≤ input.reservedCredits
  | .fail w _ _ _ => w ∈ s.workers ∧ w.failing = true
  | .die w => w ∈ s.workers

instance Flight.Allows.decidable (s : Flight) : ∀ a, Decidable (s.Allows c a)
  | .create .. => inferInstanceAs (Decidable (_ ∧ _))
  | .enqueue .. => inferInstanceAs (Decidable (_ ∧ (_ → _)))
  | .refuse .. => inferInstanceAs (Decidable (_ = _))
  | .deliver _ => inferInstanceAs (Decidable (_ = _))
  | .stumble _ => inferInstanceAs (Decidable (_ ∧ _))
  | .complete .. => inferInstanceAs (Decidable (_ ∧ _))
  | .fail .. => inferInstanceAs (Decidable (_ ∧ _))
  | .die _ => inferInstanceAs (Decidable (_ ∈ _))

def step : Flight → Action → Flight → Prop := StepOf (Flight.Allows c) (Flight.after c)

/-- A database that does not know the batch yet, and an upload that is about to create it. -/
structure Initial (s : Flight) : Prop where
  rows : 1 ≤ c.totalRows
  unique : Unique rowKey s.db.batches
  unknown : ∀ b ∈ s.db.batches, b.id ≠ c.batchId
  unpaid : ¬ Taken refKey (refunded c.orgId c.batchId) s.db.creditLedger
  route : s.route = .creating
  queued : s.queued = false
  workers : s.workers = []

/-! ## The story -/

/-- Status and ledger of the batch agree: done, it has paid what its statistics charge;
failed, it has paid nothing. -/
def SameStory (db : Database) : Prop :=
  ∀ b ∈ db.batches, b.id = c.batchId →
    (b.status = .done → ∃ stats ∈ b.stats,
      net c.orgId c.batchId db.creditLedger = -(stats.charged : Int)) ∧
    (b.status = .failed → net c.orgId c.batchId db.creditLedger = 0)

/-- The batch is not taken from one end to the other. -/
def Final (db db' : Database) : Prop :=
  ∀ b ∈ db.batches, b.id = c.batchId → b.status.Terminal →
    ∀ b' ∈ db'.batches, b'.id = c.batchId → b'.status.Terminal → b'.status = b.status

/-- One transition of a run keeps to the story. -/
structure Consistent (db db' : Database) : Prop where
  before : SameStory c db
  after : SameStory c db'
  final : Final c db db'

instance (db : Database) : Decidable (SameStory c db) :=
  inferInstanceAs (Decidable (∀ b ∈ db.batches, b.id = c.batchId →
    (b.status = .done → ∃ stats ∈ b.stats, _ = -(stats.charged : Int)) ∧ (_ → _ = (0 : Int))))

/-- No row of the batch has this status. -/
def LacksStatus (status : BatchStatus) (db : Database) : Prop :=
  ∀ b ∈ db.batches, b.id = c.batchId → b.status ≠ status

instance (status : BatchStatus) (db : Database) : Decidable (LacksStatus c status db) :=
  inferInstanceAs (Decidable (∀ b ∈ db.batches, b.id = c.batchId → b.status ≠ status))

/-- A failure that takes effect finds the batch not done, and a completion that takes effect
and charges everything finds it not failed. -/
def Orderly (s : Flight) : Action → Prop
  | .refuse _ delivery => delivery ≠ .lostBefore → LacksStatus c .done s.db
  | .fail _ _ _ delivery => delivery ≠ .lostBefore → LacksStatus c .done s.db
  | .complete _ input _ _ delivery =>
      delivery ≠ .lostBefore → input.reservedCredits ≤ input.chargedCredits → LacksStatus c .failed s.db
  | _ => True

instance Orderly.decidable (s : Flight) : ∀ a, Decidable (Orderly c s a)
  | .create .. => .isTrue trivial
  | .enqueue .. => .isTrue trivial
  | .refuse _ _ => inferInstanceAs (Decidable (_ → LacksStatus c .done s.db))
  | .deliver _ => .isTrue trivial
  | .stumble _ => .isTrue trivial
  | .complete _ _ _ _ _ => inferInstanceAs (Decidable (_ → _ → LacksStatus c .failed s.db))
  | .fail _ _ _ _ => inferInstanceAs (Decidable (_ → LacksStatus c .done s.db))
  | .die _ => .isTrue trivial

/-! ## The invariant -/

theorem not_terminal_of_claimable {status : BatchStatus} (claimable : status.Claimable) :
    ¬ status.Terminal := by
  rcases claimable with rfl | rfl <;> decide

theorem not_claimable_of_ended {status : BatchStatus} (ended : status.Terminal) :
    ¬ status.Claimable :=
  fun claimable => not_terminal_of_claimable claimable ended

/-- A row of the batch, with what its ledger rows say: nothing was given back before its end,
all of what it did not charge was when it is done, and everything when it failed. -/
structure RowStands (b : Batch) (st : Standing) : Prop where
  own : rowCreated b = c
  small : Int4 c.totalRows
  open_ : ¬ b.status.Terminal → st.refunded = false ∧ st.net = -(c.totalRows : Int)
  done : b.status = .done → ∃ stats, b.stats = some stats ∧ st.net = -(stats.charged : Int)
  failed : b.status = .failed → st.refunded = true ∧ st.net = 0

/-- The same, with who is working on it. -/
structure RowSound (workers : List Worker) (b : Batch) (st : Standing) : Prop
    extends RowStands c b st where
  idle : b.status.Claimable → workers = []
  late : b.status = .done → ∀ w ∈ workers, w.failing = true

structure Sound (s : Flight) : Prop where
  rows : 1 ≤ c.totalRows
  unique : Unique rowKey s.db.batches
  crew : ∀ w ∈ s.workers, s.workers = [w] ∧ rowCreated w.batch = c
  unborn : rowOf s.db c.batchId = none → s.workers = [] ∧
    (s.route = .creating ∨ s.route = .ended) ∧
    ¬ Taken refKey (refunded c.orgId c.batchId) s.db.creditLedger
  creating : s.route = .creating → rowOf s.db c.batchId = none
  born : ∀ b, rowOf s.db c.batchId = some b →
    RowSound c s.workers b (standing s.db c.orgId c.batchId)

variable {c}

theorem Initial.sound {s : Flight} (initial : Initial c s) : Sound c s := by
  have missing : rowOf s.db c.batchId = none := by
    refine lookup_eq_none.2 fun ⟨b, member, key⟩ => ?_
    exact initial.unknown b member (Option.some.inj key)
  refine ⟨initial.rows, initial.unique, ?_, ?_, fun _ => missing, ?_⟩
  · simp [initial.workers]
  · intro _
    exact ⟨initial.workers, .inl initial.route, initial.unpaid⟩
  · intro b found
    rw [missing] at found
    cases found

namespace RowStands

variable {b : Batch} {st : Standing}

/-- A row nobody has claimed, with its reservation. -/
theorem created (small : Int4 (rowCreated b).totalRows) (claimable : b.status.Claimable) :
    RowStands (rowCreated b) b ⟨some b.status, false, -b.totalRows⟩ where
  own := rfl
  small := small
  open_ := fun _ => ⟨rfl, rfl⟩
  done := fun done => absurd (.inl done) (not_terminal_of_claimable claimable)
  failed := fun failed => absurd (.inr failed) (not_terminal_of_claimable claimable)

/-- The claim of a row. -/
theorem claim (row : RowStands c b st) (claimable : b.status.Claimable) :
    RowStands c b.claim st.claim where
  own := row.own
  small := row.small
  open_ := fun _ => row.open_ (not_terminal_of_claimable claimable)
  done := nofun
  failed := nofun

/-- A failure of a row that is not done: nothing was given back, or everything. -/
theorem fail (row : RowStands c b st) (rows : 1 ≤ c.totalRows) (notDone : b.status ≠ .done)
    (error : String) : RowStands c (b.fail error) (st.fail c.totalRows) where
  own := row.own
  small := row.small
  open_ := fun notEnded => absurd (.inr rfl) notEnded
  done := nofun
  failed := by
    intro _
    have positive : 0 < c.totalRows := rows
    by_cases ended : b.status.Terminal
    · obtain ⟨back, zero⟩ := row.failed (ended.resolve_left notDone)
      simp [Standing.fail, Standing.giveBack, positive, back, zero]
    · obtain ⟨held, cost⟩ := row.open_ ended
      simp [Standing.fail, Standing.giveBack, positive, held, cost]

/-- A completion of a row before its end. -/
theorem complete (row : RowStands c b st) (open_ : ¬ b.status.Terminal)
    {input : CompleteBatchInput} (stored : input.stats.charged = input.chargedCredits)
    (reserved : input.reservedCredits = c.totalRows)
    (le : input.chargedCredits ≤ input.reservedCredits) (now : Date) :
    RowStands c (b.complete input now)
      (st.complete input.chargedCredits input.reservedCredits) where
  own := row.own
  small := row.small
  open_ := fun notEnded => absurd (.inl rfl) notEnded
  done := by
    intro _
    obtain ⟨-, cost⟩ := row.open_ open_
    refine ⟨input.stats, rfl, ?_⟩
    simp only [Standing.complete, cost, stored]
    omega
  failed := nofun

end RowStands

namespace RowSound

variable {workers : List Worker} {b : Batch} {st : Standing}

/-- Nobody is left working. -/
theorem leave (row : RowSound c workers b st) : RowSound c [] b st :=
  { row with
    idle := fun _ => rfl
    late := fun _ => List.forall_mem_nil _ }

/-- The one who works turns to failing. -/
theorem turn (row : RowSound c workers b st) {w : Worker} (member : w ∈ workers)
    (batch : Batch) : RowSound c [⟨batch, true⟩] b st :=
  { row with
    idle := fun claimable => by
      rw [row.idle claimable] at member
      cases member
    late := fun _ w' inside => by
      obtain rfl := List.mem_singleton.1 inside
      rfl }

end RowSound

section Attempts

variable {s : Flight} {b b' : Batch} {delivery : Delivery}

/-- A failure that takes effect leaves a failed batch. -/
theorem failed_row {input : FailBatchInput} (own : input.batchId = c.batchId) {draw : Draw}
    (found : rowOf s.db c.batchId = some b)
    (found' : rowOf (attempt delivery (failBatch input draw) s.db).2 c.batchId = some b') :
    b' = b ∨ (delivery ≠ .lostBefore ∧ b' = b.fail input.error) := by
  rcases attempt_store delivery (failBatch input draw) s.db with same | ⟨effective, u, commits⟩
  · rw [same] at found'
    exact .inl (Option.some.inj (found'.symm.trans found))
  · have row := failBatch_row commits
    rw [own, found] at row
    exact .inr ⟨effective, Option.some.inj (found'.symm.trans row)⟩

/-- A completion that takes effect leaves a batch that is done. -/
theorem completed_row {input : CompleteBatchInput} (own : input.batchId = c.batchId)
    {draw : Draw} {now : Date} (found : rowOf s.db c.batchId = some b)
    (found' : rowOf (attempt delivery (completeBatch input draw now) s.db).2 c.batchId =
      some b') :
    b' = b ∨ (delivery ≠ .lostBefore ∧ b' = b.complete input now ∧
      ∃ db, Txn.Commits (completeBatch input draw now) s.db () db) := by
  rcases attempt_store delivery (completeBatch input draw now) s.db with
    same | ⟨effective, u, commits⟩
  · rw [same] at found'
    exact .inl (Option.some.inj (found'.symm.trans found))
  · have row := completeBatch_row commits
    rw [own, found] at row
    exact .inr ⟨effective, Option.some.inj (found'.symm.trans row), _, commits⟩

theorem after_deliver_db (s : Flight) (delivery : Delivery) :
    (s.after c (.deliver delivery)).db =
      (attempt delivery (claimBatchForProcessing c.batchId) s.db).2 := by
  simp only [Flight.after]
  split <;> (rename_i eq; rw [eq])

theorem after_complete_db (s : Flight) (w : Worker) (input : CompleteBatchInput) (draw : Draw)
    (now : Date) (delivery : Delivery) :
    (s.after c (.complete w input draw now delivery)).db =
      (attempt delivery (completeBatch input draw now) s.db).2 := by
  simp only [Flight.after]
  split <;> (rename_i eq; rw [eq])

end Attempts

namespace Sound

variable {s : Flight} (sound : Sound c s)

include sound

theorem row_of_worker {w : Worker} (member : w ∈ s.workers) :
    ∃ b, rowOf s.db c.batchId = some b := by
  cases found : rowOf s.db c.batchId with
  | none =>
      rw [(sound.unborn found).1] at member
      cases member
  | some b => exact ⟨b, rfl⟩

/-- The worker that leaves was the only one. -/
theorem erase {w : Worker} (member : w ∈ s.workers) : s.workers.erase w = [] := by
  rw [(sound.crew w member).1, List.erase_cons_head]

theorem reroute (route : Route) (notCreating : route ≠ .creating)
    (born : rowOf s.db c.batchId = none → route = .ended) (queued : Bool) :
    Sound c { s with route := route, queued := queued } where
  rows := sound.rows
  unique := sound.unique
  crew := sound.crew
  unborn := fun missing => ⟨(sound.unborn missing).1, .inr (born missing),
    (sound.unborn missing).2.2⟩
  creating := fun same => absurd same notCreating
  born := sound.born

/-- A committed creation. -/
theorem created (missing : rowOf s.db c.batchId = none) (row : Batch) {draw : Draw}
    (own : rowCreated row = c) (pending : row.status = .pending) (small : Int4 c.totalRows)
    (fresh : ¬ Taken refKey (held row.orgId row.id) s.db.creditLedger) {route : Route}
    (notCreating : route ≠ .creating) :
    Sound c { s with db := withReservation s.db row draw, route := route } := by
  subst own
  have free : ∀ b ∈ s.db.batches, b.id ≠ row.id := by
    intro b member here
    exact lookup_eq_none.1 missing ⟨b, member, congrArg some here⟩
  obtain ⟨nobody, -, unpaid⟩ := sound.unborn missing
  have found : rowOf (withReservation s.db row draw) row.id = some row := by
    have missing : rowOf s.db row.id = none := missing
    rw [rowOf_withReservation, missing, if_pos rfl, Option.none_or]
  refine ⟨sound.rows, ?_, sound.crew, ?_, fun same => absurd same notCreating, ?_⟩
  · refine sound.unique.insert fun k key ⟨b, member, same⟩ => ?_
    obtain rfl := Option.some.inj key
    exact free b member (Option.some.inj same)
  · intro gone
    have gone : rowOf (withReservation s.db row draw) row.id = none := gone
    rw [found] at gone
    cases gone
  · intro b here
    have here : rowOf (withReservation s.db row draw) row.id = some b := here
    rw [found] at here
    obtain rfl := Option.some.inj here
    have stands : standing (withReservation s.db row draw) row.orgId row.id = _ :=
      standing_withReservation free fresh unpaid
    have status : row.status ≠ .done := by
      rw [pending]
      decide
    refine ⟨?_, fun _ => nobody, fun done => absurd done status⟩
    show RowStands _ row (standing _ row.orgId row.id)
    rw [stands]
    exact .created small (.inl pending)

theorem create {input : CreateBatchInput} {draw : Draw} {now : Date} {delivery : Delivery}
    (creating : s.route = .creating) (own : ⟨input.orgId, input.batchId, input.totalRows⟩ = c) :
    Sound c (s.after c (.create input draw now delivery)) := by
  have missing := sound.creating creating
  have ended : Sound c { s with route := .ended } :=
    sound.reroute .ended nofun (fun _ => rfl) s.queued
  rw [Flight.after]
  rcases attempt_cases delivery (createBatchWithReservation input draw now) s.db with
    eq | ⟨result, db, commits, -, eq⟩
  · rw [eq]
    exact ended
  · rcases createBatchWithReservation_commits commits with
      ⟨nothing, rfl⟩ | ⟨org, -, -, -, done, -, small, -, fresh, rfl⟩
    · rcases eq with eq | eq <;> rw [eq]
      · cases result with
        | created batch balance => exact absurd trivial nothing
        | insufficient balance shortfall => exact ended
        | orgUnavailable => exact ended
      · exact ended
    · have available := free_of_not_conflicts fresh _ rfl
      have fits : Int4 c.totalRows := by
        rw [← own]
        exact small
      rcases eq with eq | eq <;> rw [eq]
      · cases result with
        | created batch balance =>
            exact sound.created missing (input.row draw _) own rfl fits available nofun
        | insufficient balance shortfall => exact done.elim
        | orgUnavailable => exact done.elim
      · exact sound.created missing (input.row draw _) own rfl fits available nofun

/-- The queue's answer. -/
theorem enqueue (accepted reported : Bool) (enqueuing : s.route = .enqueuing) :
    Sound c (s.after c (.enqueue accepted reported)) := by
  cases reported with
  | true => exact sound.reroute .ended nofun (fun _ => rfl) _
  | false =>
      refine sound.reroute .refusing nofun (fun missing => ?_) _
      rcases (sound.unborn missing).2.1 with route | route
      · rw [enqueuing] at route
        cases route
      · rw [enqueuing] at route
        cases route

/-- A failure, by the route or by a worker that leaves. -/
theorem settle {input : FailBatchInput} {draw : Draw} {delivery : Delivery}
    (own : ⟨input.orgId, input.batchId, input.reservedCredits⟩ = c)
    (orderly : delivery ≠ .lostBefore → LacksStatus c .done s.db) {b : Batch}
    (found : rowOf s.db c.batchId = some b) {route : Route} {workers : List Worker}
    (notCreating : route ≠ .creating)
    (crew : ∀ w ∈ workers, workers = [w] ∧ rowCreated w.batch = c)
    (recrew : ∀ st, RowSound c s.workers b st → RowSound c workers b st) :
    Sound c { s with
      db := (attempt delivery (failBatch input draw) s.db).2
      route := route
      workers := workers } := by
  subst own
  have row := sound.born b found
  rcases attempt_cases delivery (failBatch input draw) s.db with
    eq | ⟨u, db, commits, effective, eq⟩
  · rw [eq]
    refine ⟨sound.rows, sound.unique, crew, ?_, fun same => absurd same notCreating, ?_⟩
    · intro missing
      rw [found] at missing
      cases missing
    · intro b' here
      obtain rfl := Option.some.inj (found.symm.trans here)
      exact recrew _ row
  · have store : (attempt delivery (failBatch input draw) s.db).2 = db := by
      rcases eq with eq | eq <;> rw [eq]
    obtain ⟨confined, stands⟩ := failBatch_standing sound.unique commits
    have found' : rowOf db input.batchId = some (b.fail input.error) := by
      rw [failBatch_row commits]
      exact congrArg _ found
    have notDone : b.status ≠ .done :=
      orderly effective b (rowOf_id found).1 (rowOf_id found).2
    rw [store]
    refine ⟨sound.rows, confined.unique, crew, ?_, fun same => absurd same notCreating, ?_⟩
    · intro missing
      have missing : rowOf db input.batchId = none := missing
      rw [found'] at missing
      cases missing
    · intro b' here
      obtain rfl := Option.some.inj (found'.symm.trans here)
      have stands : standing db input.orgId input.batchId = _ := stands
      show RowSound _ workers _ (standing db input.orgId input.batchId)
      rw [stands]
      exact ⟨row.toRowStands.fail sound.rows notDone input.error,
        fun again => absurd again (not_claimable_of_ended (.inr rfl)), nofun⟩

theorem refuse {draw : Draw} {delivery : Delivery} (refusing : s.route = .refusing)
    (orderly : Orderly c s (.refuse draw delivery)) :
    Sound c (s.after c (.refuse draw delivery)) := by
  cases found : rowOf s.db c.batchId with
  | none =>
      rcases (sound.unborn found).2.1 with route | route
      · rw [refusing] at route
        cases route
      · rw [refusing] at route
        cases route
  | some b =>
      exact sound.settle rfl orderly found nofun sound.crew
        fun _ row => row

theorem fail {w : Worker} {error : String} {draw : Draw} {delivery : Delivery}
    (member : w ∈ s.workers) (orderly : Orderly c s (.fail w error draw delivery)) :
    Sound c (s.after c (.fail w error draw delivery)) := by
  obtain ⟨b, found⟩ := sound.row_of_worker member
  have born : s.route ≠ .creating := by
    intro creating
    rw [sound.creating creating] at found
    cases found
  rw [Flight.after, sound.erase member]
  exact sound.settle (sound.crew w member).2 orderly found born (List.forall_mem_nil _)
    fun _ row => row.leave

theorem die {w : Worker} (member : w ∈ s.workers) :
    Sound c { s with workers := s.workers.erase w } := by
  rw [sound.erase member]
  refine ⟨sound.rows, sound.unique, List.forall_mem_nil _, ?_, sound.creating, ?_⟩
  · exact fun missing => ⟨rfl, (sound.unborn missing).2⟩
  · exact fun b found => (sound.born b found).leave

/-- The worker turns to failing, the database being as it was. -/
theorem stumble {w : Worker} (member : w ∈ s.workers) :
    Sound c { s with workers := ⟨w.batch, true⟩ :: s.workers.erase w } := by
  obtain ⟨b, found⟩ := sound.row_of_worker member
  rw [sound.erase member]
  refine ⟨sound.rows, sound.unique, ?_, ?_, sound.creating, ?_⟩
  · intro w' inside
    obtain rfl := List.mem_singleton.1 inside
    exact ⟨rfl, (sound.crew w member).2⟩
  · intro missing
    have missing : rowOf s.db c.batchId = none := missing
    rw [found] at missing
    cases missing
  · exact fun b found => (sound.born b found).turn member w.batch

/-- A claim that was won, by a worker that heard of it or not. -/
theorem claimed {row : Batch} (found : rowOf s.db c.batchId = some row)
    (claimable : row.status.Claimable) {db : Database}
    (confined : Confined (· = c.batchId) (some c.orgId) s.db db)
    (found' : rowOf db c.batchId = some row.claim)
    (stands : standing db c.orgId c.batchId = (standing s.db c.orgId c.batchId).claim)
    {workers : List Worker} (crew : ∀ w ∈ workers, workers = [w] ∧ w.batch = row.claim) :
    Sound c { s with db := db, workers := workers } := by
  have before := sound.born row found
  refine ⟨sound.rows, confined.unique, ?_, ?_, ?_, ?_⟩
  · intro w member
    obtain ⟨only, batch⟩ := crew w member
    refine ⟨only, ?_⟩
    rw [batch]
    exact before.own
  · intro missing
    have missing : rowOf db c.batchId = none := missing
    rw [found'] at missing
    cases missing
  · intro creating
    rw [sound.creating creating] at found
    cases found
  · intro b here
    obtain rfl := Option.some.inj (found'.symm.trans here)
    show RowSound c workers _ (standing db c.orgId c.batchId)
    rw [stands]
    refine ⟨before.toRowStands.claim claimable, ?_, nofun⟩
    intro again
    rcases again with again | again <;> cases again

theorem deliver (delivery : Delivery) : Sound c (s.after c (.deliver delivery)) := by
  obtain ⟨result, db, transaction, confined, ⟨nothing, rfl, -⟩ |
    ⟨row, found, claimable, won, found', stands⟩⟩ :=
      claimBatch_standing sound.unique c.batchId (some c.orgId)
  · cases delivery with
    | answered =>
        cases result with
        | notClaimable =>
            simp only [Flight.after, attempt, transaction]
            exact sound
        | claimed batch days => cases nothing
        | orgUnavailable batch => cases nothing
    | lostBefore => exact sound
    | lostAfter =>
        simp only [Flight.after, attempt, transaction]
        exact sound
  · have nobody := (sound.born row found).idle claimable
    have ready : ∀ workers : List Worker, (∀ w ∈ workers, workers = [w] ∧ w.batch = row.claim) →
        Sound c { s with db := db, workers := workers } :=
      fun _ crew => sound.claimed found claimable confined found' (stands c.orgId) crew
    have alone : ∀ failing, ∀ w ∈ [(⟨row.claim, failing⟩ : Worker)],
        [⟨row.claim, failing⟩] = [w] ∧ w.batch = row.claim := by
      intro failing w member
      obtain rfl := List.mem_singleton.1 member
      exact ⟨rfl, rfl⟩
    cases delivery with
    | answered =>
        cases result with
        | notClaimable => cases won
        | claimed batch days =>
            obtain rfl := Option.some.inj won
            simp only [Flight.after, attempt, transaction, nobody]
            exact ready _ (alone false)
        | orgUnavailable batch =>
            obtain rfl := Option.some.inj won
            simp only [Flight.after, attempt, transaction, nobody]
            exact ready _ (alone true)
    | lostBefore => exact sound
    | lostAfter =>
        have unheard := ready [] (List.forall_mem_nil _)
        rw [← nobody] at unheard
        simp only [Flight.after, attempt, transaction]
        exact unheard

/-- A completion by the one worker, answered or not. -/
theorem complete {w : Worker} {input : CompleteBatchInput} {draw : Draw} {now : Date}
    {delivery : Delivery} (allowed : s.Allows c (.complete w input draw now delivery))
    (orderly : Orderly c s (.complete w input draw now delivery)) :
    Sound c (s.after c (.complete w input draw now delivery)) := by
  obtain ⟨member, active, own, stored, le⟩ := allowed
  rw [Flight.after]
  rcases attempt_cases delivery (completeBatch input draw now) s.db with
    eq | ⟨u, db, commits, effective, eq⟩
  · rw [eq]
    exact sound.stumble member
  · obtain ⟨b, found⟩ := sound.row_of_worker member
    have row := sound.born b found
    rw [(sound.crew w member).2] at own
    subst own
    obtain ⟨confined, unpaid, stands⟩ := completeBatch_standing sound.unique commits
    have found' : rowOf db input.batchId = some (b.complete input now) := by
      rw [completeBatch_row commits]
      exact congrArg _ found
    have notFailed : b.status ≠ .failed := by
      intro failed
      by_cases full : input.reservedCredits ≤ input.chargedCredits
      · exact orderly effective full b (rowOf_id found).1 (rowOf_id found).2 failed
      · have back := (row.failed failed).1
        rw [unpaid (not_le.1 full)] at back
        cases back
    have open_ : ¬ b.status.Terminal := by
      rintro (done | failed)
      · rw [row.late done w member] at active
        cases active
      · exact notFailed failed
    have settled : ∀ workers : List Worker,
        (∀ v ∈ workers, workers = [v] ∧ v = ⟨w.batch, true⟩) →
        Sound ⟨input.orgId, input.batchId, input.reservedCredits⟩
          { s with db := db, workers := workers } := by
      intro workers failing
      refine ⟨sound.rows, confined.unique, ?_, ?_, ?_, ?_⟩
      · intro v inside
        obtain ⟨only, rfl⟩ := failing v inside
        exact ⟨only, (sound.crew w member).2⟩
      · intro missing
        have missing : rowOf db input.batchId = none := missing
        rw [found'] at missing
        cases missing
      · intro creating
        rw [sound.creating creating] at found
        cases found
      · intro b' here
        obtain rfl := Option.some.inj (found'.symm.trans here)
        show RowSound _ workers _ (standing db input.orgId input.batchId)
        rw [stands]
        refine ⟨row.toRowStands.complete open_ stored rfl le now,
          fun again => absurd again (not_claimable_of_ended (.inl rfl)), ?_⟩
        intro _ v inside
        rw [(failing v inside).2]
    rw [sound.erase member]
    rcases eq with eq | eq
    · rw [eq]
      exact settled [] (List.forall_mem_nil _)
    · rw [eq]
      exact settled [⟨w.batch, true⟩] (by simp)

/-- **An orderly step keeps the invariant.** -/
theorem step {a : Action} {s' : Flight} (orderly : Orderly c s a)
    (steps : Settlement.step c s a s') : Sound c s' := by
  obtain ⟨allowed, rfl⟩ := steps
  cases a with
  | create input draw now delivery => exact sound.create allowed.1 allowed.2
  | enqueue accepted reported => exact sound.enqueue accepted reported allowed.1
  | refuse draw delivery => exact sound.refuse allowed orderly
  | deliver delivery => exact sound.deliver delivery
  | stumble w => exact sound.stumble allowed.1
  | complete w input draw now delivery => exact sound.complete allowed orderly
  | fail w error draw delivery => exact sound.fail allowed.1 orderly
  | die w => exact sound.die allowed

/-! ### What the invariant says -/

theorem sameStory : SameStory c s.db := by
  intro b member here
  have row := sound.born b (sound.unique.lookup_eq member (congrArg some here))
  exact ⟨row.done, fun failed => (row.failed failed).2⟩

/-- **An orderly step takes no batch from one end to the other.** -/
theorem final {a : Action} {s' : Flight} (orderly : Orderly c s a)
    (steps : Settlement.step c s a s') : Final c s.db s'.db := by
  have after := sound.step orderly steps
  obtain ⟨allowed, rfl⟩ := steps
  intro b member here ended b' member' here' ended'
  have found : rowOf s.db c.batchId = some b := sound.unique.lookup_eq member (congrArg some here)
  have found' : rowOf (s.after c a).db c.batchId = some b' :=
    after.unique.lookup_eq member' (congrArg some here')
  have untouched : rowOf (s.after c a).db c.batchId = rowOf s.db c.batchId →
      b'.status = b.status := by
    intro same
    rw [same, found] at found'
    rw [Option.some.inj found']
  have refused : ∀ {input : FailBatchInput} {draw : Draw} {delivery : Delivery},
      input.batchId = c.batchId → (delivery ≠ .lostBefore → LacksStatus c .done s.db) →
      rowOf (attempt delivery (failBatch input draw) s.db).2 c.batchId = some b' →
      b'.status = b.status := by
    intro input draw delivery own notDone found'
    rcases failed_row own found found' with rfl | ⟨effective, rfl⟩
    · rfl
    · exact (ended.resolve_left (notDone effective b member here)).symm
  cases a with
  | create input draw now delivery =>
      rw [sound.creating allowed.1] at found
      cases found
  | enqueue accepted reported => exact untouched rfl
  | refuse draw delivery => exact refused rfl orderly found'
  | deliver delivery =>
      rw [after_deliver_db] at found'
      rcases attempt_store delivery (claimBatchForProcessing c.batchId) s.db with
        same | ⟨-, result, commits⟩
      · exact untouched (by rw [after_deliver_db, same])
      · obtain ⟨result', db, transaction, -, ⟨-, same, -⟩ | ⟨row, foundRow, claimable, -⟩⟩ :=
          claimBatch_standing sound.unique c.batchId (some c.orgId)
        · have eq := Txn.transaction_of_commits commits
          rw [transaction, same] at eq
          exact untouched (by rw [after_deliver_db, ← (Prod.mk.inj eq).2])
        · obtain rfl := Option.some.inj (foundRow.symm.trans found)
          exact absurd ended (not_terminal_of_claimable claimable)
  | stumble w => exact untouched rfl
  | complete w input draw now delivery =>
      obtain ⟨working, active, own, -, -⟩ := allowed
      rw [(sound.crew w working).2] at own
      subst own
      have row := sound.born b found
      rw [after_complete_db] at found'
      rcases completed_row rfl found found' with rfl | ⟨effective, rfl, db, commits⟩
      · rfl
      · have notDone : b.status ≠ .done := by
          intro done
          rw [row.late done w working] at active
          cases active
        have failed : b.status = .failed := ended.resolve_left notDone
        obtain ⟨-, unpaid, -⟩ := completeBatch_standing sound.unique commits
        by_cases full : input.reservedCredits ≤ input.chargedCredits
        · exact absurd failed (orderly effective full b member here)
        · rw [(row.failed failed).1] at unpaid
          exact absurd (unpaid (not_le.1 full)) nofun
  | fail w error draw delivery =>
      exact refused (congrArg Created.batchId (sound.crew w allowed.1).2) orderly found'
  | die w => exact untouched rfl

/-- A failure that takes effect on a batch that is done is seen. -/
theorem notDone_of_final (input : FailBatchInput) {draw : Draw} {delivery : Delivery}
    (own : ⟨input.orgId, input.batchId, input.reservedCredits⟩ = c)
    (final : Final c s.db (attempt delivery (failBatch input draw) s.db).2)
    (effective : delivery ≠ .lostBefore) : LacksStatus c .done s.db := by
  subst own
  intro b member here done
  have found : rowOf s.db input.batchId = some b :=
    sound.unique.lookup_eq member (congrArg some here)
  obtain ⟨db, commits⟩ := failBatch_effective input draw (sound.born b found).small s.db
  have row : rowOf db input.batchId = some (b.fail input.error) := by
    rw [failBatch_row commits, found, Option.map_some]
  rw [attempt_of_commits effective commits] at final
  have same := final b member here (.inl done) _ (rowOf_id row).1 (rowOf_id row).2 (.inr rfl)
  rw [done] at same
  cases same

/-- A completion in full that takes effect on a failed batch is seen. -/
theorem notFailed_of_final {input : CompleteBatchInput} {draw : Draw} {now : Date}
    {delivery : Delivery} (own : input.batchId = c.batchId)
    (full : input.reservedCredits ≤ input.chargedCredits)
    (final : Final c s.db (attempt delivery (completeBatch input draw now) s.db).2)
    (effective : delivery ≠ .lostBefore) : LacksStatus c .failed s.db := by
  intro b member here failed
  have found : rowOf s.db input.batchId = some b := by
    rw [own]
    exact sound.unique.lookup_eq member (congrArg some here)
  have commits : Txn.Commits (completeBatch input draw now) s.db () (s.db.completed input now) :=
    completeBatch_commits.2 (.inl ⟨full, rfl⟩)
  have row : rowOf (s.db.completed input now) input.batchId = some (b.complete input now) := by
    rw [completeBatch_row commits, found, Option.map_some]
  rw [attempt_of_commits effective commits] at final
  have same := final b member here (.inr failed) _ (rowOf_id row).1
    ((rowOf_id row).2.trans own) (.inl rfl)
  rw [failed] at same
  cases same

/-- **A step that keeps to the story is orderly.** -/
theorem orderly {a : Action} {s' : Flight} (steps : Settlement.step c s a s')
    (consistent : Consistent c s.db s'.db) : Orderly c s a := by
  obtain ⟨allowed, rfl⟩ := steps
  have final := consistent.final
  cases a with
  | create input draw now delivery => trivial
  | enqueue accepted reported => trivial
  | refuse draw delivery => exact sound.notDone_of_final (queueUnavailable c) rfl final
  | deliver delivery => trivial
  | stumble w => trivial
  | complete w input draw now delivery =>
      obtain ⟨working, -, own, -, -⟩ := allowed
      rw [(sound.crew w working).2] at own
      rw [after_complete_db] at final
      intro effective full
      exact sound.notFailed_of_final (congrArg Created.batchId own) full final effective
  | fail w error draw delivery =>
      exact sound.notDone_of_final (failInput w.batch error) (sound.crew w allowed.1).2 final
  | die w => trivial

end Sound

/-! ## Runs -/

/-- **Status and ledger tell the same story throughout a run, and an end is final, exactly
when its calls are orderly.** -/
theorem settlement_consistent_iff {s t : Flight} {tr : List (Transition Flight Action)}
    (initial : Initial c s) (run : Run (step c) s tr t) :
    (∀ e ∈ tr, Consistent c e.source.db e.target.db) ↔
      ∀ e ∈ tr, Orderly c e.source e.action := by
  refine run.guarded_iff (Sound c) (fun s _ t => Consistent c s.db t.db) ?_ ?_ ?_ initial.sound
  · intro s a t sound orderly steps
    exact sound.step orderly steps
  · intro s a t sound orderly steps
    exact ⟨sound.sameStory, (sound.step orderly steps).sameStory, sound.final orderly steps⟩
  · intro s a t sound steps consistent
    exact sound.orderly steps consistent

/-- An organisation with a hundred credits, about to upload ten rows. -/
def upload : Flight where
  db := (oneOrganization.after (fun _ => "")
    (.grant ⟨.numbered 1, 100, Js.ofString "INV-1"⟩ (drawn 1) 0)).db
  route := .creating
  queued := false
  workers := []

def tenRows : Created := ⟨.numbered 1, .numbered 2, 10⟩

theorem initial_upload : Initial tenRows upload := by
  have none_ : upload.db.batches = [] := by decide +kernel
  refine ⟨by decide, ?_, ?_, by decide +kernel, rfl, rfl, rfl⟩
  · rw [none_]
    exact .nil
  · rw [none_]
    exact List.forall_mem_nil _

/-- The row the worker reads. -/
def claimedRow : Batch :=
  { id := .numbered 2, orgId := .numbered 1, filename := "list.csv", status := .processing
    totalRows := 10, processedRows := 0, error := none
    stats := some ⟨0, true, 0, 0, 0, 0, 0, ⟨0, 0, 0, 0⟩⟩, inputObjectKey := "in"
    resultObjectKey := none, createdAt := 0, completedAt := none, expiresAt := 2592000000000 }

/-- The batch is claimed, the commit of its completion is reported as failed, and the worker
fails it. -/
def reportedAsFailed (delivery : Delivery) : List Action :=
  [.create ⟨.numbered 2, .numbered 1, "list.csv", 10, "in", ⟨0, true, 0, 0, 0, 0, 0,
      ⟨0, 0, 0, 0⟩⟩⟩ (drawn 2) 0 .answered,
    .enqueue true true,
    .deliver .answered,
    .complete ⟨claimedRow, false⟩ ⟨.numbered 2, .numbered 1, "out", 10, ⟨0, true, 0, 4, 0, 6, 0,
      ⟨4, 6, 0, 0⟩⟩, 4, 10, 30⟩ (drawn 3) 0 delivery,
    .fail ⟨claimedRow, true⟩ "processing_failed" (drawn 4) .answered]

/-- Reported as failed, and rightly so: the batch has failed and paid nothing. -/
theorem settlement_consistent_iff_lostBefore :
    ∃ tr, Run (step tenRows) upload tr
        ((reportedAsFailed .lostBefore).foldl (Flight.after tenRows) upload) ∧
      ∀ e ∈ tr, Consistent tenRows e.source.db e.target.db := by
  have executable : Executable (fun s a => s.Allows tenRows a ∧ Orderly tenRows s a)
      (Flight.after tenRows) upload (reportedAsFailed .lostBefore) := by
    decide +kernel
  obtain ⟨tr, run, orderly⟩ := executable.run_guarded
  exact ⟨tr, run, (settlement_consistent_iff initial_upload run).2 orderly⟩

/-- Reported as failed after it took effect: the batch was done for four credits, is failed,
and has paid the four. -/
theorem late_failure_contradicts :
    ¬ ∀ (c : Created) (s t : Flight) (tr : List (Transition Flight Action)), Initial c s →
      Run (step c) s tr t → SameStory c t.db := by
  intro same
  have executable : Executable (Flight.Allows tenRows) (Flight.after tenRows) upload
      (reportedAsFailed .lostAfter) := by
    decide +kernel
  obtain ⟨tr, run⟩ := executable.run
  have contradicts : ¬ SameStory tenRows
      ((reportedAsFailed .lostAfter).foldl (Flight.after tenRows) upload).db := by
    decide +kernel
  exact contradicts (same _ _ _ tr initial_upload run)

end Tozalist.Credits.Settlement
