/-
# Tozalist.Worker.Stranding -- a batch is not left in processing, while nobody is stuck

The runs of one batch from its accepted job on: deliveries (at least one, and any number
more), executions that work, are let down by their streams or die, and the deletion of
the batch by its organisation.  Database calls succeed.

A state is `Quiescent` when no job is queued and no execution can take a step of its own.
`never_stranded`: in a run in which no worker dies while the batch is in processing, and no
execution gets stuck on a stream that has failed, a quiescent batch is done or failed and
its reservation is settled.  A batch in processing is refused by the next claim and by the
delete endpoint, so the death of a worker is enough to strand it (`death_strands`).

A stream that fails while nobody waits for it ends the worker: nothing handles the `error` of
the source, and the promise of the upload is awaited after the loop only, so Node ends the
process for an unhandled rejection.  Such a failure is a `die` here.  `inputFails` and
`uploadFails` let the execution go on besides, as it would in a process that outlives them.
-/
import Tozalist.Credits.Settlement
import Tozalist.Worker.Execution

namespace Tozalist.Worker

set_option autoImplicit false

open Credits Db
open Credits.Settlement (RowStands not_terminal_of_claimable)
open Theory (Run StepOf Executable Txn Transition)
open Theory.Table

/-! ## The system -/

structure Dispatch where
  db : Database
  /-- Deliveries still to come. -/
  jobs : ℕ
  executions : List Execution

inductive Action where
  | deliver
  | redeliver
  | work (e : Execution) (w : Work)
  | complete (e : Execution) (input : CompleteBatchInput) (draw : Draw) (now : Date)
  | fail (e : Execution) (error : String) (draw : Draw)
  /-- the job returns -/
  | leave (e : Execution)
  | inputFails (e : Execution)
  | uploadFails (e : Execution)
  /-- another awaited call in the loop throws -/
  | throws (e : Execution)
  /-- the worker dies, and the queue delivers the job again -/
  | die (e : Execution)
  | delete (orgId : Uuid) (draw : Draw)

variable (highWaterMark : ℕ) (c : Created)

/-- One execution goes on as another. -/
def Dispatch.update (s : Dispatch) (e e' : Execution) : Dispatch :=
  { s with executions := e' :: s.executions.erase e }

def Dispatch.after (s : Dispatch) : Action → Dispatch
  | .deliver =>
      match Txn.transaction (claimBatchForProcessing c.batchId) s.db with
      | (.ok (.claimed batch _), db) =>
          ⟨db, s.jobs - 1, Execution.claimed batch :: s.executions⟩
      | (.ok (.orgUnavailable batch), db) =>
          ⟨db, s.jobs - 1,
            { Execution.claimed batch with phase := .failing "org_unavailable" } :: s.executions⟩
      | (_, db) => ⟨db, s.jobs - 1, s.executions⟩
  | .redeliver => { s with jobs := s.jobs + 1 }
  | .work e w =>
      match e.proceed highWaterMark w with
      | some e' => s.update e e'
      | none => s
  | .complete e input draw now =>
      match Txn.transaction (completeBatch input draw now) s.db with
      | (.ok _, db) => { s with db := db }.update e { e with phase := .ended }
      | (.error _, db) => { s with db := db }.update e { e with phase := processingFailed }
  | .fail e error draw =>
      { s with db := (Txn.transaction (failBatch (failInput e.batch error) draw) s.db).2 }.update e
        { e with phase := .ended }
  | .leave e => { s with executions := s.executions.erase e }
  | .inputFails e => s.update e { e with source := .failed }
  | .uploadFails e => s.update e { e with upload := .failed }
  | .throws e => s.update e { e with phase := processingFailed }
  | .die e => { s with jobs := s.jobs + 1, executions := s.executions.erase e }
  | .delete orgId draw =>
      { s with db := (Txn.transaction (deleteBatchForOrg c.batchId orgId draw) s.db).2 }

/-- When an action can happen. -/
def Dispatch.Allows (s : Dispatch) : Action → Prop
  | .deliver => 0 < s.jobs
  | .redeliver => True
  | .work e w => e ∈ s.executions ∧ (e.proceed highWaterMark w).isSome = true
  | .complete e input _ _ =>
      e ∈ s.executions ∧ e.phase = .completing ∧
        ⟨input.orgId, input.batchId, input.reservedCredits⟩ = rowCreated e.batch ∧
        input.stats.charged = input.chargedCredits ∧
        input.chargedCredits ≤ input.reservedCredits
  | .fail e error _ => e ∈ s.executions ∧ e.phase = .failing error
  | .leave e => e ∈ s.executions ∧ e.phase = .ended
  | .inputFails e => e ∈ s.executions ∧ e.source = .open
  | .uploadFails e => e ∈ s.executions ∧ e.upload = .running
  | .throws e => e ∈ s.executions ∧ e.phase.inLoop = true
  | .die e => e ∈ s.executions
  | .delete _ _ => True

def step : Dispatch → Action → Dispatch → Prop :=
  StepOf (Dispatch.Allows highWaterMark) (Dispatch.after highWaterMark c)

instance Dispatch.Allows.decidable (s : Dispatch) : ∀ a, Decidable (s.Allows highWaterMark a)
  | .deliver => inferInstanceAs (Decidable (_ < _))
  | .redeliver => .isTrue trivial
  | .work _ _ => inferInstanceAs (Decidable (_ ∧ _))
  | .complete _ _ _ _ => inferInstanceAs (Decidable (_ ∧ _))
  | .fail _ _ _ => inferInstanceAs (Decidable (_ ∧ _))
  | .leave _ => inferInstanceAs (Decidable (_ ∧ _))
  | .inputFails _ => inferInstanceAs (Decidable (_ ∧ _))
  | .uploadFails _ => inferInstanceAs (Decidable (_ ∧ _))
  | .throws _ => inferInstanceAs (Decidable (_ ∧ _))
  | .die _ => inferInstanceAs (Decidable (_ ∈ _))
  | .delete _ _ => .isTrue trivial

/-- The batch as its creation left it, with its job accepted. -/
structure Initial (s : Dispatch) : Prop where
  rows : 1 ≤ c.totalRows
  unique : Unique rowKey s.db.batches
  row : ∃ b, rowOf s.db c.batchId = some b ∧ b.status = .pending ∧ rowCreated b = c ∧
    standing s.db c.orgId c.batchId = ⟨some .pending, false, -c.totalRows⟩
  small : Int4 c.totalRows
  jobs : 0 < s.jobs
  executions : s.executions = []

/-- The steps an execution takes itself; the others are taken by its surroundings. -/
def Action.OfExecution : Action → Prop
  | .work _ _ => True
  | .complete _ _ _ _ => True
  | .fail _ _ _ => True
  | .leave _ => True
  | _ => False

/-- No job is queued, and no execution can take a further step. -/
def Quiescent (s : Dispatch) : Prop :=
  s.jobs = 0 ∧ ∀ a : Action, a.OfExecution → ¬ s.Allows highWaterMark a

theorem quiescent_of_nobody {s : Dispatch} (jobs : s.jobs = 0) (nobody : s.executions = []) :
    Quiescent highWaterMark s := by
  refine ⟨jobs, ?_⟩
  intro a own allowed
  have absent : ∀ e, e ∉ s.executions := by
    intro e inside
    rw [nobody] at inside
    cases inside
  cases a with
  | work e w => exact absent e allowed.1
  | complete e input draw now => exact absent e allowed.1
  | fail e error draw => exact absent e allowed.1
  | leave e => exact absent e allowed.1
  | deliver => exact own
  | redeliver => exact own
  | inputFails e => exact own
  | uploadFails e => exact own
  | throws e => exact own
  | die e => exact own
  | delete orgId draw => exact own

/-- The batch has reached its end, and its reservation is settled. -/
def Settled (s : Dispatch) : Prop :=
  ∀ b ∈ s.db.batches, b.id = c.batchId →
    (b.status = .done ∧ ∃ stats ∈ b.stats,
      net c.orgId c.batchId s.db.creditLedger = -(stats.charged : Int)) ∨
    (b.status = .failed ∧ net c.orgId c.batchId s.db.creditLedger = 0)

/-- **Nobody is stranded**: a quiescent batch is settled. -/
def NotStranded (s : Dispatch) : Prop := Quiescent highWaterMark s → Settled c s

/-- A worker dies only when the batch is not in processing, and no step leaves an execution
waiting in vain. -/
def Careful (s : Dispatch) : Action → Prop
  | .die _ => ∀ b ∈ s.db.batches, b.id = c.batchId → b.status ≠ .processing
  | .work e w => ∀ e' ∈ e.proceed highWaterMark w, ¬ e'.Stuck
  | .inputFails e => ¬ { e with source := .failed }.Stuck
  | .uploadFails e => ¬ { e with upload := .failed }.Stuck
  | _ => True

instance Careful.decidable (s : Dispatch) : ∀ a, Decidable (Careful highWaterMark c s a)
  | .die _ => inferInstanceAs (Decidable (∀ b ∈ s.db.batches, b.id = c.batchId → _))
  | .work e w => inferInstanceAs (Decidable (∀ e' ∈ e.proceed highWaterMark w, ¬ e'.Stuck))
  | .inputFails _ => inferInstanceAs (Decidable (¬ _))
  | .uploadFails _ => inferInstanceAs (Decidable (¬ _))
  | .deliver => .isTrue trivial
  | .redeliver => .isTrue trivial
  | .complete .. => .isTrue trivial
  | .fail .. => .isTrue trivial
  | .leave _ => .isTrue trivial
  | .throws _ => .isTrue trivial
  | .delete _ _ => .isTrue trivial

/-! ## The invariant -/

/-- A row of the batch, with who is working on it: nobody before its claim, when a job is
queued; one execution that can go on while it is in processing; nobody but executions
that are through after its end. -/
structure RowWorked (s : Dispatch) (b : Batch) : Prop
    extends RowStands c b (standing s.db c.orgId c.batchId) where
  waiting : b.status.Claimable → 0 < s.jobs ∧ s.executions = []
  working : b.status = .processing → ∃ e, s.executions = [e] ∧ e.phase ≠ .ended
  through : b.status.Terminal → ∀ e ∈ s.executions, e.phase = .ended

structure Sound (s : Dispatch) : Prop where
  rows : 1 ≤ c.totalRows
  unique : Unique rowKey s.db.batches
  crew : ∀ e ∈ s.executions, s.executions = [e]
  able : ∀ e ∈ s.executions, rowCreated e.batch = c ∧ e.Wired ∧ ¬ e.Stuck
  present : ∀ b, rowOf s.db c.batchId = some b → RowWorked c s b
  absent : rowOf s.db c.batchId = none → ∀ e ∈ s.executions, e.phase = .ended

variable {c}

theorem Initial.sound {s : Dispatch} (initial : Initial c s) : Sound c s := by
  obtain ⟨b, found, pending, rfl, stands⟩ := initial.row
  have nobody : ∀ {P : Execution → Prop}, ∀ e ∈ s.executions, P e := by
    intro P e member
    rw [initial.executions] at member
    cases member
  refine ⟨initial.rows, initial.unique, nobody, nobody, ?_, fun _ => nobody⟩
  intro b' here
  obtain rfl := Option.some.inj (found.symm.trans here)
  have row : RowStands (rowCreated b) b (standing s.db (rowCreated b).orgId
      (rowCreated b).batchId) := by
    rw [stands, ← pending]
    exact .created initial.small (.inl pending)
  refine ⟨row, fun _ => ⟨initial.jobs, initial.executions⟩, ?_, fun _ => nobody⟩
  intro processing
  rw [pending] at processing
  cases processing

namespace Sound

variable {s : Dispatch} (sound : Sound c s)

include sound

theorem erase {e : Execution} (member : e ∈ s.executions) : s.executions.erase e = [] := by
  rw [sound.crew e member, List.erase_cons_head]

/-- More deliveries. -/
theorem redeliver : Sound c { s with jobs := s.jobs + 1 } :=
  ⟨sound.rows, sound.unique, sound.crew, sound.able,
    fun b found =>
      have row := sound.present b found
      ⟨row.toRowStands, fun claimable => ⟨Nat.succ_pos _, (row.waiting claimable).2⟩,
        row.working, row.through⟩,
    sound.absent⟩

/-- An execution goes on, the database being as it was. -/
theorem update {e e' : Execution} (member : e ∈ s.executions) (batch : e'.batch = e.batch)
    (wired : e'.Wired) (notStuck : ¬ e'.Stuck) (through : e'.phase = .ended ↔ e.phase = .ended) :
    Sound c (s.update e e') := by
  have alone : (s.update e e').executions = [e'] := by
    rw [Dispatch.update, sound.erase member]
  have only : ∀ d ∈ (s.update e e').executions, d = e' := by
    intro d inside
    rw [alone] at inside
    exact List.mem_singleton.1 inside
  refine ⟨sound.rows, sound.unique, ?_, ?_, ?_, ?_⟩
  · intro d inside
    rw [only d inside]
    exact alone
  · intro d inside
    rw [only d inside, batch]
    exact ⟨(sound.able e member).1, wired, notStuck⟩
  · intro b found
    have row := sound.present b found
    refine ⟨row.toRowStands, ?_, ?_, ?_⟩
    · intro claimable
      rw [(row.waiting claimable).2] at member
      cases member
    · intro processing
      obtain ⟨d, here, active⟩ := row.working processing
      rw [here] at member
      obtain rfl := List.mem_singleton.1 member
      exact ⟨e', alone, fun done => active (through.1 done)⟩
    · intro ended d inside
      rw [only d inside]
      exact through.2 (row.through ended e member)
  · intro missing d inside
    rw [only d inside]
    exact through.2 (sound.absent missing e member)

theorem work {e : Execution} {w : Work} (member : e ∈ s.executions)
    (careful : Careful highWaterMark c s (.work e w)) :
    Sound c (s.after highWaterMark c (.work e w)) := by
  simp only [Dispatch.after]
  split
  · rename_i e' proceeds
    obtain ⟨wired, batch, active⟩ := (sound.able e member).2.1.proceed proceeds
    refine sound.update member batch wired (careful e' proceeds) ⟨fun ended => ?_, fun ended => ?_⟩
    · exact absurd ended active
    · rw [Execution.proceed_ended ended] at proceeds
      cases proceeds
  · exact sound

/-- A delivery that finds nothing to claim. -/
theorem lost (idle : ∀ b, rowOf s.db c.batchId = some b → ¬ b.status.Claimable) (jobs : ℕ) :
    Sound c { s with jobs := jobs } :=
  ⟨sound.rows, sound.unique, sound.crew, sound.able,
    fun b found =>
      have row := sound.present b found
      ⟨row.toRowStands, fun claimable => absurd claimable (idle b found), row.working,
        row.through⟩,
    sound.absent⟩

/-- A delivery that claims the batch. -/
theorem claimed {row : Batch} (found : rowOf s.db c.batchId = some row)
    (claimable : row.status.Claimable) {db : Database}
    (confined : Confined (· = c.batchId) (some c.orgId) s.db db)
    (found' : rowOf db c.batchId = some row.claim)
    (stands : standing db c.orgId c.batchId = (standing s.db c.orgId c.batchId).claim)
    {e : Execution} (batch : e.batch = row.claim) (wired : e.Wired) (notStuck : ¬ e.Stuck)
    (active : e.phase ≠ .ended) (jobs : ℕ) : Sound c ⟨db, jobs, [e]⟩ := by
  have before := sound.present row found
  have only : ∀ d ∈ [e], d = e := fun d inside => List.mem_singleton.1 inside
  refine ⟨sound.rows, confined.unique, ?_, ?_, ?_, ?_⟩
  · intro d inside
    rw [only d inside]
  · intro d inside
    rw [only d inside, batch]
    exact ⟨before.own, wired, notStuck⟩
  · intro b here
    obtain rfl := Option.some.inj (found'.symm.trans here)
    refine ⟨?_, ?_, fun _ => ⟨e, rfl, active⟩, ?_⟩
    · show RowStands c _ (standing db c.orgId c.batchId)
      rw [stands]
      exact before.toRowStands.claim claimable
    · intro again
      rcases again with again | again <;> cases again
    · intro ended
      rcases ended with ended | ended <;> cases ended
  · intro missing
    have missing : rowOf db c.batchId = none := missing
    rw [found'] at missing
    cases missing

theorem deliver : Sound c (s.after highWaterMark c .deliver) := by
  simp only [Dispatch.after]
  obtain ⟨result, db, transaction, confined, ⟨nothing, rfl, idle⟩ |
    ⟨row, found, claimable, won, found', stands⟩⟩ :=
      claimBatch_standing sound.unique c.batchId (some c.orgId)
  · rw [transaction]
    cases result with
    | notClaimable => exact sound.lost idle _
    | claimed batch days => cases nothing
    | orgUnavailable batch => cases nothing
  · have nobody := ((sound.present row found).waiting claimable).2
    rw [transaction, nobody]
    cases result with
    | notClaimable => cases won
    | claimed batch days =>
        obtain rfl := Option.some.inj won
        refine sound.claimed found claimable confined found' (stands c.orgId) rfl ?_ id ?_ _
        · exact ⟨nofun, nofun⟩
        · exact nofun
    | orgUnavailable batch =>
        obtain rfl := Option.some.inj won
        refine sound.claimed found claimable confined found' (stands c.orgId) rfl ?_ id ?_ _
        · exact ⟨nofun, nofun⟩
        · exact nofun

/-- An execution at work has the batch in processing. -/
theorem processing {e : Execution} (member : e ∈ s.executions) (active : e.phase ≠ .ended) :
    ∃ b, rowOf s.db c.batchId = some b ∧ b.status = .processing := by
  cases found : rowOf s.db c.batchId with
  | none => exact absurd (sound.absent found e member) active
  | some b =>
      have row := sound.present b found
      refine ⟨b, rfl, ?_⟩
      cases status : b.status with
      | processing => rfl
      | pending =>
          rw [(row.waiting (.inl status)).2] at member
          cases member
      | validating =>
          rw [(row.waiting (.inr status)).2] at member
          cases member
      | done => exact absurd (row.through (.inl status) e member) active
      | failed => exact absurd (row.through (.inr status) e member) active

/-- The batch reaches its end, and the execution is through. -/
theorem settle {e : Execution} (member : e ∈ s.executions) {db : Database}
    (unique : Unique rowKey db.batches) {b : Batch} (found : rowOf db c.batchId = some b)
    (row : RowStands c b (standing db c.orgId c.batchId)) (ended : b.status.Terminal) :
    Sound c (({ s with db := db } : Dispatch).update e { e with phase := .ended }) := by
  have alone : ({ s with db := db } : Dispatch).executions.erase e = [] := sound.erase member
  rw [Dispatch.update, alone]
  have only : ∀ d ∈ [({ e with phase := .ended } : Execution)], d = { e with phase := .ended } :=
    fun d inside => List.mem_singleton.1 inside
  refine ⟨sound.rows, unique, ?_, ?_, ?_, ?_⟩
  · intro d inside
    rw [only d inside]
  · intro d inside
    rw [only d inside]
    exact ⟨(sound.able e member).1, ⟨nofun, nofun⟩, id⟩
  · intro b' here
    obtain rfl := Option.some.inj (found.symm.trans here)
    refine ⟨row, fun claimable => absurd ended (not_terminal_of_claimable claimable), ?_, ?_⟩
    · intro processing
      rcases ended with ended | ended <;> rw [processing] at ended <;> cases ended
    · intro _ d inside
      rw [only d inside]
  · intro _ d inside
    rw [only d inside]

theorem complete {e : Execution} {input : CompleteBatchInput} {draw : Draw} {now : Date}
    (allowed : s.Allows highWaterMark (.complete e input draw now)) :
    Sound c (s.after highWaterMark c (.complete e input draw now)) := by
  obtain ⟨member, completing, own, stored, le⟩ := allowed
  have active : e.phase ≠ .ended := by
    rw [completing]
    decide
  simp only [Dispatch.after]
  rcases Txn.transaction_cases (completeBatch input draw now) s.db with
    ⟨u, db, commits, eq⟩ | ⟨err, -, eq⟩
  · rw [eq]
    obtain ⟨b, found, processing⟩ := sound.processing member active
    have open_ : ¬ b.status.Terminal := by
      rw [processing]
      decide
    have row := (sound.present b found).toRowStands
    rw [(sound.able e member).1] at own
    subst own
    obtain ⟨confined, -, stands⟩ := completeBatch_standing sound.unique commits
    have found' : rowOf db input.batchId = some (b.complete input now) := by
      rw [completeBatch_row commits]
      exact congrArg _ found
    refine sound.settle member confined.unique found' ?_ (.inl rfl)
    show RowStands _ _ (standing db input.orgId input.batchId)
    rw [stands]
    exact row.complete open_ stored rfl le now
  · rw [eq]
    refine sound.update member rfl ⟨?_, ?_⟩ id ⟨?_, fun ended => absurd ended active⟩
    all_goals
      intro is
      cases is

theorem fail {e : Execution} {error : String} {draw : Draw} (member : e ∈ s.executions)
    (failing : e.phase = .failing error) :
    Sound c (s.after highWaterMark c (.fail e error draw)) := by
  have active : e.phase ≠ .ended := by
    rw [failing]
    nofun
  obtain ⟨b, found, processing⟩ := sound.processing member active
  have row := (sound.present b found).toRowStands
  have notDone : b.status ≠ .done := by
    rw [processing]
    decide
  have own := (sound.able e member).1
  obtain ⟨db, commits⟩ := failBatch_effective (failInput e.batch error) draw
    (by rw [← own] at row; exact row.small) s.db
  simp only [Dispatch.after, Txn.transaction_of_commits commits]
  subst own
  obtain ⟨confined, stands⟩ := failBatch_standing sound.unique commits
  have found' : rowOf db e.batch.id = some (b.fail error) := by
    rw [show e.batch.id = (failInput e.batch error).batchId from rfl, failBatch_row commits]
    exact congrArg _ found
  refine sound.settle member confined.unique found' ?_ (.inr rfl)
  have stands : standing db e.batch.orgId e.batch.id = _ := stands
  show RowStands _ _ (standing db e.batch.orgId e.batch.id)
  rw [stands]
  exact row.fail sound.rows notDone error

/-- An execution goes, while the batch is not in processing. -/
theorem go {e : Execution} (member : e ∈ s.executions)
    (past : ∀ b, rowOf s.db c.batchId = some b → b.status ≠ .processing) (jobs : ℕ)
    (more : s.jobs ≤ jobs) :
    Sound c { s with jobs := jobs, executions := s.executions.erase e } := by
  rw [sound.erase member]
  refine ⟨sound.rows, sound.unique, List.forall_mem_nil _, List.forall_mem_nil _, ?_,
    fun _ => List.forall_mem_nil _⟩
  intro b found
  have row := sound.present b found
  exact ⟨row.toRowStands, fun claimable => ⟨lt_of_lt_of_le (row.waiting claimable).1 more, rfl⟩,
    fun processing => absurd processing (past b found), fun _ => List.forall_mem_nil _⟩

theorem leave {e : Execution} (member : e ∈ s.executions) (ended : e.phase = .ended) :
    Sound c { s with executions := s.executions.erase e } := by
  refine sound.go member (fun b found processing => ?_) s.jobs le_rfl
  obtain ⟨d, here, active⟩ := (sound.present b found).working processing
  rw [here] at member
  obtain rfl := List.mem_singleton.1 member
  exact active ended

theorem die {e : Execution} (member : e ∈ s.executions)
    (careful : Careful highWaterMark c s (.die e)) :
    Sound c { s with jobs := s.jobs + 1, executions := s.executions.erase e } :=
  sound.go member (fun b found => careful b (rowOf_id found).1 (rowOf_id found).2) _
    (Nat.le_succ _)

theorem inputFails {e : Execution} (member : e ∈ s.executions)
    (careful : Careful highWaterMark c s (.inputFails e)) :
    Sound c (s.update e { e with source := .failed }) := by
  have wired := (sound.able e member).2.1
  exact sound.update member rfl ⟨fun _ => nofun, wired.upload⟩ careful Iff.rfl

theorem uploadFails {e : Execution} (member : e ∈ s.executions)
    (careful : Careful highWaterMark c s (.uploadFails e)) :
    Sound c (s.update e { e with upload := .failed }) := by
  have wired := (sound.able e member).2.1
  exact sound.update member rfl ⟨wired.source, fun _ => .inr rfl⟩ careful Iff.rfl

theorem throws {e : Execution} (member : e ∈ s.executions) (looping : e.phase.inLoop = true) :
    Sound c (s.update e { e with phase := processingFailed }) :=
  sound.update member rfl ⟨nofun, nofun⟩ id
    ⟨nofun, fun ended => absurd ended (Execution.ne_ended looping)⟩

/-- The organisation deletes the batch, unless it is in processing. -/
theorem delete (orgId : Uuid) (draw : Draw) :
    Sound c { s with
      db := (Txn.transaction (deleteBatchForOrg c.batchId orgId draw) s.db).2 } := by
  rcases Txn.transaction_store (deleteBatchForOrg c.batchId orgId draw) s.db with
    same | ⟨result, commits⟩
  · rw [same]
    exact sound
  rcases deleteBatch_standing sound.unique commits with
    same | ⟨row, found, -, confined, gone⟩
  · rw [same]
    exact sound
  have nobody : ∀ e ∈ s.executions, e.phase = .ended := by
    have worked := sound.present row found
    rcases gone with ⟨ended, -⟩ | ⟨claimable, -⟩
    · exact worked.through ended
    · rw [(worked.waiting claimable).2]
      exact List.forall_mem_nil _
  refine ⟨sound.rows, confined.unique, sound.crew, sound.able, ?_, fun _ => nobody⟩
  intro b still
  have none_ : (standing (Txn.transaction (deleteBatchForOrg c.batchId orgId draw) s.db).2 orgId
      c.batchId).status = none := by
    rcases gone with ⟨-, stands⟩ | ⟨-, stands⟩ <;> (rw [stands]; rfl)
  have status : (standing _ orgId c.batchId).status = some b.status :=
    congrArg (Option.map fun b : Batch => b.status) still
  rw [none_] at status
  cases status

/-- **Every careful step keeps the invariant.** -/
theorem step {a : Action} {s' : Dispatch} (careful : Careful highWaterMark c s a)
    (steps : Worker.step highWaterMark c s a s') : Sound c s' := by
  obtain ⟨allowed, rfl⟩ := steps
  cases a with
  | deliver => exact sound.deliver highWaterMark
  | redeliver => exact sound.redeliver
  | work e w => exact sound.work highWaterMark allowed.1 careful
  | complete e input draw now => exact sound.complete highWaterMark allowed
  | fail e error draw => exact sound.fail highWaterMark allowed.1 allowed.2
  | leave e => exact sound.leave allowed.1 allowed.2
  | inputFails e => exact sound.inputFails highWaterMark allowed.1 careful
  | uploadFails e => exact sound.uploadFails highWaterMark allowed.1 careful
  | throws e => exact sound.throws allowed.1 allowed.2
  | die e => exact sound.die highWaterMark allowed careful
  | delete orgId draw => exact sound.delete orgId draw

/-- **An execution of a batch in processing can take a step.** -/
theorem can_step {e : Execution} (member : e ∈ s.executions) (active : e.phase ≠ .ended) :
    ∃ a : Action, a.OfExecution ∧ s.Allows highWaterMark a := by
  obtain ⟨own, wired, notStuck⟩ := sound.able e member
  by_cases completing : e.phase = .completing
  · let stats : BatchStats := ⟨0, false, 0, 0, 0, 0, 0, ⟨0, 0, 0, 0⟩⟩
    let input : CompleteBatchInput :=
      { batchId := e.batch.id, orgId := e.batch.orgId, resultObjectKey := "", processedRows := 0
        stats := stats, chargedCredits := 0, reservedCredits := e.batch.totalRows
        retentionDays := 0 }
    exact ⟨.complete e input ⟨0, e.batch.id, e.batch.id, e.batch.id⟩ 0, trivial, member, completing,
      rfl, rfl, Nat.zero_le _⟩
  · by_cases failing : ∃ error, e.phase = .failing error
    · obtain ⟨error, failing⟩ := failing
      exact ⟨.fail e error ⟨0, e.batch.id, e.batch.id, e.batch.id⟩, trivial, member, failing⟩
    · have notFailing : ∀ error, e.phase ≠ .failing error := fun error h => failing ⟨error, h⟩
      obtain ⟨w, able⟩ := Execution.proceeds highWaterMark wired notStuck completing notFailing
        active
      exact ⟨.work e w, trivial, member, able⟩

theorem notStranded : NotStranded highWaterMark c s := by
  intro quiescent b member here
  have row := sound.present b (sound.unique.lookup_eq member (congrArg some here))
  have notClaimable : ¬ b.status.Claimable := by
    intro claimable
    have queued := (row.waiting claimable).1
    rw [quiescent.1] at queued
    exact lt_irrefl 0 queued
  cases status : b.status with
  | pending => exact absurd (.inl status) notClaimable
  | validating => exact absurd (.inr status) notClaimable
  | processing =>
      obtain ⟨e, only, active⟩ := row.working status
      have inside : e ∈ s.executions := by
        rw [only]
        exact List.mem_singleton.2 rfl
      obtain ⟨a, own, allowed⟩ := sound.can_step highWaterMark inside active
      exact absurd allowed (quiescent.2 a own)
  | done => exact .inl ⟨rfl, row.done status⟩
  | failed => exact .inr ⟨rfl, (row.failed status).2⟩

end Sound

/-! ## Runs -/

/-- **No batch is stranded in a run in which nobody dies at work and nobody gets stuck.** -/
theorem never_stranded {s t : Dispatch} {tr : List (Transition Dispatch Action)}
    (initial : Initial c s) (run : Run (step highWaterMark c) s tr t)
    (careful : ∀ e ∈ tr, Careful highWaterMark c e.source e.action) :
    NotStranded highWaterMark c t ∧
      ∀ e ∈ tr, NotStranded highWaterMark c e.source ∧ NotStranded highWaterMark c e.target := by
  have keep : ∀ s a t, Sound c s → Careful highWaterMark c s a →
      Worker.step highWaterMark c s a t → Sound c t :=
    fun s a t sound guard steps => sound.step highWaterMark guard steps
  obtain ⟨here, before⟩ := run.invariant_of_guarded keep careful initial.sound
  exact ⟨here.notStranded highWaterMark, fun e member =>
    ⟨(before e member).1.notStranded highWaterMark, (before e member).2.notStranded highWaterMark⟩⟩

/-! ### One batch of ten rows -/

open Credits.Settlement (tenRows claimedRow upload)

/-- The batch is created and its job accepted. -/
def accepted : Dispatch where
  db := (upload.after tenRows (.create ⟨.numbered 2, .numbered 1, "list.csv", 10, "in",
    ⟨0, true, 0, 0, 0, 0, 0, ⟨0, 0, 0, 0⟩⟩⟩ (drawn 2) 0 .answered)).db
  jobs := 1
  executions := []

theorem initial_accepted : Initial tenRows accepted := by
  have rows : accepted.db.batches = [{ claimedRow with status := .pending }] := by decide +kernel
  refine ⟨by decide, ?_, ⟨{ claimedRow with status := .pending }, ?_, rfl, rfl, ?_⟩, by decide,
    by decide, rfl⟩
  · rw [rows]
    exact List.pairwise_singleton _ _
  · rw [rowOf, rows]
    decide +kernel
  · decide +kernel

/-- The execution of the claim. -/
def working : Execution := Execution.claimed claimedRow

/-- The upload fails while it is awaited, and the batch fails. -/
def awaitedUploadFails : List Action :=
  let reading : Execution := { working with phase := .reading, source := .open, upload := .running }
  let awaiting : Execution :=
    { working with phase := .uploading, source := .ended, upload := .running, buffered := 40 }
  [.deliver,
    .work working .layout,
    .work { working with phase := .opening, upload := .running } (.open true),
    .work reading (.arrive 1),
    .work { reading with available := 1 } (.next [40]),
    .work { reading with phase := .writing [40] false } .write,
    .work { reading with phase := .writing [] false, buffered := 40 } .wrote,
    .work { reading with buffered := 40 } .close,
    .work { reading with buffered := 40, source := .ended } (.last []),
    .work { awaiting with phase := .writing [] true } .wrote,
    .uploadFails awaiting,
    .work { awaiting with upload := .failed } .awaitUpload,
    .fail { awaiting with upload := .failed, phase := processingFailed } "processing_failed"
      (drawn 3),
    .leave { awaiting with upload := .failed, phase := .ended }]

theorem never_stranded_uploadFails :
    NotStranded 16384 tenRows
      (awaitedUploadFails.foldl (Dispatch.after 16384 tenRows) accepted) := by
  have executable : Executable (fun s a => s.Allows 16384 a ∧ Careful 16384 tenRows s a)
      (Dispatch.after 16384 tenRows) accepted awaitedUploadFails := by
    decide +kernel
  obtain ⟨tr, run, careful⟩ := executable.run_guarded
  exact (never_stranded 16384 initial_accepted run careful).1

/-- The worker dies after its claim, and the job is delivered again. -/
def diesAtWork : List Action := [.deliver, .die working, .deliver]

/-- The second delivery finds nothing to claim, and the batch stays in processing. -/
theorem death_strands :
    ¬ ∀ (c : Created) (s t : Dispatch) (tr : List (Transition Dispatch Action)), Initial c s →
      Run (step 16384 c) s tr t → NotStranded 16384 c t := by
  intro settled
  have executable : Executable (Dispatch.Allows 16384) (Dispatch.after 16384 tenRows) accepted
      diesAtWork := by
    decide +kernel
  obtain ⟨tr, run⟩ := executable.run
  have jobs : (diesAtWork.foldl (Dispatch.after 16384 tenRows) accepted).jobs = 0 := by
    decide +kernel
  have nobody : (diesAtWork.foldl (Dispatch.after 16384 tenRows) accepted).executions = [] := by
    decide +kernel
  have left : ∃ b ∈ (diesAtWork.foldl (Dispatch.after 16384 tenRows) accepted).db.batches,
      b.id = tenRows.batchId ∧ b.status = .processing := by
    decide +kernel
  obtain ⟨b, member, here, status⟩ := left
  rcases settled _ _ _ tr initial_accepted run (quiescent_of_nobody 16384 jobs nobody) b member
    here with ⟨done, -⟩ | ⟨failed, -⟩
  · rw [status] at done
    cases done
  · rw [status] at failed
    cases failed

end Tozalist.Worker
