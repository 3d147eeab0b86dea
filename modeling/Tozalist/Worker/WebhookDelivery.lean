/-
# Tozalist.Worker.WebhookDelivery -- the attempts of one delivery, and its copies

`processDelivery` of `apps/worker/src/webhooks/processor.ts`: an execution loads the delivery,
sends the request, and records what came of it.  The queue delivers a job at least once, so
any number of executions of one delivery may overlap; the number of an attempt is taken from
the row that was loaded, and the record is written to the row as it is by then.

* `Kept` -- what the row says about its history;
* `Absorbs` -- a delivery that is through stays as it is;
* `history_iff` -- both hold along a run exactly when no execution records an attempt after
  another has recorded one since its load.
-/
import Tozalist.Db.Webhooks
import Tozalist.Shared.Webhooks
import Tozalist.Theory.Run

namespace Tozalist.Worker

set_option autoImplicit false

open Db (Uuid Date AttemptRecord DeliveryOutcome WebhookDelivery WebhookDatabase DeliveryInput
  DeliveryForProcessing getDeliveryForProcessing recordDeliveryAttempt)
open Shared (webhookMaxAttempts webhookRetryScheduleMs)
open Theory (Run StepOf Transition)

/-! ## One attempt -/

/-- `FailureCategory`. -/
inductive FailureCategory where
  | ssrfBlocked
  | redirectRefused
  | timeout
  | networkError
  | httpError
  deriving DecidableEq, Repr

def FailureCategory.name : FailureCategory → String
  | .ssrfBlocked => "ssrf_blocked"
  | .redirectRefused => "redirect_refused"
  | .timeout => "timeout"
  | .networkError => "network_error"
  | .httpError => "http_error"

/-- `SsrfCheck`, of the endpoint's host at delivery time. -/
inductive SsrfCheck where
  | blocked
  | approved (addresses : List String)
  deriving DecidableEq, Repr

/-- `WebhookPostResult`. -/
inductive WebhookPostResult where
  | response (statusCode : ℕ)
  | redirect (statusCode : ℕ)
  | timeout
  | networkError
  deriving DecidableEq, Repr

/-- What `finishAttempt` records. -/
def finishAttempt (attemptNumber : ℕ) (clock : Date) (category : FailureCategory)
    (statusCode : Option ℕ) : DeliveryOutcome :=
  let record : AttemptRecord := ⟨attemptNumber, clock, statusCode, some category.name⟩
  if webhookMaxAttempts ≤ attemptNumber then .failed record
  else .retry (clock + (webhookRetryScheduleMs[attemptNumber - 1]?).getD 0) record

/-- What an attempt records, given the check of the host and the answer to the request. -/
def attemptOutcome (attemptNumber : ℕ) (clock : Date) (check : SsrfCheck)
    (sent : WebhookPostResult) : DeliveryOutcome :=
  match check with
  | .blocked => finishAttempt attemptNumber clock .ssrfBlocked none
  | .approved [] => finishAttempt attemptNumber clock .ssrfBlocked none
  | .approved (_ :: _) =>
      match sent with
      | .response statusCode =>
          if 200 ≤ statusCode ∧ statusCode < 300 then
            .delivered ⟨attemptNumber, clock, some statusCode, none⟩
          else finishAttempt attemptNumber clock .httpError (some statusCode)
      | .redirect statusCode => finishAttempt attemptNumber clock .redirectRefused (some statusCode)
      | .timeout => finishAttempt attemptNumber clock .timeout none
      | .networkError => finishAttempt attemptNumber clock .networkError none

/-- The attempt got a 2xx. -/
def Succeeded (record : AttemptRecord) : Prop :=
  record.error = none ∧ ∃ code ∈ record.statusCode, 200 ≤ code ∧ code < 300

/-- What an attempt may record: a success, a failure with a later attempt, or the last
failure. -/
inductive Recorded (number : ℕ) (clock : Date) : DeliveryOutcome → Prop where
  | delivered (record : AttemptRecord) (numbered : record.attempt = number)
      (success : Succeeded record) : Recorded number clock (.delivered record)
  | retry (record : AttemptRecord) (delay : ℕ) (numbered : record.attempt = number)
      (time : record.at_ = clock) (failure : ¬ Succeeded record)
      (more : number < webhookMaxAttempts)
      (scheduled : webhookRetryScheduleMs[number - 1]? = some delay) :
      Recorded number clock (.retry (clock + delay) record)
  | failed (record : AttemptRecord) (numbered : record.attempt = number)
      (failure : ¬ Succeeded record) (last : webhookMaxAttempts ≤ number) :
      Recorded number clock (.failed record)

theorem finishAttempt_recorded {number : ℕ} (positive : 0 < number) (clock : Date)
    (category : FailureCategory) (statusCode : Option ℕ) :
    Recorded number clock (finishAttempt number clock category statusCode) := by
  have failure : ¬ Succeeded ⟨number, clock, statusCode, some category.name⟩ :=
    fun success => by cases success.1
  rw [finishAttempt]
  split
  · rename_i last
    exact .failed _ rfl failure last
  · rename_i more
    obtain ⟨delay, scheduled⟩ := Shared.schedule_of_lt positive (not_le.1 more)
    rw [scheduled]
    exact .retry _ delay rfl rfl failure (not_le.1 more) scheduled

/-- **Every way an attempt ends.** -/
theorem attemptOutcome_recorded {number : ℕ} (positive : 0 < number) (clock : Date)
    (check : SsrfCheck) (sent : WebhookPostResult) :
    Recorded number clock (attemptOutcome number clock check sent) := by
  match check, sent with
  | .blocked, _ => exact finishAttempt_recorded positive _ _ _
  | .approved [], _ => exact finishAttempt_recorded positive _ _ _
  | .approved (_ :: _), .response statusCode =>
      rw [attemptOutcome]
      split
      · rename_i ok
        exact .delivered _ rfl ⟨rfl, statusCode, rfl, ok⟩
      · exact finishAttempt_recorded positive _ _ _
  | .approved (_ :: _), .redirect _ => exact finishAttempt_recorded positive _ _ _
  | .approved (_ :: _), .timeout => exact finishAttempt_recorded positive _ _ _
  | .approved (_ :: _), .networkError => exact finishAttempt_recorded positive _ _ _

theorem Recorded.attempt {number : ℕ} {clock : Date} {outcome : DeliveryOutcome}
    (recorded : Recorded number clock outcome) : outcome.record.attempt = number := by
  cases recorded <;> assumption

/-! ## The history of a row -/

/-- What the row says: its attempts are numbered as they are counted, six at most, it failed
after six unsuccessful ones only, it was delivered with a 2xx only, and while it waits it waits
for as long as the schedule says. -/
structure Kept (d : WebhookDelivery) : Prop where
  numbered : d.attemptLog.map (·.attempt) = List.range' 1 d.attempts
  few : d.attempts ≤ 6
  failed : d.status = .failed → d.attempts = 6 ∧ ∀ r ∈ d.attemptLog, ¬ Succeeded r
  delivered : d.status = .delivered → ∃ r ∈ d.attemptLog, Succeeded r
  waits : d.status = .pending → 1 ≤ d.attempts →
    ∃ last delay, d.attemptLog.getLast? = some last ∧
      webhookRetryScheduleMs[d.attempts - 1]? = some delay ∧
      d.nextRetryAt = some (last.at_ + (delay : ℕ))

/-- A pending row has attempts left, and no success behind it. -/
structure Waiting (d : WebhookDelivery) : Prop where
  left : d.attempts < webhookMaxAttempts
  unsuccessful : ∀ r ∈ d.attemptLog, ¬ Succeeded r

/-- **An attempt of the right number keeps the history.** -/
theorem Kept.recorded {d : WebhookDelivery} {clock : Date} {outcome : DeliveryOutcome}
    (kept : Kept d) (waiting : Waiting d) (recorded : Recorded (d.attempts + 1) clock outcome) :
    Kept (d.recorded outcome) ∧
      ((d.recorded outcome).status = .pending → Waiting (d.recorded outcome)) := by
  have max : webhookMaxAttempts = 6 := rfl
  have left := waiting.left
  have numbered : (d.recorded outcome).attemptLog.map (·.attempt) =
      List.range' 1 (d.recorded outcome).attempts := by
    rw [Db.recorded_attemptLog, Db.recorded_attempts, List.map_append, kept.numbered,
      List.range'_concat, List.map_singleton, recorded.attempt]
    congr 2
    omega
  have few : (d.recorded outcome).attempts ≤ 6 := by
    rw [Db.recorded_attempts]
    omega
  cases recorded with
  | delivered record _ success =>
      refine ⟨⟨numbered, few, nofun, ?_, nofun⟩, nofun⟩
      intro _
      exact ⟨record, List.mem_append_right _ (List.mem_singleton_self record), success⟩
  | retry record delay _ time failure more scheduled =>
      refine ⟨⟨numbered, few, nofun, nofun, ?_⟩, fun _ => ⟨more, ?_⟩⟩
      · intro _ _
        exact ⟨record, delay, List.getLast?_concat, scheduled, by rw [time]; rfl⟩
      · exact List.forall_mem_append.2
          ⟨waiting.unsuccessful, List.forall_mem_singleton.2 failure⟩
  | failed record _ failure last =>
      refine ⟨⟨numbered, few, fun _ => ⟨?_, ?_⟩, nofun, nofun⟩, nofun⟩
      · show d.attempts + 1 = 6
        omega
      · exact List.forall_mem_append.2
          ⟨waiting.unsuccessful, List.forall_mem_singleton.2 failure⟩

/-! ## Overlapping executions -/

/-- An execution of the job between its load and its record; its clock stands. -/
structure DeliveryExecution where
  loaded : DeliveryForProcessing
  clock : Date
  deriving DecidableEq, Repr

/-- What the execution records, given the check and the answer. -/
def DeliveryExecution.outcome (e : DeliveryExecution) (check : SsrfCheck)
    (sent : WebhookPostResult) : DeliveryOutcome :=
  attemptOutcome (e.loaded.delivery.attempts + 1) e.clock check sent

/-- The webhook tables, and the executions under way. -/
structure Deliveries where
  db : WebhookDatabase
  executions : List DeliveryExecution

inductive DeliveryAction where
  /-- a copy of the job is handed out, and loads the delivery -/
  | load (clock : Date)
  /-- the request is through, or was not sent, and the attempt is recorded -/
  | record (e : DeliveryExecution) (check : SsrfCheck) (sent : WebhookPostResult)
  /-- the execution ends without a record -/
  | die (e : DeliveryExecution)
  /-- other rows of the tables change -/
  | others (db : WebhookDatabase)

namespace Deliveries

variable (deliveryId : Uuid)

/-- The row of the delivery. -/
def row (s : Deliveries) : Option WebhookDelivery := s.db.delivery? deliveryId

def Allows (s : Deliveries) : DeliveryAction → Prop
  | .load _ => True
  | .record e _ _ => e ∈ s.executions
  | .die e => e ∈ s.executions
  | .others db => db.delivery? deliveryId = s.row deliveryId

instance (s : Deliveries) : (a : DeliveryAction) → Decidable (s.Allows deliveryId a)
  | .load _ => inferInstanceAs (Decidable True)
  | .record e _ _ => inferInstanceAs (Decidable (e ∈ s.executions))
  | .die e => inferInstanceAs (Decidable (e ∈ s.executions))
  | .others db => inferInstanceAs (Decidable (db.delivery? deliveryId = s.row deliveryId))

def after (s : Deliveries) : DeliveryAction → Deliveries
  | .load clock =>
      match getDeliveryForProcessing s.db deliveryId with
      | some loaded => { s with executions := ⟨loaded, clock⟩ :: s.executions }
      | none => s
  | .record e check sent =>
      { db := recordDeliveryAttempt s.db e.loaded.delivery.id (e.outcome check sent)
        executions := s.executions.erase e }
  | .die e => { s with executions := s.executions.erase e }
  | .others db => { s with db := db }

/-- The delivery has been created, and nothing has been done for it. -/
def Initial (s : Deliveries) : Prop :=
  (∃ input : DeliveryInput, s.row deliveryId = some input.row) ∧ s.executions = []

/-- The row says what it should. -/
def RowKept (s : Deliveries) : Prop := ∀ d ∈ s.row deliveryId, Kept d

/-- A delivery that is through keeps its status. -/
def Absorbs (s t : Deliveries) : Prop :=
  ∀ d ∈ s.row deliveryId, d.status ≠ .pending → ∃ d' ∈ t.row deliveryId, d'.status = d.status

/-- No attempt has been recorded since the load of the execution that records one. -/
def Fresh (s : Deliveries) : DeliveryAction → Prop
  | .record e _ _ => ∀ d ∈ s.row deliveryId, d.attempts = e.loaded.delivery.attempts
  | _ => True

/-! ## The invariant -/

/-- The row is kept, and executions loaded it as it is or as it was. -/
structure Tracked (s : Deliveries) (d : WebhookDelivery) : Prop where
  row : s.row deliveryId = some d
  kept : Kept d
  waiting : d.status = .pending → Waiting d
  ids : ∀ e ∈ s.executions, e.loaded.delivery.id = deliveryId
  past : ∀ e ∈ s.executions, e.loaded.delivery.attempts ≤ d.attempts
  unchanged : ∀ e ∈ s.executions,
    e.loaded.delivery.attempts = d.attempts → d.status = .pending

variable {deliveryId} {s : Deliveries} {d : WebhookDelivery}

theorem Tracked.start (initial : Initial deliveryId s) : ∃ d, Tracked deliveryId s d := by
  obtain ⟨⟨input, row⟩, executions⟩ := initial
  refine ⟨input.row, row, ⟨rfl, Nat.zero_le 6, nofun, nofun, nofun⟩,
    fun _ => ⟨Nat.succ_pos _, List.forall_mem_nil _⟩, ?_, ?_, ?_⟩
  all_goals
    rw [executions]
    exact List.forall_mem_nil _

/-- Fewer executions. -/
theorem Tracked.of_subset {t : Deliveries} (tracked : Tracked deliveryId s d)
    (row : t.row deliveryId = s.row deliveryId) (fewer : t.executions ⊆ s.executions) :
    Tracked deliveryId t d :=
  ⟨row.trans tracked.row, tracked.kept, tracked.waiting,
    fun e member => tracked.ids e (fewer member), fun e member => tracked.past e (fewer member),
    fun e member => tracked.unchanged e (fewer member)⟩

theorem Tracked.load (tracked : Tracked deliveryId s d) (clock : Date) :
    Tracked deliveryId (s.after deliveryId (.load clock)) d := by
  rw [after]
  cases found : getDeliveryForProcessing s.db deliveryId with
  | none => exact tracked
  | some loaded =>
      obtain ⟨row, pending⟩ := Db.getDeliveryForProcessing_eq found
      obtain rfl : loaded.delivery = d := Option.some.inj (row.symm.trans tracked.row)
      have named : loaded.delivery.id = deliveryId := by simpa using List.find?_some row
      exact ⟨tracked.row, tracked.kept, tracked.waiting,
        List.forall_mem_cons.2 ⟨named, tracked.ids⟩,
        List.forall_mem_cons.2 ⟨le_rfl, tracked.past⟩,
        List.forall_mem_cons.2 ⟨fun _ => pending, tracked.unchanged⟩⟩

/-- What a record leaves under the id of the delivery. -/
theorem Tracked.row_record (tracked : Tracked deliveryId s d) {e : DeliveryExecution}
    (running : e ∈ s.executions) (check : SsrfCheck) (sent : WebhookPostResult) :
    (s.after deliveryId (.record e check sent)).row deliveryId =
      some (d.recorded (e.outcome check sent)) := by
  have written : (s.after deliveryId (.record e check sent)).row deliveryId =
      (s.row deliveryId).map (·.recorded (e.outcome check sent)) := by
    have table := Db.delivery?_recordDeliveryAttempt s.db deliveryId (e.outcome check sent)
    rw [← tracked.ids e running] at table ⊢
    exact table
  rw [written, tracked.row]
  rfl

theorem Tracked.record (tracked : Tracked deliveryId s d) {e : DeliveryExecution}
    {check : SsrfCheck} {sent : WebhookPostResult} (running : e ∈ s.executions)
    (fresh : Fresh deliveryId s (.record e check sent)) :
    Tracked deliveryId (s.after deliveryId (.record e check sent))
      (d.recorded (e.outcome check sent)) := by
  have same : d.attempts = e.loaded.delivery.attempts := fresh d tracked.row
  have pending : d.status = .pending := tracked.unchanged e running same.symm
  have recorded : Recorded (d.attempts + 1) e.clock (e.outcome check sent) := by
    rw [same]
    exact attemptOutcome_recorded (Nat.succ_pos _) _ _ _
  obtain ⟨kept, waiting⟩ := tracked.kept.recorded (tracked.waiting pending) recorded
  refine ⟨tracked.row_record running check sent, kept, waiting, ?_, ?_, ?_⟩
  · exact fun other member => tracked.ids other (List.mem_of_mem_erase member)
  · intro other member
    rw [Db.recorded_attempts]
    exact (tracked.past other (List.mem_of_mem_erase member)).trans (Nat.le_succ _)
  · -- what any of them loaded is behind by now
    intro other member equal
    rw [Db.recorded_attempts] at equal
    have behind := tracked.past other (List.mem_of_mem_erase member)
    omega

/-- **Every fresh step** keeps the row. -/
theorem Tracked.step {a : DeliveryAction} (tracked : Tracked deliveryId s d)
    (allowed : s.Allows deliveryId a) (fresh : Fresh deliveryId s a) :
    ∃ d', Tracked deliveryId (s.after deliveryId a) d' ∧
      (d.status ≠ .pending → d'.status = d.status) := by
  cases a with
  | load clock => exact ⟨d, tracked.load clock, fun _ => rfl⟩
  | record e check sent =>
      refine ⟨_, tracked.record allowed fresh, ?_⟩
      intro through
      exact absurd (tracked.unchanged e allowed (fresh d tracked.row).symm) through
  | die e =>
      exact ⟨d, tracked.of_subset rfl (List.erase_subset), fun _ => rfl⟩
  | others db => exact ⟨d, tracked.of_subset allowed (List.Subset.refl _), fun _ => rfl⟩

/-- An attempt of the wrong number shows. -/
theorem Tracked.fresh_of_kept {a : DeliveryAction} (tracked : Tracked deliveryId s d)
    (allowed : s.Allows deliveryId a) (kept : RowKept deliveryId (s.after deliveryId a)) :
    Fresh deliveryId s a := by
  cases a with
  | record e check sent =>
      intro d' row
      obtain rfl : d = d' := Option.some.inj (tracked.row.symm.trans row)
      have numbered := (kept _ (tracked.row_record allowed check sent)).numbered
      have number : (e.outcome check sent).record.attempt = e.loaded.delivery.attempts + 1 :=
        (attemptOutcome_recorded (Nat.succ_pos _) e.clock check sent).attempt
      rw [Db.recorded_attemptLog, Db.recorded_attempts, List.map_append, tracked.kept.numbered,
        List.range'_concat, List.map_singleton, number] at numbered
      have last := List.append_cancel_left numbered
      simp only [List.cons.injEq, and_true] at last
      omega
  | _ => trivial

/-! ## Runs -/

/-- **The delivery state machine**, for every run of the copies of its job: the row keeps its
history and a delivery that is through stays as it is, exactly when no execution records an
attempt after another has recorded one since its load. -/
theorem history_iff {t : Deliveries} {tr : List (Transition Deliveries DeliveryAction)}
    (initial : Initial deliveryId s)
    (run : Run (StepOf (Allows deliveryId) (after deliveryId)) s tr t) :
    (∀ e ∈ tr, RowKept deliveryId e.target ∧ Absorbs deliveryId e.source e.target) ↔
      ∀ e ∈ tr, Fresh deliveryId e.source e.action := by
  refine run.guarded_iff (fun s => ∃ d, Tracked deliveryId s d)
    (fun s _ t => RowKept deliveryId t ∧ Absorbs deliveryId s t) ?_ ?_ ?_ (Tracked.start initial)
  · rintro s a _ ⟨d, tracked⟩ fresh ⟨allowed, rfl⟩
    obtain ⟨d', after, -⟩ := tracked.step allowed fresh
    exact ⟨d', after⟩
  · rintro s a _ ⟨d, tracked⟩ fresh ⟨allowed, rfl⟩
    obtain ⟨d', after, stays⟩ := tracked.step allowed fresh
    constructor
    · intro found row
      obtain rfl := Option.some.inj (after.row.symm.trans row)
      exact after.kept
    · intro found row through
      obtain rfl := Option.some.inj (tracked.row.symm.trans row)
      exact ⟨d', after.row, stays through⟩
  · rintro s a _ ⟨d, tracked⟩ ⟨allowed, rfl⟩ ⟨kept, -⟩
    exact tracked.fresh_of_kept allowed kept

/-! ## Two copies of one job -/

/-- A delivery of a completed batch to the endpoint of its organisation. -/
def sampleInput : DeliveryInput where
  id := .numbered 3
  endpointId := .numbered 2
  eventType := "batch.completed"
  payload := ⟨"batch.completed", ⟨.numbered 4, "done", 1, ⟨1, 0, 0, 0⟩⟩⟩
  expiresAt := 2592000000

def sampleEndpoint : Db.WebhookEndpoint :=
  ⟨.numbered 2, .numbered 1, "https://example.com/hook", "whsec_sample", ["batch.completed"],
    true, none⟩

theorem sampleEndpoint_alone : ([sampleEndpoint].map (·.id)).Nodup := List.nodup_singleton _

def sampleDatabase : WebhookDatabase where
  organizations := [⟨.numbered 1, none, 30, false⟩]
  creditLedger := []
  emailChecks := []
  phoneChecks := []
  batches := []
  auditEvents := []
  webhookEndpoints := [sampleEndpoint]
  webhookDeliveries := [sampleInput.row]
  endpointIds := sampleEndpoint_alone

/-- The delivery has just been created. -/
def sampleCreated : Deliveries := ⟨sampleDatabase, []⟩

/-- A copy of the job that has loaded the delivery as it was created. -/
def copyAt (clock : Date) : DeliveryExecution :=
  ⟨⟨sampleInput.row, sampleEndpoint.id, sampleEndpoint.url, sampleEndpoint.secret⟩, clock⟩

/-- Both copies load the delivery, and the first gets a 200. -/
def overlap : List DeliveryAction :=
  [.load 0, .load 1000, .record (copyAt 0) (.approved ["203.0.113.7"]) (.response 200)]

/-- The second gets a timeout. -/
def late : List DeliveryAction := [.record (copyAt 1000) (.approved ["203.0.113.7"]) .timeout]

/-- A delivered delivery is pending again, with two attempts of number one. -/
theorem delivered_reopens :
    ∃ tr s tr' t, Run (StepOf (Allows (.numbered 3)) (after (.numbered 3))) sampleCreated tr s ∧
      (s.row (.numbered 3)).map (·.status) = some .delivered ∧
      Run (StepOf (Allows (.numbered 3)) (after (.numbered 3))) s tr' t ∧
      (t.row (.numbered 3)).map (fun d => (d.status, d.attemptLog.map (·.attempt))) =
        some (.pending, [1, 1]) ∧
      ¬ Absorbs (.numbered 3) s t ∧ ¬ RowKept (.numbered 3) t := by
  have first : Theory.Executable (Allows (.numbered 3)) (after (.numbered 3)) sampleCreated
      overlap := by decide +kernel
  obtain ⟨tr, run⟩ := first.run
  have second : Theory.Executable (Allows (.numbered 3)) (after (.numbered 3))
      (overlap.foldl (after (.numbered 3)) sampleCreated) late := by decide +kernel
  obtain ⟨tr', run'⟩ := second.run
  have delivered : ((overlap.foldl (after (.numbered 3)) sampleCreated).row (.numbered 3)).map
      (·.status) = some .delivered := by decide +kernel
  have pending : ((late.foldl (after (.numbered 3)) (overlap.foldl (after (.numbered 3))
      sampleCreated)).row (.numbered 3)).map (fun d => (d.status, d.attemptLog.map (·.attempt))) =
      some (.pending, [1, 1]) := by decide +kernel
  refine ⟨tr, _, tr', _, run, delivered, run', pending, fun absorbs => ?_, fun kept => ?_⟩
  all_goals obtain ⟨d, row, same⟩ := Option.map_eq_some_iff.1 pending
  · obtain ⟨before, rowBefore, through⟩ := Option.map_eq_some_iff.1 delivered
    obtain ⟨d', row', still⟩ := absorbs before rowBefore (by rw [through]; decide)
    obtain rfl : d = d' := Option.some.inj (row.symm.trans row')
    rw [through, (Prod.mk.inj same).1] at still
    cases still
  · have numbered := (kept d row).numbered
    rw [(Prod.mk.inj same).2] at numbered
    have count := congrArg List.length numbered
    rw [List.length_range'] at count
    rw [← count] at numbered
    exact absurd numbered (by decide)

theorem history_iff_overlap :
    ∃ tr, Run (StepOf (Allows (.numbered 3)) (after (.numbered 3))) sampleCreated tr
        (overlap.foldl (after (.numbered 3)) sampleCreated) ∧
      ((∀ e ∈ tr, RowKept (.numbered 3) e.target ∧ Absorbs (.numbered 3) e.source e.target) ↔
        ∀ e ∈ tr, Fresh (.numbered 3) e.source e.action) := by
  have executable : Theory.Executable (Allows (.numbered 3)) (after (.numbered 3)) sampleCreated
      overlap := by decide +kernel
  obtain ⟨tr, run⟩ := executable.run
  exact ⟨tr, run, history_iff ⟨⟨sampleInput, by decide +kernel⟩, rfl⟩ run⟩

end Deliveries

end Tozalist.Worker
