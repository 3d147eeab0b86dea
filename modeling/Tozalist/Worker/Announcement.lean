/-
# Tozalist.Worker.Announcement -- the events of a batch that has reached its end

`emitBatchWebhookEvent` of `apps/worker/src/webhooks/emit.ts`, and the exits of a batch it is
attached to by hand.  The upload route fails a batch whose enqueue throws, whether the queue
took the job or not, and `processBatch` has four exits: two before its loop, after a claim whose
organisation is gone and on a layout it cannot read, the completion, and the `catch` around the
loop.  A publisher is configured, and an emission succeeds once it is made; whether the queue
takes a job of it changes no row.

* `Announced` -- a batch at its end has one delivery for each endpoint that hears its event,
  and none besides;
* `announced_iff` -- that holds wherever no announcement is still to come, exactly in the runs
  in which every step is heralded: no exit is silent that somebody would hear, and what is
  announced is what the batch came to.
-/
import Tozalist.Credits.Safety
import Tozalist.Db.Webhooks
import Tozalist.Shared.Webhooks
import Tozalist.Worker.BatchProcessor

namespace Tozalist.Worker

set_option autoImplicit false

open Credits (Created queueUnavailable rowCreated)
open Db
open Shared (WebhookEvent)
open Theory (Executable Run StepOf Txn Transition transitions)

/-! ## Emission -/

/-- The input of `emitBatchWebhookEvent`. -/
structure BatchWebhookEvent where
  orgId : Uuid
  event : WebhookEvent
  data : BatchEventData
  retentionDays : Int
  deriving DecidableEq, Repr

/-- The delivery of an event to an endpoint, under the id drawn for it. -/
def BatchWebhookEvent.delivery (input : BatchWebhookEvent) (now : Date) (id endpointId : Uuid) :
    DeliveryInput :=
  { id := id
    endpointId := endpointId
    eventType := input.event.name
    payload := ⟨input.event.name, input.data⟩
    expiresAt := now.addDays input.retentionDays }

/-- `emitBatchWebhookEvent`; `draw` are the ids of the deliveries. -/
def emitBatchWebhookEvent (db : WebhookDatabase) (input : BatchWebhookEvent) (now : Date)
    (draw : Uuid → Uuid) : WebhookDatabase :=
  (findEndpointsForEvent db input.orgId input.event.name).foldl
    (fun db endpointId =>
      createWebhookDelivery db (input.delivery now (draw endpointId) endpointId)) db

/-- The deliveries of an event of the batch to an endpoint. -/
def announcements (db : WebhookDatabase) (batchId endpointId : Uuid) (event : String) : ℕ :=
  db.webhookDeliveries.countP fun d =>
    d.payload.data.batchId = batchId ∧ d.endpointId = endpointId ∧ d.eventType = event

/-- The fan-out appends one row for each endpoint, and touches nothing else. -/
theorem foldl_createWebhookDelivery (endpoints : List Uuid) (input : Uuid → DeliveryInput)
    (db : WebhookDatabase) :
    endpoints.foldl (fun db endpointId => createWebhookDelivery db (input endpointId)) db =
      { db with
        webhookDeliveries := db.webhookDeliveries ++ endpoints.map fun id => (input id).row } := by
  induction endpoints generalizing db with
  | nil => simp
  | cons id rest ih =>
      rw [List.foldl_cons, ih]
      simp [createWebhookDelivery]

/-- An emission adds deliveries, and changes nothing else. -/
theorem emitBatchWebhookEvent_keeps (db : WebhookDatabase) (input : BatchWebhookEvent) (now : Date)
    (draw : Uuid → Uuid) :
    (emitBatchWebhookEvent db input now draw).toDatabase = db.toDatabase ∧
      (emitBatchWebhookEvent db input now draw).webhookEndpoints = db.webhookEndpoints := by
  rw [emitBatchWebhookEvent, foldl_createWebhookDelivery]
  exact ⟨rfl, rfl⟩

/-- An endpoint hears an event of an active organisation when the lookup finds it. -/
theorem mem_findEndpointsForEvent {db : WebhookDatabase} {orgId endpointId : Uuid} {event : String}
    (active : ∃ o ∈ db.organizations, o.id = orgId ∧ o.Active) :
    endpointId ∈ findEndpointsForEvent db orgId event ↔
      ∃ e ∈ db.webhookEndpoints, e.id = endpointId ∧ e.Hears orgId event := by
  simp only [findEndpointsForEvent, List.mem_map, List.mem_filter, decide_eq_true_eq]
  constructor
  · rintro ⟨e, ⟨inside, hears, -⟩, named⟩
    exact ⟨e, inside, named, hears⟩
  · rintro ⟨e, inside, named, hears⟩
    refine ⟨e, ⟨inside, hears, ?_⟩, named⟩
    rw [hears.1]
    exact active

theorem nodup_findEndpointsForEvent (db : WebhookDatabase) (orgId : Uuid) (event : String) :
    (findEndpointsForEvent db orgId event).Nodup :=
  db.endpointIds.sublist (List.filter_sublist.map _)

/-- **What an emission announces**: its event, once to each endpoint that hears it. -/
theorem announcements_emit (db : WebhookDatabase) (input : BatchWebhookEvent) (now : Date)
    (draw : Uuid → Uuid) (batchId endpointId : Uuid) (event : String) :
    announcements (emitBatchWebhookEvent db input now draw) batchId endpointId event =
      announcements db batchId endpointId event +
        if input.data.batchId = batchId ∧ input.event.name = event ∧
            endpointId ∈ findEndpointsForEvent db input.orgId input.event.name then 1 else 0 := by
  rw [emitBatchWebhookEvent, foldl_createWebhookDelivery, announcements, announcements,
    List.countP_append, List.countP_map]
  congr 1
  by_cases same : input.data.batchId = batchId ∧ input.event.name = event
  · have counted : (fun id => decide (id = endpointId)) = (· == endpointId) := rfl
    have once := (nodup_findEndpointsForEvent db input.orgId input.event.name).count
      (a := endpointId)
    simpa [BatchWebhookEvent.delivery, DeliveryInput.row, Function.comp_def, same, counted,
      List.count] using once
  · rw [if_neg fun both => same ⟨both.1, both.2.1⟩, List.countP_eq_zero]
    rintro id - selected
    simp only [Function.comp_apply, decide_eq_true_eq] at selected
    exact same ⟨selected.1, selected.2.2⟩

/-! ## The exits of a batch -/

/-- Where an execution that has won its claim stands. -/
inductive ExitPhase where
  | orgUnavailable
  | claimed (retentionDays : Int)
  /-- in the `catch` branch -/
  | failing (retentionDays : Int) (counts : Distribution)
  /-- the batch is settled, and the emission is next -/
  | announcing (event : BatchWebhookEvent)
  deriving DecidableEq, Repr

structure BatchExit where
  batch : Batch
  phase : ExitPhase
  deriving DecidableEq, Repr

/-- The upload route, after it has created the batch. -/
inductive UploadState where
  | enqueueing
  /-- the enqueue has thrown, and `failBatch` is next -/
  | refusing
  | ended
  deriving DecidableEq, Repr

/-- How the loop of `processBatch` ends. -/
inductive LoopResult where
  | through (processed : ℕ) (stats : BatchStats)
  | thrown (counts : Distribution)
  deriving DecidableEq, Repr

/-- The `data` of the event of a batch. -/
def eventData (batch : Batch) (status : String) (counts : Distribution) : BatchEventData :=
  ⟨batch.id, status, batch.totalRows, counts⟩

/-- The event of a completion. -/
def completedEvent (batch : Batch) (retentionDays : Int) (counts : Distribution) :
    BatchWebhookEvent :=
  ⟨batch.orgId, .batchCompleted, eventData batch "done" counts, retentionDays⟩

/-- The event of the `catch` branch. -/
def failedEvent (batch : Batch) (retentionDays : Int) (counts : Distribution) :
    BatchWebhookEvent :=
  ⟨batch.orgId, .batchFailed, eventData batch "failed" counts, retentionDays⟩

/-- What `completeBatch` is called with after the loop. -/
def loopCompletion (batch : Batch) (retentionDays : Int) (processed : ℕ) (stats : BatchStats) :
    CompleteBatchInput :=
  { batchId := batch.id
    orgId := batch.orgId
    resultObjectKey := batchResultKey batch.orgId batch.id
    processedRows := processed
    stats := stats
    chargedCredits := stats.charged
    reservedCredits := batch.totalRows
    retentionDays := retentionDays }

/-- The database, the upload, and the executions between their claim and their end. -/
structure Announcing where
  db : WebhookDatabase
  upload : UploadState
  /-- The queue has taken the job, and hands it out at least once. -/
  queued : Bool
  executions : List BatchExit

inductive AnnouncingAction where
  /-- `batchQueue.enqueue` in the upload route: what the queue did, and what the route is told -/
  | enqueue (accepted reported : Bool)
  /-- `failBatch` of the upload route -/
  | refuse (draw : Draw)
  /-- a copy of the job is handed out, and claims -/
  | deliver
  /-- an exit before the loop -/
  | exitEarly (x : BatchExit) (draw : Draw)
  /-- the loop ends, and with it goes `completeBatch` or the `catch` branch -/
  | loop (x : BatchExit) (result : LoopResult) (draw : Draw) (now : Date)
  /-- `failBatch` of the `catch` branch -/
  | fail (x : BatchExit) (draw : Draw)
  | announce (x : BatchExit) (now : Date) (ids : Uuid → Uuid)
  /-- the worker dies -/
  | die (x : BatchExit)

namespace Announcing

variable (c : Created)

/-- The tables of `Database` change, those of the webhooks stay. -/
def withDatabase (s : Announcing) (db : Database) : Announcing :=
  { s with db := { s.db with toDatabase := db } }

/-- An execution goes on as another, or ends. -/
def goesOn (s : Announcing) (x : BatchExit) (next : Option ExitPhase) : Announcing :=
  { s with
    executions := (next.map fun phase => { x with phase := phase }).toList ++ s.executions.erase x }

/-- The error of an exit before the loop, where one is taken. -/
def earlyError (x : BatchExit) : Option String :=
  match x.phase with
  | .orgUnavailable => some "org_unavailable"
  | .claimed _ => if readLayout x.batch.stats = none then some "invalid_layout" else none
  | _ => none

def Allows (s : Announcing) : AnnouncingAction → Prop
  | .enqueue accepted reported => s.upload = .enqueueing ∧ (reported = true → accepted = true)
  | .refuse _ => s.upload = .refusing
  | .deliver => s.queued = true
  | .exitEarly x _ => x ∈ s.executions ∧ (earlyError x).isSome = true
  | .loop x _ _ _ =>
      x ∈ s.executions ∧ ∃ layout ∈ readLayout x.batch.stats, ∃ days, x.phase = .claimed days
  | .fail x _ => x ∈ s.executions ∧ ∃ days counts, x.phase = .failing days counts
  | .announce x _ _ => x ∈ s.executions ∧ ∃ event, x.phase = .announcing event
  | .die x => x ∈ s.executions

/-- One step. -/
def after (s : Announcing) : AnnouncingAction → Announcing
  | .enqueue accepted reported =>
      { s with upload := if reported then .ended else .refusing, queued := accepted }
  | .refuse draw =>
      { s.withDatabase (Txn.transaction (failBatch (queueUnavailable c) draw) s.db.toDatabase).2
        with upload := .ended }
  | .deliver =>
      match Txn.transaction (claimBatchForProcessing c.batchId) s.db.toDatabase with
      | (.ok (.claimed batch days), db) =>
          { s.withDatabase db with executions := ⟨batch, .claimed days⟩ :: s.executions }
      | (.ok (.orgUnavailable batch), db) =>
          { s.withDatabase db with executions := ⟨batch, .orgUnavailable⟩ :: s.executions }
      | (_, db) => s.withDatabase db
  | .exitEarly x draw =>
      match earlyError x with
      | some error =>
          (s.withDatabase (Txn.transaction (failBatch (failing x.batch error) draw)
            s.db.toDatabase).2).goesOn x none
      | none => s
  | .loop x result draw now =>
      match x.phase, result with
      | .claimed days, .through processed stats =>
          match Txn.transaction
              (completeBatch (loopCompletion x.batch days processed stats) draw now)
              s.db.toDatabase with
          | (.ok _, db) =>
              (s.withDatabase db).goesOn x
                (some (.announcing (completedEvent x.batch days stats.distribution)))
          | (.error _, db) =>
              (s.withDatabase db).goesOn x (some (.failing days stats.distribution))
      | .claimed days, .thrown counts => s.goesOn x (some (.failing days counts))
      | _, _ => s
  | .fail x draw =>
      match x.phase with
      | .failing days counts =>
          match Txn.transaction (failBatch (failing x.batch "processing_failed") draw)
              s.db.toDatabase with
          | (.ok _, db) =>
              (s.withDatabase db).goesOn x
                (some (.announcing (failedEvent x.batch days counts)))
          | (.error _, db) => (s.withDatabase db).goesOn x none
      | _ => s
  | .announce x now ids =>
      match x.phase with
      | .announcing event => { s with db := emitBatchWebhookEvent s.db event now ids }.goesOn x none
      | _ => s
  | .die x => s.goesOn x none

-- many lemmas below rewrite with the equations of `after`; they are derived once, here
section
attribute [local simp] after
end

/-- The event of a status. -/
def statusEvent : BatchStatus → Option WebhookEvent
  | .done => some .batchCompleted
  | .failed => some .batchFailed
  | _ => none

/-- An endpoint of the organisation hears the event. -/
def Heard (s : Announcing) (event : WebhookEvent) : Prop :=
  ∃ e ∈ s.db.webhookEndpoints, e.Hears c.orgId event.name

/-- An announcement is still to come. -/
def Pending (s : Announcing) : Prop := ∃ x ∈ s.executions, ∃ event, x.phase = .announcing event

/-- What the event comes to for an endpoint: one delivery of it, if the endpoint hears it. -/
def Due (s : Announcing) (settled : Option WebhookEvent) (endpointId : Uuid) (event : String) :
    Prop :=
  (∃ own ∈ settled, own.name = event) ∧
    ∃ e ∈ s.db.webhookEndpoints, e.id = endpointId ∧ e.Hears c.orgId event

instance (s : Announcing) (settled : Option WebhookEvent) (endpointId : Uuid) (event : String) :
    Decidable (s.Due c settled endpointId event) :=
  inferInstanceAs (Decidable ((∃ own ∈ settled, own.name = event) ∧ _))

/-- The event is announced, once to each endpoint that hears it, and no other. -/
def Told (s : Announcing) (settled : Option WebhookEvent) : Prop :=
  ∀ endpointId event, announcements s.db c.batchId endpointId event =
    if s.Due c settled endpointId event then 1 else 0

/-- The batch is announced as its status has it. -/
def Announced (s : Announcing) : Prop :=
  ∀ b ∈ s.db.batches, b.id = c.batchId → s.Told c (statusEvent b.status)

/-- Nobody hears it. -/
def Deaf (s : Announcing) (settled : Option WebhookEvent) : Prop :=
  ∀ own ∈ settled, ¬ s.Heard c own

/-- The two are one event, or no event, to whoever listens. -/
def Alike (s : Announcing) (first second : Option WebhookEvent) : Prop :=
  first = second ∨ s.Deaf c first ∧ s.Deaf c second

/-- **No step is silent, or says what is not so, before somebody who would hear.**  The route
fails a batch of which an announcement is still to come, or one that is failed, or nobody hears
the difference; no execution leaves before its loop; one that announces is right about the batch
as it is by then; and a worker lives to announce what it has settled. -/
def Heralded (s : Announcing) : AnnouncingAction → Prop
  | .refuse _ => s.Pending ∨ ∀ b ∈ s.db.batches, b.id = c.batchId →
      s.Alike c (statusEvent b.status) (some .batchFailed)
  | .exitEarly _ _ => ¬ s.Heard c .batchFailed
  | .announce x _ _ => ∀ event, x.phase = .announcing event →
      ∀ b ∈ s.db.batches, b.id = c.batchId → s.Alike c (some event.event) (statusEvent b.status)
  | .die x => ∀ event, x.phase = .announcing event →
      ∀ b ∈ s.db.batches, b.id = c.batchId → s.Deaf c (statusEvent b.status)
  | _ => True

/-- The batch has been created for an active organisation, and nothing else has happened. -/
structure Initial (s : Announcing) : Prop where
  active : ∃ o ∈ s.db.organizations, o.id = c.orgId ∧ o.Active
  row : ∃ b ∈ s.db.batches, b.id = c.batchId
  rows : ∀ b ∈ s.db.batches, b.id = c.batchId → b.status = .pending ∧ rowCreated b = c
  small : Int4 c.totalRows
  silent : ∀ endpointId event, announcements s.db c.batchId endpointId event = 0
  upload : s.upload = .enqueueing
  queued : s.queued = false
  executions : s.executions = []

/-! ## The rows of the batch -/

/-- Every row under the id of the batch is the batch, in this status. -/
structure Rows (db : Database) (status : BatchStatus) : Prop where
  present : ∃ b ∈ db.batches, b.id = c.batchId
  rows : ∀ b ∈ db.batches, b.id = c.batchId → b.status = status ∧ rowCreated b = c

variable {c} {db : Database} {status status' : BatchStatus}

/-- An update of these rows that sets their status. -/
theorem Rows.update (rows : Rows c db status) (p : Batch → Prop) [DecidablePred p]
    (f : Batch → Batch) (selects : ∀ b, b.id = c.batchId → b.status = status → p b)
    (own : ∀ b, rowCreated (f b) = rowCreated b) (sets : ∀ b, (f b).status = status') :
    Rows c (db.updateBatches p f) status' := by
  have same (b : Batch) : rowCreated (if p b then f b else b) = rowCreated b := by
    split
    · exact own b
    · rfl
  have ids (b : Batch) : (if p b then f b else b).id = b.id := congrArg Created.batchId (same b)
  constructor
  · obtain ⟨b, inside, named⟩ := rows.present
    exact ⟨_, List.mem_map_of_mem inside, (ids b).trans named⟩
  · intro b' inside named
    obtain ⟨b, before, rfl⟩ := List.mem_map.1 inside
    have named : b.id = c.batchId := (ids b).symm.trans named
    obtain ⟨had, created⟩ := rows.rows b before named
    rw [same]
    refine ⟨?_, created⟩
    rw [if_pos (selects b named had)]
    exact sets b

/-- A failure of the batch goes through, and marks it. -/
theorem Rows.fail (rows : Rows c db status) (input : FailBatchInput)
    (own : input.batchId = c.batchId) (small : Int4 input.reservedCredits) (draw : Draw) :
    ∃ db', Txn.transaction (failBatch input draw) db = (.ok (), db') ∧ Rows c db' .failed ∧
      db'.organizations = db.organizations := by
  have marked : Rows c (db.failed input) .failed :=
    rows.update _ _ (fun b named _ => named.trans own.symm) (fun _ => rfl) (fun _ => rfl)
  have commits : ∃ db', Txn.Commits (failBatch input draw) db () db' ∧ Rows c db' .failed ∧
      db'.organizations = db.organizations := by
    by_cases free : input.reservedCredits = 0
    · exact ⟨_, failBatch_commits.2 (.inl ⟨free, rfl⟩), marked, rfl⟩
    · have some_ : 0 < input.reservedCredits := Nat.pos_of_ne_zero free
      by_cases taken : Conflicts (refundEntry input.orgId input.batchId input.reservedCredits
          failureNote draw) db.creditLedger
      · exact ⟨_, failBatch_commits.2 (.inr ⟨some_, small, .inl ⟨taken, rfl⟩⟩), marked, rfl⟩
      · exact ⟨_, failBatch_commits.2 (.inr ⟨some_, small, .inr ⟨taken, rfl⟩⟩),
          ⟨marked.present, marked.rows⟩, rfl⟩
  obtain ⟨db', committed, rest⟩ := commits
  exact ⟨db', Txn.transaction_of_commits committed, rest⟩

/-- A completion marks the batch, or leaves everything as it is. -/
theorem Rows.complete (rows : Rows c db status) (input : CompleteBatchInput)
    (own : input.batchId = c.batchId) (draw : Draw) (now : Date) :
    (∃ db', Txn.transaction (completeBatch input draw now) db = (.ok (), db') ∧
        Rows c db' .done ∧ db'.organizations = db.organizations) ∨
      ∃ error, Txn.transaction (completeBatch input draw now) db = (.error error, db) := by
  have marked : Rows c (db.completed input now) .done :=
    rows.update _ _ (fun b named _ => named.trans own.symm) (fun _ => rfl) (fun _ => rfl)
  rcases Txn.transaction_cases (completeBatch input draw now) db with
    ⟨_, db', commits, eq⟩ | ⟨error, -, eq⟩
  · refine .inl ⟨db', eq, ?_⟩
    rcases completeBatch_commits.1 commits with ⟨-, rfl⟩ | ⟨-, -, -, rfl⟩
    · exact ⟨marked, rfl⟩
    · exact ⟨⟨marked.present, marked.rows⟩, rfl⟩
  · exact .inr ⟨error, eq⟩

/-- A claim takes the batch into processing, or finds nothing to claim. -/
theorem Rows.claim (rows : Rows c db status) :
    (∃ result, Txn.transaction (claimBatchForProcessing c.batchId) db = (.ok result, db) ∧
        result.batch? = none) ∨
      ∃ batch result db', Txn.transaction (claimBatchForProcessing c.batchId) db =
          (.ok result, db') ∧ result.batch? = some batch ∧ rowCreated batch = c ∧
        status.Claimable ∧ Rows c db' .processing ∧ db'.organizations = db.organizations := by
  obtain ⟨result, ⟨commits, nothing, -⟩ | ⟨row, inside, named, claimable, won, commits⟩⟩ :=
    claimBatchForProcessing_commits c.batchId db
  · exact .inl ⟨result, Txn.transaction_of_commits commits, nothing⟩
  · obtain ⟨had, created⟩ := rows.rows row inside named
    rw [had] at claimable
    refine .inr ⟨_, result, _, Txn.transaction_of_commits commits, won, created, claimable, ?_, rfl⟩
    refine rows.update _ _ (fun b here same => ⟨here, ?_⟩) (fun _ => rfl) (fun _ => rfl)
    rwa [same]

/-! ## Events alike -/

section Alike

variable {s : Announcing} {x y z : Option WebhookEvent}

theorem Alike.symm (alike : s.Alike c x y) : s.Alike c y x :=
  alike.imp Eq.symm And.symm

theorem Alike.trans (first : s.Alike c x y) (second : s.Alike c y z) : s.Alike c x z := by
  rcases first with rfl | ⟨here, middle⟩
  · exact second
  · rcases second with rfl | ⟨-, there⟩
    · exact .inr ⟨here, middle⟩
    · exact .inr ⟨here, there⟩

/-- What is alike can stand for one another. -/
theorem Alike.congr (alike : s.Alike c x y) : s.Alike c x z ↔ s.Alike c y z :=
  ⟨alike.symm.trans, alike.trans⟩

/-- Silence is an event that nobody hears. -/
theorem alike_none : s.Alike c none x ↔ s.Deaf c x := by
  refine ⟨?_, fun deaf => .inr ⟨nofun, deaf⟩⟩
  rintro (rfl | ⟨-, deaf⟩)
  · exact nofun
  · exact deaf

theorem name_injective : Function.Injective WebhookEvent.name := by
  intro first second same
  cases first <;> cases second <;> first | rfl | exact absurd same (by decide)

/-- Of two events that are both told, nobody hears one but as the other. -/
theorem Told.deaf (told : s.Told c x) (told' : s.Told c y) (other : x ≠ y) : s.Deaf c x := by
  rintro own settled ⟨e, inside, hears⟩
  have due : s.Due c x e.id own.name := ⟨⟨own, settled, rfl⟩, e, inside, rfl, hears⟩
  have counted := told' e.id own.name
  rw [told, if_pos due] at counted
  by_cases due' : s.Due c y e.id own.name
  · obtain ⟨⟨own', settled', same⟩, -⟩ := due'
    obtain rfl := name_injective same
    exact other (settled.trans settled'.symm)
  · rw [if_neg due'] at counted
    cases counted

theorem Deaf.not_due (deaf : s.Deaf c x) {endpointId : Uuid} {event : String} :
    ¬ s.Due c x endpointId event := by
  rintro ⟨⟨own, settled, rfl⟩, e, inside, -, hears⟩
  exact deaf own settled ⟨e, inside, hears⟩

/-- **What is told** is told of the events that are alike, and of no other. -/
theorem Told.iff_alike (told : s.Told c x) : s.Told c y ↔ s.Alike c x y := by
  constructor
  · intro told'
    by_cases same : x = y
    · exact .inl same
    · exact .inr ⟨told.deaf told' same, told'.deaf told (Ne.symm same)⟩
  · rintro (rfl | ⟨deaf, deaf'⟩)
    · exact told
    · intro endpointId event
      rw [told, if_neg deaf.not_due, if_neg deaf'.not_due]

end Alike

/-! ## The invariant -/

/-- An execution of this batch, whose announcement is of it. -/
structure Own (c : Created) (x : BatchExit) : Prop where
  batch : rowCreated x.batch = c
  event : ∀ event, x.phase = .announcing event →
    event.orgId = c.orgId ∧ event.data.batchId = c.batchId

/-- The batch has this status, and this has been announced of it: nothing while somebody works
on it, and one execution at most ever does. -/
structure Tracked (c : Created) (s : Announcing) (status : BatchStatus)
    (told : Option WebhookEvent) : Prop where
  active : ∃ o ∈ s.db.organizations, o.id = c.orgId ∧ o.Active
  small : Int4 c.totalRows
  rows : Rows c s.db.toDatabase status
  crew : ∀ x ∈ s.executions, s.executions = [x]
  own : ∀ x ∈ s.executions, Own c x
  quiet : s.executions ≠ [] ∨ status.Claimable → told = none
  idle : status.Claimable → s.executions = []
  told : s.Told c told

variable {s : Announcing} {told : Option WebhookEvent}

theorem Tracked.start (initial : Initial c s) : Tracked c s .pending none := by
  obtain ⟨active, row, rows, small, silent, -, -, executions⟩ := initial
  refine ⟨active, small, ⟨row, rows⟩, ?_, ?_, fun _ => rfl, fun _ => executions, ?_⟩
  · rw [executions]
    exact List.forall_mem_nil _
  · rw [executions]
    exact List.forall_mem_nil _
  · intro endpointId event
    rw [silent, if_neg]
    rintro ⟨⟨own, none_, -⟩, -⟩
    cases none_

/-- **The batch is announced** exactly when what was told of it is what its status tells. -/
theorem Tracked.announced_iff_alike (tracked : Tracked c s status told) :
    s.Announced c ↔ s.Alike c told (statusEvent status) := by
  rw [← tracked.told.iff_alike]
  constructor
  · intro announced
    obtain ⟨b, row, named⟩ := tracked.rows.present
    rw [← (tracked.rows.rows b row named).1]
    exact announced b row named
  · intro now b row named
    rw [(tracked.rows.rows b row named).1]
    exact now

/-- The same of every row, for what is said of the status of each. -/
theorem Tracked.forall_rows (tracked : Tracked c s status told) {P : BatchStatus → Prop} :
    (∀ b ∈ s.db.batches, b.id = c.batchId → P b.status) ↔ P status := by
  constructor
  · intro each
    obtain ⟨b, row, named⟩ := tracked.rows.present
    exact (tracked.rows.rows b row named).1 ▸ each b row named
  · intro holds b row named
    rw [(tracked.rows.rows b row named).1]
    exact holds

/-! ## What a step does -/

/-- The tables and the parties change, the deliveries do not. -/
theorem Tracked.update (tracked : Tracked c s status told) {db : Database}
    (rows : Rows c db status') (organizations : db.organizations = s.db.organizations)
    {upload : UploadState} {queued : Bool} {executions : List BatchExit}
    (crew : ∀ x ∈ executions, executions = [x]) (own : ∀ x ∈ executions, Own c x)
    (quiet : executions ≠ [] ∨ status'.Claimable → told = none)
    (idle : status'.Claimable → executions = []) :
    Tracked c { s.withDatabase db with upload, queued, executions } status' told where
  active := by
    show ∃ o ∈ db.organizations, _
    rw [organizations]
    exact tracked.active
  small := tracked.small
  rows := rows
  crew := crew
  own := own
  quiet := quiet
  idle := idle
  told := tracked.told

theorem Tracked.erase (tracked : Tracked c s status told) {x : BatchExit}
    (running : x ∈ s.executions) : s.executions.erase x = [] := by
  rw [tracked.crew x running, List.erase_cons_head]

/-- While somebody works on the batch nothing has been told, and nobody can claim it. -/
theorem Tracked.busy (tracked : Tracked c s status told) {x : BatchExit}
    (running : x ∈ s.executions) : told = none ∧ ¬ status.Claimable := by
  refine ⟨tracked.quiet (.inl (List.ne_nil_of_mem running)), fun claimable => ?_⟩
  rw [tracked.idle claimable] at running
  cases running

/-- An announcement is still to come when the one execution is about to make it. -/
theorem Tracked.pending_iff (tracked : Tracked c s status told) {x : BatchExit}
    (running : x ∈ s.executions) : s.Pending ↔ ∃ event, x.phase = .announcing event := by
  refine ⟨?_, fun announcing => ⟨x, running, announcing⟩⟩
  rintro ⟨x', inside, announcing⟩
  rw [tracked.crew x running] at inside
  exact List.mem_singleton.1 inside ▸ announcing

/-- The one execution goes on, or leaves. -/
theorem Tracked.goesOn (tracked : Tracked c s status told) {x : BatchExit}
    (running : x ∈ s.executions) {db : Database} (rows : Rows c db status')
    (organizations : db.organizations = s.db.organizations) (ended : ¬ status'.Claimable)
    (next : Option ExitPhase) (event : ∀ event, next = some (.announcing event) →
      event.orgId = c.orgId ∧ event.data.batchId = c.batchId) :
    Tracked c ((s.withDatabase db).goesOn x next) status' none ∧
      (((s.withDatabase db).goesOn x next).Pending ↔ ∃ event, next = some (.announcing event)) := by
  have same : told = none := (tracked.busy running).1
  subst same
  have left : ((s.withDatabase db).goesOn x next).executions =
      (next.map fun phase => { x with phase := phase }).toList := by
    show _ ++ s.executions.erase x = _
    rw [tracked.erase running, List.append_nil]
  have after_ : (s.withDatabase db).goesOn x next =
      { s.withDatabase db with
        upload := s.upload
        queued := s.queued
        executions := (next.map fun phase => { x with phase := phase }).toList } := by
    rw [← left]
    rfl
  rw [after_]
  cases next with
  | none =>
      refine ⟨tracked.update rows organizations (List.forall_mem_nil _) (List.forall_mem_nil _)
        (fun _ => rfl) (fun _ => rfl), ?_⟩
      simp [Pending]
  | some phase =>
      have own : Own c { x with phase := phase } :=
        ⟨(tracked.own x running).batch, fun e is => event e (congrArg some is)⟩
      refine ⟨tracked.update rows organizations (List.forall_mem_singleton.2 rfl)
        (List.forall_mem_singleton.2 own) (fun _ => rfl) (fun open_ => absurd open_ ended), ?_⟩
      simp [Pending]

/-- An execution can fail the batch. -/
theorem Tracked.failBatch (tracked : Tracked c s status told) {x : BatchExit}
    (running : x ∈ s.executions) (error : String) (draw : Draw) :
    ∃ db', Txn.transaction (Db.failBatch (failing x.batch error) draw) s.db.toDatabase =
        (.ok (), db') ∧ Rows c db' .failed ∧ db'.organizations = s.db.organizations := by
  have own := (tracked.own x running).batch
  have small : Int4 (rowCreated x.batch).totalRows := by
    rw [own]
    exact tracked.small
  exact tracked.rows.fail (failing x.batch error) (congrArg Created.batchId own) small draw

/-- No step changes who listens. -/
theorem after_endpoints (s : Announcing) (a : AnnouncingAction) :
    (s.after c a).db.webhookEndpoints = s.db.webhookEndpoints := by
  cases a with
  | enqueue accepted reported => rfl
  | refuse draw => rfl
  | deliver =>
      rw [after]
      split <;> rfl
  | exitEarly x draw =>
      rw [after]
      split <;> rfl
  | loop x result draw now =>
      simp only [after]
      split
      · split <;> rfl
      · rfl
      · rfl
  | fail x draw =>
      rw [after]
      split
      · split <;> rfl
      · rfl
  | announce x now ids =>
      rw [after]
      split
      · exact (emitBatchWebhookEvent_keeps _ _ _ _).2
      · rfl
  | die x => rfl

theorem alike_after (s : Announcing) (a : AnnouncingAction) (x y : Option WebhookEvent) :
    (s.after c a).Alike c x y ↔ s.Alike c x y := by
  simp only [Alike, Deaf, Heard, after_endpoints]

/-! ## Steps and runs -/

/-- The batch is announced, or that is still to come. -/
def Fair (c : Created) (s : Announcing) (status : BatchStatus) (told : Option WebhookEvent) :
    Prop :=
  s.Pending ∨ s.Alike c told (statusEvent status)

theorem Tracked.fair_iff (tracked : Tracked c s status told) :
    Fair c s status told ↔ (¬ s.Pending → s.Announced c) := by
  rw [Fair, tracked.announced_iff_alike, or_iff_not_imp_left]

/-- What a step makes of a batch that is tracked. -/
def Follows (c : Created) (s : Announcing) (a : AnnouncingAction) : Prop :=
  ∃ status told, Tracked c (s.after c a) status told ∧
    (Fair c (s.after c a) status told ↔ s.Heralded c a)

theorem Tracked.enqueue (tracked : Tracked c s status told) (fair : Fair c s status told)
    (accepted reported : Bool) : Follows c s (.enqueue accepted reported) :=
  ⟨status, told,
    tracked.update tracked.rows rfl tracked.crew tracked.own tracked.quiet tracked.idle,
    iff_of_true fair trivial⟩

/-- The upload route fails the batch, wherever it is, and says nothing. -/
theorem Tracked.refuse (tracked : Tracked c s status told) (fair : Fair c s status told)
    (draw : Draw) : Follows c s (.refuse draw) := by
  obtain ⟨db', eq, rows, organizations⟩ :=
    tracked.rows.fail (queueUnavailable c) rfl tracked.small draw
  have after_ : s.after c (.refuse draw) = { s.withDatabase db' with upload := .ended } := by
    rw [after, eq]
  have notOpen : ¬ BatchStatus.failed.Claimable := by decide
  refine ⟨.failed, told, ?_, ?_⟩
  · rw [after_]
    exact tracked.update rows organizations tracked.crew tracked.own
      (fun busy => tracked.quiet (.inl (busy.resolve_right notOpen)))
      (fun open_ => absurd open_ notOpen)
  · have pending : (s.after c (.refuse draw)).Pending ↔ s.Pending := by
      rw [after_]
      exact Iff.rfl
    rw [Fair, alike_after, pending, Heralded, tracked.forall_rows
      (P := fun status => s.Alike c (statusEvent status) (some .batchFailed))]
    rcases fair with settling | alike
    · exact iff_of_true (.inl settling) (.inl settling)
    · rw [← alike.congr]
      exact Iff.rfl

/-- A copy of the job claims the batch before anything is said of it, or finds nothing. -/
theorem Tracked.deliver (tracked : Tracked c s status told) (fair : Fair c s status told) :
    Follows c s .deliver := by
  rcases tracked.rows.claim with
    ⟨result, eq, nothing⟩ | ⟨batch, result, db', eq, won, own, claimable, rows, organizations⟩
  · refine ⟨status, told, ?_⟩
    rw [after, eq]
    cases result with
    | notClaimable => exact ⟨tracked, iff_of_true fair trivial⟩
    | claimed _ _ => cases nothing
    | orgUnavailable _ => cases nothing
  · have nobody := tracked.idle claimable
    obtain rfl := tracked.quiet (.inr claimable)
    have claimed : ∀ phase, (∀ event, phase ≠ .announcing event) →
        Tracked c { s.withDatabase db' with executions := ⟨batch, phase⟩ :: s.executions }
          .processing none := by
      intro phase early
      rw [nobody]
      exact tracked.update rows organizations (List.forall_mem_singleton.2 rfl)
        (List.forall_mem_singleton.2 ⟨own, fun event is => absurd is (early event)⟩)
        (fun _ => rfl) (fun open_ => absurd open_ (by decide))
    refine ⟨.processing, none, ?_, iff_of_true (.inr (.inl rfl)) trivial⟩
    rw [after, eq]
    cases result with
    | notClaimable => cases won
    | claimed row days =>
        obtain rfl := Option.some.inj won
        exact claimed _ (fun _ => nofun)
    | orgUnavailable row =>
        obtain rfl := Option.some.inj won
        exact claimed _ (fun _ => nofun)

/-- An exit before the loop fails the batch, and says nothing. -/
theorem Tracked.exitEarly (tracked : Tracked c s status told) {x : BatchExit} {draw : Draw}
    (allowed : s.Allows (.exitEarly x draw)) : Follows c s (.exitEarly x draw) := by
  obtain ⟨running, early⟩ := allowed
  obtain ⟨error, taken⟩ := Option.isSome_iff_exists.1 early
  obtain ⟨db', eq, rows, organizations⟩ := tracked.failBatch running error draw
  have after_ : s.after c (.exitEarly x draw) = (s.withDatabase db').goesOn x none := by
    simp only [after, taken, eq]
  obtain ⟨left, pending⟩ := tracked.goesOn running rows organizations (by decide) none
    (fun _ => nofun)
  refine ⟨.failed, none, after_ ▸ left, ?_⟩
  rw [Fair, alike_after, alike_none, after_, pending]
  simp [Heralded, Deaf, statusEvent]

/-- The execution goes on without settling the batch. -/
theorem Tracked.stays (tracked : Tracked c s status told) (fair : Fair c s status told)
    {x : BatchExit} (running : x ∈ s.executions) (early : ∀ event, x.phase ≠ .announcing event)
    {next : Option ExitPhase} (still : ∀ event, next ≠ some (.announcing event)) :
    Tracked c (s.goesOn x next) status none ∧ Fair c (s.goesOn x next) status none := by
  obtain ⟨left, pending⟩ := tracked.goesOn running tracked.rows rfl (tracked.busy running).2 next
    (fun event is => absurd is (still event))
  refine ⟨left, .inr ?_⟩
  have alike := fair.resolve_left fun settling => by
    obtain ⟨event, announcing⟩ := (tracked.pending_iff running).1 settling
    exact early event announcing
  rw [(tracked.busy running).1] at alike
  exact alike

theorem Tracked.loop (tracked : Tracked c s status told) (fair : Fair c s status told)
    {x : BatchExit} {result : LoopResult} {draw : Draw} {now : Date}
    (allowed : s.Allows (.loop x result draw now)) : Follows c s (.loop x result draw now) := by
  obtain ⟨running, -, -, days, claimed⟩ := allowed
  have early : ∀ event, x.phase ≠ .announcing event := by
    rw [claimed]
    exact fun _ => nofun
  have own := (tracked.own x running).batch
  have fails : ∀ counts, Tracked c (s.goesOn x (some (.failing days counts))) status none ∧
      Fair c (s.goesOn x (some (.failing days counts))) status none :=
    fun counts => tracked.stays fair running early (fun _ => nofun)
  cases result with
  | thrown counts =>
      refine ⟨status, none, ?_⟩
      simp only [after, claimed]
      exact ⟨(fails counts).1, iff_of_true (fails counts).2 trivial⟩
  | through processed stats =>
      rcases tracked.rows.complete (loopCompletion x.batch days processed stats)
          (congrArg Created.batchId own) draw now with
        ⟨db', eq, rows, organizations⟩ | ⟨error, eq⟩
      · obtain ⟨left, pending⟩ := tracked.goesOn running rows organizations (by decide)
          (some (.announcing (completedEvent x.batch days stats.distribution)))
          (fun event is => by
            cases is
            exact ⟨congrArg Created.orgId own, congrArg Created.batchId own⟩)
        refine ⟨.done, none, ?_⟩
        simp only [after, claimed, eq]
        exact ⟨left, iff_of_true (.inl (pending.2 ⟨_, rfl⟩)) trivial⟩
      · refine ⟨status, none, ?_⟩
        simp only [after, claimed, eq]
        exact ⟨(fails _).1, iff_of_true (fails _).2 trivial⟩

theorem Tracked.fail (tracked : Tracked c s status told) {x : BatchExit} {draw : Draw}
    (allowed : s.Allows (.fail x draw)) : Follows c s (.fail x draw) := by
  obtain ⟨running, days, counts, failing_⟩ := allowed
  have own := (tracked.own x running).batch
  obtain ⟨db', eq, rows, organizations⟩ := tracked.failBatch running "processing_failed" draw
  obtain ⟨left, pending⟩ := tracked.goesOn running rows organizations (by decide)
    (some (.announcing (failedEvent x.batch days counts)))
    (fun event is => by
      cases is
      exact ⟨congrArg Created.orgId own, congrArg Created.batchId own⟩)
  refine ⟨.failed, none, ?_⟩
  simp only [after, failing_, eq]
  exact ⟨left, iff_of_true (.inl (pending.2 ⟨_, rfl⟩)) trivial⟩

/-- **An emission tells its event**, whatever the batch has become by then. -/
theorem Tracked.announce (tracked : Tracked c s status told) {x : BatchExit} {now : Date}
    {ids : Uuid → Uuid} (allowed : s.Allows (.announce x now ids)) :
    Follows c s (.announce x now ids) := by
  obtain ⟨running, event, announcing⟩ := allowed
  obtain ⟨orgId, batchId⟩ := (tracked.own x running).event event announcing
  obtain ⟨rfl, busy⟩ := tracked.busy running
  obtain ⟨database, endpoints⟩ := emitBatchWebhookEvent_keeps s.db event now ids
  have after_ : s.after c (.announce x now ids) =
      { s with db := emitBatchWebhookEvent s.db event now ids, executions := [] } := by
    rw [← tracked.erase running]
    simp only [after, announcing]
    rfl
  have silent : ∀ endpointId event, announcements s.db c.batchId endpointId event = 0 := by
    intro endpointId event
    rw [tracked.told, if_neg]
    rintro ⟨⟨_, none_, -⟩, -⟩
    cases none_
  refine ⟨status, some event.event, ?_, ?_⟩
  · rw [after_]
    refine ⟨?_, tracked.small, ?_, List.forall_mem_nil _, List.forall_mem_nil _, ?_,
      fun _ => rfl, ?_⟩
    · show ∃ o ∈ (emitBatchWebhookEvent s.db event now ids).toDatabase.organizations, _
      rw [database]
      exact tracked.active
    · show Rows c (emitBatchWebhookEvent s.db event now ids).toDatabase status
      rw [database]
      exact tracked.rows
    · rintro (nobody | open_)
      · exact absurd rfl nobody
      · exact absurd open_ busy
    · intro endpointId name
      have counted := announcements_emit s.db event now ids c.batchId endpointId name
      rw [silent, Nat.zero_add] at counted
      refine counted.trans (if_congr ?_ rfl rfl)
      have hears : endpointId ∈ findEndpointsForEvent s.db event.orgId event.event.name ↔
          ∃ e ∈ s.db.webhookEndpoints, e.id = endpointId ∧ e.Hears c.orgId event.event.name := by
        rw [orgId]
        exact mem_findEndpointsForEvent tracked.active
      rw [hears]
      show _ ↔ _ ∧ ∃ e ∈ (emitBatchWebhookEvent s.db event now ids).webhookEndpoints, _
      rw [endpoints]
      constructor
      · rintro ⟨-, rfl, heard⟩
        exact ⟨⟨_, rfl, rfl⟩, heard⟩
      · rintro ⟨⟨own, is, rfl⟩, heard⟩
        obtain rfl := Option.some.inj is
        exact ⟨batchId, rfl, heard⟩
  · have pending : ¬ (s.after c (.announce x now ids)).Pending := by
      rw [after_]
      rintro ⟨_, inside, -⟩
      cases inside
    rw [Fair, or_iff_right pending, alike_after, Heralded]
    constructor
    · intro alike event' is
      obtain rfl := ExitPhase.announcing.inj (announcing.symm.trans is)
      exact (tracked.forall_rows
        (P := fun status => s.Alike c (some event.event) (statusEvent status))).2 alike
    · intro right
      exact (tracked.forall_rows
        (P := fun status => s.Alike c (some event.event) (statusEvent status))).1
          (right event announcing)

/-- A worker that dies says nothing any more. -/
theorem Tracked.die (tracked : Tracked c s status told) (fair : Fair c s status told)
    {x : BatchExit} (running : x ∈ s.executions) : Follows c s (.die x) := by
  obtain ⟨left, pending⟩ := tracked.goesOn running tracked.rows rfl (tracked.busy running).2
    none (fun _ => nofun)
  refine ⟨status, none, left, ?_⟩
  have nothing : ¬ (s.after c (.die x)).Pending := fun settling => by
    obtain ⟨_, none_⟩ := pending.1 settling
    cases none_
  have deaf := tracked.forall_rows (P := fun status => s.Deaf c (statusEvent status))
  rw [Fair, or_iff_right nothing, alike_after, alike_none, Heralded, deaf]
  refine ⟨fun silent _ _ => silent, fun lives => ?_⟩
  rcases fair with settling | alike
  · obtain ⟨event, announcing⟩ := (tracked.pending_iff running).1 settling
    exact lives event announcing
  · rw [(tracked.busy running).1] at alike
    exact alike_none.1 alike

/-- **Every step** of a batch that is tracked and announced, or about to be, tracks it, and
leaves it announced, or about to be, exactly when it is heralded. -/
theorem Tracked.step (tracked : Tracked c s status told) (fair : Fair c s status told)
    {a : AnnouncingAction} (allowed : s.Allows a) : Follows c s a := by
  cases a with
  | enqueue accepted reported => exact tracked.enqueue fair accepted reported
  | refuse draw => exact tracked.refuse fair draw
  | deliver => exact tracked.deliver fair
  | exitEarly x draw => exact tracked.exitEarly allowed
  | loop x result draw now => exact tracked.loop fair allowed
  | fail x draw => exact tracked.fail allowed
  | announce x now ids => exact tracked.announce allowed
  | die x => exact tracked.die fair allowed

/-- **Every batch at its end announces itself once**, for every set of endpoints and every run
of the copies of its job: wherever no announcement is still to come, each endpoint has one
delivery of the event of the batch's status if it hears it, and no other, exactly when every
step of the run is heralded. -/
theorem announced_iff {t : Announcing} {tr : List (Transition Announcing AnnouncingAction)}
    (initial : Initial c s) (run : Run (StepOf Allows (after c)) s tr t) :
    (∀ e ∈ tr, ¬ e.target.Pending → e.target.Announced c) ↔
      ∀ e ∈ tr, Heralded c e.source e.action := by
  refine run.guarded_iff (fun s => ∃ status told, Tracked c s status told ∧ Fair c s status told)
    (fun _ _ t => ¬ t.Pending → t.Announced c) ?_ ?_ ?_ ⟨_, _, .start initial, .inr (.inl rfl)⟩
  · rintro s a _ ⟨status, told, tracked, fair⟩ heralded ⟨allowed, rfl⟩
    obtain ⟨status', told', after, exact_⟩ := tracked.step fair allowed
    exact ⟨status', told', after, exact_.2 heralded⟩
  · rintro s a _ ⟨status, told, tracked, fair⟩ heralded ⟨allowed, rfl⟩
    obtain ⟨status', told', after, exact_⟩ := tracked.step fair allowed
    exact after.fair_iff.1 (exact_.2 heralded)
  · rintro s a _ ⟨status, told, tracked, fair⟩ ⟨allowed, rfl⟩ good
    obtain ⟨status', told', after, exact_⟩ := tracked.step fair allowed
    exact exact_.1 (after.fair_iff.2 good)

/-! ## A queue that takes no job -/

def refusedBatch : Batch :=
  { id := .numbered 4
    orgId := .numbered 1
    filename := "list.csv"
    status := .pending
    totalRows := 2
    processedRows := 0
    error := none
    stats := some ⟨0, true, 0, 0, 0, 0, 0, ⟨0, 0, 0, 0⟩⟩
    inputObjectKey := "org/1/batches/4/input.csv"
    resultObjectKey := none
    createdAt := 0
    completedAt := none
    expiresAt := 2592000000000 }

/-- An endpoint that hears of failed batches. -/
def failureEndpoint : WebhookEndpoint :=
  ⟨.numbered 2, .numbered 1, "https://example.com/hook", "whsec_sample", ["batch.failed"], true,
    none⟩

theorem failureEndpoint_alone : ([failureEndpoint].map (·.id)).Nodup := List.nodup_singleton _

def uploadDatabase : WebhookDatabase where
  organizations := [⟨.numbered 1, none, 30, false⟩]
  creditLedger := []
  emailChecks := []
  phoneChecks := []
  batches := [refusedBatch]
  auditEvents := []
  webhookEndpoints := [failureEndpoint]
  webhookDeliveries := []
  endpointIds := failureEndpoint_alone

/-- The upload route has created the batch. -/
def uploaded : Announcing := ⟨uploadDatabase, .enqueueing, false, []⟩

/-- The queue refuses the job, and the route fails the batch. -/
def refusal : List AnnouncingAction :=
  [.enqueue false false, .refuse ⟨0, .numbered 5, .numbered 6, .numbered 7⟩]

def refused : Announcing := refusal.foldl (after (rowCreated refusedBatch)) uploaded

theorem refusal_run : Run (StepOf Allows (after (rowCreated refusedBatch))) uploaded
    (transitions (after (rowCreated refusedBatch)) uploaded refusal) refused :=
  Executable.run_transitions ⟨⟨rfl, id⟩, rfl, trivial⟩

/-- The batch has failed, and the endpoint is not told. -/
theorem refused_unannounced :
    Run (StepOf Allows (after (rowCreated refusedBatch))) uploaded
        (transitions (after (rowCreated refusedBatch)) uploaded refusal) refused ∧
      refused.db.batches.map (·.status) = [.failed] ∧ ¬ refused.Pending ∧
      ¬ refused.Announced (rowCreated refusedBatch) := by
  refine ⟨refusal_run, by decide +kernel, ?_, ?_⟩
  · intro pending
    obtain ⟨x, running, -⟩ := pending
    cases running
  · intro announced
    have told := announced (refusedBatch.fail "queue_unavailable") (by decide +kernel) rfl
      failureEndpoint.id "batch.failed"
    rw [if_pos (by decide +kernel)] at told
    exact absurd told (by decide +kernel)

theorem announced_iff_refused :
    (∀ e ∈ transitions (after (rowCreated refusedBatch)) uploaded refusal,
        ¬ e.target.Pending → e.target.Announced (rowCreated refusedBatch)) ↔
      ∀ e ∈ transitions (after (rowCreated refusedBatch)) uploaded refusal,
        Heralded (rowCreated refusedBatch) e.source e.action :=
  announced_iff
    ⟨by decide +kernel, by decide +kernel, by decide +kernel, by decide, fun _ _ => rfl, rfl, rfl,
      rfl⟩
    refusal_run

end Announcing

end Tozalist.Worker
