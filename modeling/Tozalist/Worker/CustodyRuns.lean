/-
# Tozalist.Worker.CustodyRuns -- the machines of the worker run in the custody

`Worker.Stranding` follows one execution between its streams, and `Worker.Announcement` what the
exits of a batch announce; both leave out most of what `Credits.Custody` has in flight, and have
in detail what it only calls a worker.  Here every run of theirs is a run of the custody: an
execution is a worker until it has settled the batch, and what it does besides is no step.

* `Carried` -- the custody has the tables, and what the machine has in flight;
* `stranding_runs` and `announcing_runs` -- what the two machines do, the custody can do.

So what is said about all runs of the custody is said about theirs.  `Worker.FilesCustody` does the
same for the machine with the bucket.
-/
import Tozalist.Credits.Custody
import Tozalist.Worker.Announcement
import Tozalist.Worker.Stranding

namespace Tozalist.Worker

set_option autoImplicit false

open Credits (Created Custody failInput queueUnavailable rowCreated)
open Credits.Settlement (Worker)
open Db
open Theory (Run StepOf Transition Txn)
open Theory.Txn (Delivery)

/-! ## What the custody does -/

/-- What a machine has of the custody. -/
structure Manifest where
  db : Database
  /-- Ids under which a batch was to be created. -/
  ids : List Uuid
  requests : List Created
  refusals : List Created
  jobs : List Uuid
  crew : List Worker
  pages : List (List BatchPurgeTarget)

/-- The custody has the tables and the workers of the machine, at least its calls, its jobs and
its pages, and no batch but under its ids. -/
structure Carried (m : Manifest) (s : Custody) : Prop where
  db : s.db = m.db
  created : ∀ c ∈ s.created, c.batchId ∈ m.ids
  requests : m.requests.Subperm s.requests
  refusals : m.refusals.Subperm s.refusals
  jobs : m.jobs ⊆ s.jobs
  running : s.running.Perm m.crew
  pages : m.pages.Subperm s.pages

/-- Some run of the custody leads there. -/
def Leads (sha256Hex : JsString → String) (s : Custody) (there : Custody → Prop) : Prop :=
  ∃ tr s', Run (Custody.step sha256Hex) s tr s' ∧ there s'

section Moves

variable {sha256Hex : JsString → String} {s : Custody} {there there' : Custody → Prop}

theorem Leads.here (holds : there s) : Leads sha256Hex s there :=
  ⟨[], s, .refl s, holds⟩

theorem Leads.onward (leads : Leads sha256Hex s there)
    (further : ∀ s', there s' → Leads sha256Hex s' there') : Leads sha256Hex s there' := by
  obtain ⟨tr, s', run, holds⟩ := leads
  obtain ⟨tr', s'', run', holds'⟩ := further s' holds
  exact ⟨tr ++ tr', s'', run.trans run', holds'⟩

theorem Leads.step {a : Custody.Action} (allowed : s.Allows a)
    (holds : there (s.after sha256Hex a)) : Leads sha256Hex s there :=
  ⟨_, _, .single ⟨allowed, rfl⟩, holds⟩

/-- One of them is taken, here and there. -/
theorem erase_subperm {α : Type} [BEq α] [LawfulBEq α] {a : α} {l rest l' : List α}
    (has : l.Perm (a :: rest)) (fewer : l.Subperm l') : rest.Subperm (l'.erase a) := by
  have erased := (has.symm.subperm.trans fewer).erase a
  rwa [List.erase_cons_head] at erased

/-- Who has won the claim. -/
def claimant : Option ClaimBatchResult → Option Worker
  | some (.claimed batch _) => some ⟨batch, false⟩
  | some (.orgUnavailable batch) => some ⟨batch, true⟩
  | _ => none

/-- The upload that goes on to the queue. -/
def requested (input : CreateBatchInput) : Option CreateBatchResult → Option Created
  | some (.created _ _) => some ⟨input.orgId, input.batchId, input.totalRows⟩
  | _ => none

theorem mem_recorded {c c' : Created} {answer : Option CreateBatchResult}
    (member : c' ∈ s.recorded c answer) : c' ∈ s.created ∨ c' = c := by
  rcases answer with _ | _ | _ | _
  · exact .inl member
  · exact (List.mem_append.1 member).imp_right List.mem_singleton.1
  · exact .inl member
  · exact .inl member

namespace Carried

variable {m : Manifest} {rest : List Worker} {w : Worker} {b : Batch} {c : Created}

theorem member (carried : Carried m s) (has : m.crew.Perm (w :: rest)) : w ∈ s.running :=
  (carried.running.trans has).mem_iff.2 List.mem_cons_self

theorem erase (carried : Carried m s) (has : m.crew.Perm (w :: rest)) :
    (s.running.erase w).Perm rest := by
  have erased := (carried.running.trans has).erase w
  rwa [List.erase_cons_head] at erased

/-- The crew in another order. -/
theorem perm (carried : Carried m s) (same : m.crew.Perm rest) :
    Carried { m with crew := rest } s :=
  { carried with running := carried.running.trans same }

/-- The custody has less to carry. -/
theorem fewer (carried : Carried m s) {requests refusals : List Created}
    {pages : List (List BatchPurgeTarget)} (asks : requests.Subperm m.requests)
    (told : refusals.Subperm m.refusals) (listed : pages.Subperm m.pages) :
    Carried { m with requests := requests, refusals := refusals, pages := pages } s :=
  { carried with
    requests := asks.trans carried.requests
    refusals := told.trans carried.refusals
    pages := listed.trans carried.pages }

/-- A call of nobody's changes the tables. -/
theorem changed (carried : Carried m s) {a : Custody.Action} (allowed : s.Allows a)
    (change : Database → Database)
    (is : s.after sha256Hex a = { s with db := change s.db }) :
    Leads sha256Hex s (Carried { m with db := change m.db }) := by
  refine .step allowed ?_
  rw [is]
  exact { carried with db := congrArg change carried.db }

/-- A call of the worker fails. -/
theorem turn (carried : Carried m s) (has : m.crew.Perm (⟨b, false⟩ :: rest)) :
    Leads sha256Hex s (Carried { m with crew := ⟨b, true⟩ :: rest }) :=
  .step (a := .stumble ⟨b, false⟩) ⟨carried.member has, rfl⟩
    { carried with running := (carried.erase has).cons _ }

/-- A worker in its `catch` branch fails the batch. -/
theorem fail (carried : Carried m s) (has : m.crew.Perm (⟨b, true⟩ :: rest)) (error : String)
    (draw : Draw) (delivery : Delivery) :
    Leads sha256Hex s (Carried { m with
      db := (Txn.attempt delivery (failBatch (failInput b error) draw) m.db).2
      crew := rest }) := by
  refine .step (a := .fail ⟨b, true⟩ error draw delivery) ⟨carried.member has, rfl⟩ ?_
  exact { carried with
    db := congrArg (fun db => (Txn.attempt delivery (failBatch (failInput b error) draw) db).2)
      carried.db
    running := carried.erase has }

/-- A worker dies, or is through. -/
theorem die (carried : Carried m s) (has : m.crew.Perm (w :: rest)) :
    Leads sha256Hex s (Carried { m with crew := rest }) :=
  .step (a := .die w) (carried.member has) { carried with running := carried.erase has }

/-- A completion: the worker has nothing left to settle, or goes on in its `catch` branch. -/
theorem complete (carried : Carried m s) (has : m.crew.Perm (⟨b, false⟩ :: rest))
    {input : CompleteBatchInput}
    (own : ⟨input.orgId, input.batchId, input.reservedCredits⟩ = rowCreated b)
    (le : input.chargedCredits ≤ input.reservedCredits) {draw : Draw} {now : Date}
    {delivery : Delivery} {answer : Option Unit} {db : Database}
    (is : Txn.attempt delivery (completeBatch input draw now) m.db = (answer, db)) :
    Leads sha256Hex s (Carried { m with
      db := db
      crew := match answer with
        | some _ => rest
        | none => ⟨b, true⟩ :: rest }) := by
  refine .step (a := .complete ⟨b, false⟩ input draw now delivery)
    ⟨carried.member has, rfl, own, le⟩ ?_
  simp only [Custody.after, carried.db, is]
  cases answer with
  | some _ => exact { carried with db := rfl, running := carried.erase has }
  | none => exact { carried with db := rfl, running := (carried.erase has).cons _ }

/-- The job is handed out. -/
theorem deliver (carried : Carried m s) {batchId : Uuid} (taken : batchId ∈ m.jobs)
    {delivery : Delivery} {answer : Option ClaimBatchResult} {db : Database}
    (is : Txn.attempt delivery (claimBatchForProcessing batchId) m.db = (answer, db)) :
    Leads sha256Hex s
      (Carried { m with db := db, crew := (claimant answer).toList ++ m.crew }) := by
  refine .step (a := .deliver batchId delivery) (carried.jobs taken) ?_
  simp only [Custody.after, carried.db, is]
  rcases answer with _ | _ | _ | _
  · exact { carried with db := rfl }
  · exact { carried with db := rfl, running := carried.running.cons _ }
  · exact { carried with db := rfl, running := carried.running.cons _ }
  · exact { carried with db := rfl }

/-- An upload submits its row. -/
theorem upload (carried : Carried m s) {input : CreateBatchInput} (rows : 1 ≤ input.totalRows)
    (fresh : input.batchId ∉ m.ids) {draw : Draw} {now : Date} {delivery : Delivery}
    {answer : Option CreateBatchResult} {db : Database}
    (is : Txn.attempt delivery (createBatchWithReservation input draw now) m.db = (answer, db)) :
    Leads sha256Hex s (Carried { m with
      db := db
      ids := input.batchId :: m.ids
      requests := (requested input answer).toList ++ m.requests }) := by
  have unused : ∀ c ∈ s.created, c.batchId ≠ input.batchId := by
    rintro c member same
    exact fresh (same ▸ carried.created c member)
  refine .step (a := .upload input draw now delivery) ⟨rows, unused⟩ ?_
  have known : ∀ result, ∀ c ∈ s.recorded ⟨input.orgId, input.batchId, input.totalRows⟩ result,
      c.batchId ∈ input.batchId :: m.ids := by
    intro result c member
    rcases mem_recorded member with old | rfl
    · exact List.mem_cons_of_mem _ (carried.created c old)
    · exact List.mem_cons_self
  simp only [Custody.after, carried.db, is]
  rcases answer with _ | _ | _ | _
  · exact { carried with db := rfl, created := known _ }
  · exact { carried with
      db := rfl, created := known _, requests := (List.subperm_cons _).2 carried.requests }
  · exact { carried with db := rfl, created := known _ }
  · exact { carried with db := rfl, created := known _ }

/-- It calls the queue. -/
theorem enqueue (carried : Carried m s) {requests : List Created}
    (has : m.requests.Perm (c :: requests)) {accepted reported : Bool}
    (honest : reported = true → accepted = true) :
    Leads sha256Hex s (Carried { m with
      requests := requests
      refusals := if reported then m.refusals else c :: m.refusals
      jobs := if accepted then c.batchId :: m.jobs else m.jobs }) := by
  have waits : c ∈ s.requests := carried.requests.subset (has.mem_iff.2 List.mem_cons_self)
  refine .step (a := .enqueue c accepted reported) ⟨waits, honest⟩ ?_
  refine { carried with
    requests := erase_subperm has carried.requests, refusals := ?_, jobs := ?_ }
  · cases reported with
    | true => exact carried.refusals
    | false => exact (List.subperm_cons _).2 carried.refusals
  · cases accepted with
    | true => exact List.cons_subset_cons _ carried.jobs
    | false => exact carried.jobs

/-- It fails the batch after a call that threw. -/
theorem refuse (carried : Carried m s) {refusals : List Created}
    (has : m.refusals.Perm (c :: refusals)) (draw : Draw) (delivery : Delivery) :
    Leads sha256Hex s (Carried { m with
      db := (Txn.attempt delivery (failBatch (queueUnavailable c) draw) m.db).2
      refusals := refusals }) := by
  have waits : c ∈ s.refusals := carried.refusals.subset (has.mem_iff.2 List.mem_cons_self)
  refine .step (a := .refuse c draw delivery) waits ?_
  exact { carried with
    db := congrArg (fun db => (Txn.attempt delivery (failBatch (queueUnavailable c) draw) db).2)
      carried.db
    refusals := erase_subperm has carried.refusals }

/-- The organisation deletes a batch. -/
theorem delete (carried : Carried m s) (batchId orgId : Uuid) (draw : Draw)
    (delivery : Delivery) :
    Leads sha256Hex s (Carried { m with
      db := (Txn.attempt delivery (deleteBatchForOrg batchId orgId draw) m.db).2 }) := by
  have takesEffect : Leads sha256Hex s (Carried { m with
      db := (Txn.transaction (deleteBatchForOrg batchId orgId draw) m.db).2 }) :=
    carried.changed (a := .delete batchId orgId draw) trivial
      (fun db => (Txn.transaction (deleteBatchForOrg batchId orgId draw) db).2) rfl
  cases delivery with
  | answered => exact takesEffect
  | lostAfter => exact takesEffect
  | lostBefore => exact .here carried

/-- A wipe that has deleted its objects. -/
theorem wipe (carried : Carried m s) {orgId : Uuid} (active : m.db.ActiveOrg orgId)
    (delivery : Delivery) :
    Leads sha256Hex s (Carried { m with
      db := (Txn.attempt delivery (modify fun db => db.wiped orgId : Tx Unit) m.db).2 }) := by
  have takesEffect : Leads sha256Hex s (Carried { m with db := m.db.wiped orgId }) := by
    have wiped : Leads sha256Hex s (Carried { m with
        db := (Txn.transaction (wipeCheckDataForOrg orgId fun _ => true) m.db).2 }) :=
      carried.changed (a := .wipe orgId fun _ => true) trivial
        (fun db => (Txn.transaction (wipeCheckDataForOrg orgId fun _ => true) db).2) rfl
    rwa [wipeCheckDataForOrg_transaction active] at wiped
  cases delivery with
  | answered => exact takesEffect
  | lostAfter => exact takesEffect
  | lostBefore => exact .here carried

theorem sweepList (carried : Carried m s) {now : Date} {limit : ℕ}
    {page : List BatchPurgeTarget} (expired : m.db.IsExpiredPage now limit page) :
    Leads sha256Hex s (Carried { m with pages := page :: m.pages }) := by
  have allowed : s.Allows (.sweepList now limit page) := by
    show s.db.IsExpiredPage now limit page
    rw [carried.db]
    exact expired
  exact .step allowed { carried with pages := (List.subperm_cons _).2 carried.pages }

theorem sweepDelete (carried : Carried m s) {page : List BatchPurgeTarget}
    {pages : List (List BatchPurgeTarget)} (has : m.pages.Perm (page :: pages))
    (delivery : Delivery) :
    Leads sha256Hex s (Carried { m with
      db := (Txn.attempt delivery (deleteBatchesByIds (page.map (·.id))) m.db).2
      pages := pages }) := by
  have waits : page ∈ s.pages := carried.pages.subset (has.mem_iff.2 List.mem_cons_self)
  have takesEffect : Leads sha256Hex s (Carried { m with
      db := (Txn.transaction (deleteBatchesByIds (page.map (·.id))) m.db).2
      pages := pages }) := by
    refine .step (a := .sweepDelete page) waits
      { carried with db := ?_, pages := erase_subperm has carried.pages }
    show (Txn.transaction (deleteBatchesByIds (page.map (·.id))) s.db).2 = _
    rw [carried.db]
  have fewer : pages.Subperm m.pages := (List.Subperm.cons_self).trans has.symm.subperm
  cases delivery with
  | answered => exact takesEffect
  | lostAfter => exact takesEffect
  | lostBefore => exact .here { carried with pages := fewer.trans carried.pages }

end Carried

end Moves

section Crew

variable {α β : Type} (f : α → Option β) (a : α) (l : List α)

theorem filterMap_cons_toList : (a :: l).filterMap f = (f a).toList ++ l.filterMap f := by
  rw [List.filterMap_cons]
  cases f a <;> rfl

variable {a l} in
/-- Those of a list apart from one of them. -/
theorem crew_perm [DecidableEq α] (member : a ∈ l) :
    (l.filterMap f).Perm ((f a).toList ++ (l.erase a).filterMap f) := by
  rw [← filterMap_cons_toList]
  exact (List.perm_cons_erase member).filterMap f

end Crew

/-! ## An execution between its streams -/

/-- The worker that an execution is, until it has settled the batch. -/
def Execution.worker? (e : Execution) : Option Worker :=
  match e.phase with
  | .ended => none
  | .failing _ => some ⟨e.batch, true⟩
  | _ => some ⟨e.batch, false⟩

def Dispatch.crew (d : Dispatch) : List Worker := d.executions.filterMap (·.worker?)

section Stranding

variable {highWaterMark : ℕ} {e e' : Execution} {d : Dispatch}

theorem Execution.worker?_of_inLoop (looping : e.phase.inLoop = true) :
    e.worker? = some ⟨e.batch, false⟩ := by
  cases phase : e.phase <;> rw [phase] at looping <;>
    first | (rw [worker?, phase]; done) | cases looping

theorem Execution.worker?_write {line : ℕ} {lines : List ℕ} {last : Bool} :
    ∃ failing, (e.write highWaterMark line lines last).worker? = some ⟨e.batch, failing⟩ := by
  refine ⟨false, ?_⟩
  by_cases fits : e.buffered + line < highWaterMark <;> simp [write, worker?, fits]

/-- Who works has not settled the batch yet, and may get to its `catch` branch by that. -/
theorem Execution.worker?_of_proceed {w : Work} (proceeds : e.proceed highWaterMark w = some e') :
    e.worker? = some ⟨e.batch, false⟩ ∧ ∃ failing, e'.worker? = some ⟨e.batch, failing⟩ := by
  have active : e.worker? = some ⟨e.batch, false⟩ := by
    cases phase : e.phase with
    | ended =>
        rw [Execution.proceed_ended phase] at proceeds
        cases proceeds
    | failing error =>
        cases w <;>
          simp [Execution.proceed, phase, Phase.inLoop, Phase.uploads] at proceeds
    | _ => rw [worker?, phase]
  refine ⟨active, ?_⟩
  -- the batch stays, and no work ends an execution
  cases w <;> simp only [Execution.proceed] at proceeds <;> (repeat' split at proceeds) <;>
    cases proceeds
  all_goals first | exact ⟨_, active⟩ | exact ⟨_, rfl⟩ | exact Execution.worker?_write

theorem Dispatch.crew_update :
    (d.update e e').crew = e'.worker?.toList ++ (d.executions.erase e).filterMap (·.worker?) :=
  filterMap_cons_toList _ _ _

variable {sha256Hex : JsString → String} {c : Created} {ids : List Uuid} {s : Custody}

/-- What the executions of the job have of the custody. -/
def Dispatch.manifest (c : Created) (ids : List Uuid) (d : Dispatch) : Manifest where
  db := d.db
  ids := ids
  requests := []
  refusals := []
  jobs := [c.batchId]
  crew := d.crew
  pages := []

/-- **A step of an execution** is one of the custody, or none. -/
theorem stranding_step (carried : Carried (d.manifest c ids) s) {a : Action}
    (allowed : d.Allows highWaterMark a) :
    Leads sha256Hex s (Carried ((d.after highWaterMark c a).manifest c ids)) := by
  -- an execution of the crew goes on as the same worker
  have stays : ∀ e e', e ∈ d.executions → e'.worker? = e.worker? →
      Leads sha256Hex s (Carried ((d.update e e').manifest c ids)) := by
    intro e e' member same
    rw [Dispatch.manifest, Dispatch.crew_update, same]
    exact .here (carried.perm (crew_perm Execution.worker? member))
  have turns : ∀ e e', e ∈ d.executions → e.worker? = some ⟨e.batch, false⟩ →
      e'.worker? = some ⟨e.batch, true⟩ →
      Leads sha256Hex s (Carried ((d.update e e').manifest c ids)) := by
    intro e e' member active failing
    have has := crew_perm Execution.worker? member
    rw [active] at has
    rw [Dispatch.manifest, Dispatch.crew_update, failing]
    exact carried.turn has
  cases a with
  | deliver =>
      cases is : Txn.transaction (claimBatchForProcessing c.batchId) d.db with
      | mk answer db' =>
          have led : Leads sha256Hex s _ :=
            carried.deliver List.mem_cons_self (Txn.attempt_answered is)
          simp only [Dispatch.after, is]
          rcases answer with _ | _ | _ | _ <;> exact led
  | redeliver => exact .here carried
  | work e w =>
      obtain ⟨member, works⟩ := allowed
      obtain ⟨e', proceeds⟩ := Option.isSome_iff_exists.1 works
      simp only [Dispatch.after, proceeds]
      obtain ⟨active, failing, goesOn⟩ := Execution.worker?_of_proceed proceeds
      cases failing with
      | false => exact stays e e' member (goesOn.trans active.symm)
      | true => exact turns e e' member active goesOn
  | complete e input draw now =>
      obtain ⟨member, completing, own, -, le⟩ := allowed
      have has := crew_perm Execution.worker? member
      rw [show e.worker? = some ⟨e.batch, false⟩ by simp [Execution.worker?, completing]] at has
      cases is : Txn.transaction (completeBatch input draw now) d.db with
      | mk answer db' =>
          have led : Leads sha256Hex s _ := carried.complete has own le (Txn.attempt_answered is)
          simp only [Dispatch.after, is]
          cases answer <;> (rw [Dispatch.manifest, Dispatch.crew_update]; exact led)
  | fail e error draw =>
      obtain ⟨member, failing⟩ := allowed
      have has := crew_perm Execution.worker? member
      rw [show e.worker? = some ⟨e.batch, true⟩ by simp [Execution.worker?, failing]] at has
      rw [Dispatch.after, Dispatch.manifest, Dispatch.crew_update]
      exact carried.fail has error draw .answered
  | leave e =>
      obtain ⟨member, ended⟩ := allowed
      have has := crew_perm Execution.worker? member
      rw [show e.worker? = none by simp [Execution.worker?, ended]] at has
      exact .here (carried.perm has)
  | inputFails e => exact stays e _ allowed.1 rfl
  | uploadFails e => exact stays e _ allowed.1 rfl
  | throws e =>
      exact turns e _ allowed.1 (Execution.worker?_of_inLoop allowed.2) rfl
  | die e =>
      have has := crew_perm Execution.worker? allowed
      cases is : e.worker? with
      | none =>
          rw [is] at has
          exact .here (carried.perm has)
      | some w =>
          rw [is] at has
          exact carried.die has
  | delete orgId draw => exact carried.delete c.batchId orgId draw .answered

/-- **What an execution does between its streams, the custody does.** -/
theorem stranding_runs {d' : Dispatch} {tr : List (Transition Dispatch Action)}
    (carried : Carried (d.manifest c ids) s) (run : Run (step highWaterMark c) d tr d') :
    Leads sha256Hex s (Carried (d'.manifest c ids)) := by
  induction run with
  | refl => exact .here carried
  | next _ last ih =>
      obtain ⟨allowed, rfl⟩ := last
      exact ih.onward fun s' carried' => stranding_step carried' allowed

end Stranding

/-! ## The exits of a batch -/

/-- The worker that an execution is, until it announces what it has settled. -/
def BatchExit.worker? (x : BatchExit) : Option Worker :=
  match x.phase with
  | .orgUnavailable => some ⟨x.batch, true⟩
  | .claimed _ => some ⟨x.batch, false⟩
  | .failing _ _ => some ⟨x.batch, true⟩
  | .announcing _ => none

namespace UploadState

/-- The upload waits for the queue. -/
def requests (c : Created) : UploadState → List Created
  | .enqueueing => [c]
  | _ => []

/-- It was told that the queue is unavailable. -/
def refusals (c : Created) : UploadState → List Created
  | .refusing => [c]
  | _ => []

end UploadState

namespace Announcing

def crew (a : Announcing) : List Worker := a.executions.filterMap (·.worker?)

/-- What the exits of the batch have of the custody. -/
def manifest (c : Created) (ids : List Uuid) (a : Announcing) : Manifest where
  db := a.db.toDatabase
  ids := ids
  requests := a.upload.requests c
  refusals := a.upload.refusals c
  jobs := if a.queued then [c.batchId] else []
  crew := a.crew
  pages := []

/-- A loop that has gone through charges its rows at most; `processBatch` does (the field `within`
of `Deduplicated`). -/
def Pays : AnnouncingAction → Prop
  | .loop x (.through _ stats) _ _ => stats.charged ≤ x.batch.totalRows
  | _ => True

variable {sha256Hex : JsString → String} {c : Created} {ids : List Uuid} {s : Custody}
  {a : Announcing}

theorem crew_goesOn (db : Database) (x : BatchExit) (next : Option ExitPhase) :
    ((a.withDatabase db).goesOn x next).crew =
      (next.bind fun phase => ({ x with phase := phase } : BatchExit).worker?).toList ++
        (a.executions.erase x).filterMap (·.worker?) := by
  cases next with
  | none => rfl
  | some phase => exact filterMap_cons_toList _ _ _

/-- The others stay as they are while one execution goes on. -/
theorem leads_goesOn {db : Database} {x : BatchExit} {next : Option ExitPhase} {s : Custody}
    (led : Leads sha256Hex s (Carried { a.manifest c ids with
      db := db
      crew := (next.bind fun phase => ({ x with phase := phase } : BatchExit).worker?).toList ++
        (a.executions.erase x).filterMap (·.worker?) })) :
    Leads sha256Hex s (Carried (((a.withDatabase db).goesOn x next).manifest c ids)) := by
  rw [manifest, crew_goesOn]
  exact led

/-- **A step of an exit** is one or two of the custody, or none. -/
theorem announcing_step (carried : Carried (a.manifest c ids) s) {action : AnnouncingAction}
    (allowed : a.Allows action) (pays : Pays action) :
    Leads sha256Hex s (Carried ((a.after c action).manifest c ids)) := by
  cases action with
  | enqueue accepted reported =>
      obtain ⟨enqueuing, honest⟩ := allowed
      rw [manifest, enqueuing] at carried
      refine (carried.enqueue (.refl _) honest).onward fun s' carried' => .here ?_
      refine ⟨carried'.db, carried'.created, ?_, ?_, ?_, carried'.running, carried'.pages⟩
      · cases reported <;> exact carried'.requests
      · cases reported <;> exact carried'.refusals
      · refine List.Subset.trans ?_ carried'.jobs
        cases accepted with
        | true => exact List.cons_subset_cons _ (List.nil_subset _)
        | false => exact List.nil_subset _
  | refuse draw =>
      have refusing : a.upload = .refusing := allowed
      rw [manifest, refusing] at carried
      exact carried.refuse (.refl _) draw .answered
  | deliver =>
      have queued : a.queued = true := allowed
      have taken : c.batchId ∈ (a.manifest c ids).jobs := by simp [manifest, queued]
      cases is : Txn.transaction (claimBatchForProcessing c.batchId) a.db.toDatabase with
      | mk answer db' =>
          have led : Leads sha256Hex s _ := carried.deliver taken (Txn.attempt_answered is)
          simp only [after, is]
          rcases answer with _ | _ | _ | _ <;> exact led
  | exitEarly x draw =>
      obtain ⟨member, early⟩ := allowed
      obtain ⟨error, taken⟩ := Option.isSome_iff_exists.1 early
      have has := crew_perm BatchExit.worker? member
      simp only [after, taken]
      apply leads_goesOn
      cases phase : x.phase with
      | orgUnavailable =>
          rw [show x.worker? = some ⟨x.batch, true⟩ by rw [BatchExit.worker?, phase]] at has
          exact carried.fail has error draw .answered
      | claimed days =>
          -- the layout is looked at before anything is done
          rw [show x.worker? = some ⟨x.batch, false⟩ by rw [BatchExit.worker?, phase]] at has
          exact (carried.turn has).onward fun s' carried' =>
            carried'.fail (.refl _) error draw .answered
      | failing days counts => simp [earlyError, phase] at taken
      | announcing event => simp [earlyError, phase] at taken
  | loop x result draw now =>
      obtain ⟨member, -, -, days, claimed⟩ := allowed
      have has := crew_perm BatchExit.worker? member
      rw [show x.worker? = some ⟨x.batch, false⟩ by rw [BatchExit.worker?, claimed]] at has
      cases result with
      | thrown counts =>
          simp only [after, claimed]
          exact leads_goesOn (carried.turn has)
      | through processed stats =>
          have le : (loopCompletion x.batch days processed stats).chargedCredits ≤
              (loopCompletion x.batch days processed stats).reservedCredits := pays
          cases is : Txn.transaction (completeBatch (loopCompletion x.batch days processed stats)
              draw now) a.db.toDatabase with
          | mk answer db' =>
              have led : Leads sha256Hex s _ :=
                carried.complete has rfl le (Txn.attempt_answered is)
              simp only [after, claimed, is]
              cases answer <;> exact leads_goesOn led
  | fail x draw =>
      obtain ⟨member, days, counts, failing_⟩ := allowed
      have has := crew_perm BatchExit.worker? member
      rw [show x.worker? = some ⟨x.batch, true⟩ by rw [BatchExit.worker?, failing_]] at has
      have failed : Leads sha256Hex s _ := carried.fail has "processing_failed" draw .answered
      cases is : Txn.transaction (failBatch (failing x.batch "processing_failed") draw)
          a.db.toDatabase with
      | mk answer db' =>
          have attempted : Txn.attempt .answered
              (failBatch (failInput x.batch "processing_failed") draw) (a.manifest c ids).db =
              (answer.toOption, db') := Txn.attempt_answered is
          rw [attempted] at failed
          simp only [after, failing_, is]
          cases answer <;> exact leads_goesOn failed
  | announce x now ids' =>
      obtain ⟨member, event, announcing⟩ := allowed
      have has := crew_perm BatchExit.worker? member
      rw [show x.worker? = none by rw [BatchExit.worker?, announcing]] at has
      simp only [after, announcing]
      have database := (emitBatchWebhookEvent_keeps a.db event now ids').1
      refine .here { carried.perm has with db := ?_ }
      exact carried.db.trans database.symm
  | die x =>
      have has := crew_perm BatchExit.worker? allowed
      cases is : x.worker? with
      | none =>
          rw [is] at has
          exact .here (carried.perm has)
      | some w =>
          rw [is] at has
          exact carried.die has

/-- **What the exits of a batch do, the custody does**, where a loop charges its rows at most. -/
theorem announcing_runs {a' : Announcing} {tr : List (Transition Announcing AnnouncingAction)}
    (carried : Carried (a.manifest c ids) s) (run : Run (StepOf Allows (after c)) a tr a')
    (pays : ∀ e ∈ tr, Pays e.action) : Leads sha256Hex s (Carried (a'.manifest c ids)) := by
  induction run with
  | refl => exact .here carried
  | next _ last ih =>
      obtain ⟨allowed, rfl⟩ := last
      have before := ih fun e member => pays e (List.mem_append_left _ member)
      have now := pays _ (List.mem_append_right _ (List.mem_singleton.2 rfl))
      exact before.onward fun s' carried' => announcing_step carried' allowed now

end Announcing

end Tozalist.Worker
