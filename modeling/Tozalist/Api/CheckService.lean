/-
# Tozalist.Api.CheckService -- requests and probe jobs on one check

`performEmailCheck` of `apps/api/src/check-service.ts` from the row it has created or found
on, and the probe jobs of the worker on the same row.  A request marks the snapshot it has read
as pending, enqueues a job, and writes the snapshot back when the call throws, whether or not
the queue has taken the job.  A job reads the row, probes, and writes its outcome.  All of them
read and write the row as a whole, with no version and no status in the way.

* `ResultStands` -- the row is what the latest probe has written;
* `Kept.step` -- that is kept as long as no probe writes while a request is under way;
* `result_stands_iff` -- a probe's result stands in every later state of every run exactly
  when no request that has read the row as skipped is under way at the write.
-/
import Tozalist.Theory.Run
import Tozalist.Worker.SmtpProbe

namespace Tozalist.Api

set_option autoImplicit false

open Core (EngineResponse)
open Db
open Theory (Executable Run StepOf Txn Transition)
open Worker (ProbeOutcome probeUpdate probeUpdate_complete)

/-! ## The parties -/

/-- Where a request stands that may attach a probe to the row it has read. -/
inductive RequestPhase where
  /-- it asks for the settings of its organisation -/
  | settings
  | marking
  | enqueueing
  /-- the queue has taken the job, and the answer is under way -/
  | enqueued
  | restoring
  deriving DecidableEq, Repr

/-- A request under way, with the snapshot it has read or created. -/
structure CheckRequest where
  orgId : Uuid
  snapshot : StoredEmailCheck
  phase : RequestPhase
  deriving DecidableEq, Repr

/-- A probe job that has loaded the row: the engine's answer in the snapshot. -/
structure ProbeJob where
  engine : EngineResponse
  deriving DecidableEq, Repr

/-- The database, the jobs the queue has taken, the requests and jobs under way, and the latest
write of a job. -/
structure Checking where
  db : Database
  jobs : ℕ
  requests : List CheckRequest
  probes : List ProbeJob
  written : Option EmailCheckResultUpdate

inductive CheckingAction where
  /-- a request finds a check of its address; it may ask for a probe, and the deployment may
  allow it -/
  | hit (orgId : Uuid) (emailHash : String) (smtp smtpEnabled : Bool) (now : Date)
  | getSettings (r : CheckRequest)
  | mark (r : CheckRequest)
  /-- the queue takes the job -/
  | enqueue (r : CheckRequest)
  /-- `enqueue` returns -/
  | confirm (r : CheckRequest)
  /-- `enqueue` throws, with or without the job in the queue -/
  | fail (r : CheckRequest)
  | restore (r : CheckRequest)
  /-- a request dies -/
  | leave (r : CheckRequest)
  /-- a job is handed out, and loads the row -/
  | load (now : Date)
  | write (p : ProbeJob) (outcome : ProbeOutcome)
  /-- a job is delayed by the throttle, or ends without a write -/
  | drop (p : ProbeJob)
  /-- anything else in the database changes -/
  | others (db : Database)

/-- The snapshot with its probe marked as pending. -/
def pendingSnapshot (snapshot : StoredEmailCheck) : StoredEmailCheck :=
  { snapshot with smtpStatus := .pending }

/-- `getOrgSettings(...)?.smtpEnabled === true`. -/
def OrgProbes (db : Database) (orgId : Uuid) : Prop :=
  ∃ org ∈ db.organizations.find? (fun o => o.id = orgId ∧ o.Active), org.smtpEnabled = true

instance (db : Database) (orgId : Uuid) : Decidable (OrgProbes db orgId) :=
  inferInstanceAs (Decidable (∃ org ∈ db.organizations.find? _, org.smtpEnabled = true))

namespace Checking

variable (toLowerCase : JsString → JsString) (id : Uuid)

/-- The rows of the check. -/
def rows (s : Checking) : List EmailCheck := s.db.emailChecks.filter fun c => c.id = id

def Allows (s : Checking) : CheckingAction → Prop
  | .hit _ _ _ _ _ => True
  | .getSettings r => r ∈ s.requests ∧ r.phase = .settings
  | .mark r => r ∈ s.requests ∧ r.phase = .marking
  | .enqueue r => r ∈ s.requests ∧ r.phase = .enqueueing
  | .confirm r => r ∈ s.requests ∧ r.phase = .enqueued
  | .fail r => r ∈ s.requests ∧ (r.phase = .enqueueing ∨ r.phase = .enqueued)
  | .restore r => r ∈ s.requests ∧ r.phase = .restoring
  | .leave r => r ∈ s.requests
  | .load _ => 0 < s.jobs
  | .write p _ => p ∈ s.probes
  | .drop p => p ∈ s.probes
  | .others db => db.emailChecks.filter (fun c => c.id = id) = s.rows id

instance (s : Checking) : (a : CheckingAction) → Decidable (s.Allows id a)
  | .hit _ _ _ _ _ => inferInstanceAs (Decidable True)
  | .getSettings r => inferInstanceAs (Decidable (r ∈ s.requests ∧ r.phase = .settings))
  | .mark r => inferInstanceAs (Decidable (r ∈ s.requests ∧ r.phase = .marking))
  | .enqueue r => inferInstanceAs (Decidable (r ∈ s.requests ∧ r.phase = .enqueueing))
  | .confirm r => inferInstanceAs (Decidable (r ∈ s.requests ∧ r.phase = .enqueued))
  | .fail r =>
      inferInstanceAs (Decidable (r ∈ s.requests ∧ (r.phase = .enqueueing ∨ r.phase = .enqueued)))
  | .restore r => inferInstanceAs (Decidable (r ∈ s.requests ∧ r.phase = .restoring))
  | .leave r => inferInstanceAs (Decidable (r ∈ s.requests))
  | .load _ => inferInstanceAs (Decidable (0 < s.jobs))
  | .write p _ => inferInstanceAs (Decidable (p ∈ s.probes))
  | .drop p => inferInstanceAs (Decidable (p ∈ s.probes))
  | .others db =>
      inferInstanceAs (Decidable (db.emailChecks.filter (fun c => c.id = id) = s.rows id))

/-- A request goes on in another phase, or ends. -/
def goesOn (s : Checking) (r : CheckRequest) (next : Option RequestPhase) : Checking :=
  { s with
    requests := (next.map fun phase => { r with phase := phase }).toList ++ s.requests.erase r }

/-- One step. -/
def after (s : Checking) : CheckingAction → Checking
  | .hit orgId emailHash smtp smtpEnabled now =>
      match s.db.findRecentEmailCheck orgId emailHash now with
      | some row =>
          match row.checksJson with
          | some snapshot =>
              -- a row of another check concerns none of the parties here
              if row.id = id ∧ smtp = true ∧ smtpEnabled = true ∧
                  snapshot.smtpStatus = .skipped then
                { s with requests := ⟨orgId, snapshot, .settings⟩ :: s.requests }
              else s
          | none => s
      | none => s
  | .getSettings r => s.goesOn r (if OrgProbes s.db r.orgId then some .marking else none)
  | .mark r =>
      match Txn.transaction (updateEmailCheckSnapshot id (pendingSnapshot r.snapshot)) s.db with
      | (.ok _, db) => { s with db := db }.goesOn r (some .enqueueing)
      | (.error _, db) => { s with db := db }.goesOn r none
  | .enqueue r => { s with jobs := s.jobs + 1 }.goesOn r (some .enqueued)
  | .confirm r => s.goesOn r none
  | .fail r => s.goesOn r (some .restoring)
  | .restore r =>
      { s with db := (Txn.transaction (updateEmailCheckSnapshot id r.snapshot) s.db).2 }.goesOn r
        none
  | .leave r => s.goesOn r none
  | .load now =>
      match getEmailCheckForProcessing s.db id with
      | some ⟨check, none⟩ =>
          match check.checksJson with
          | some snapshot =>
              if check.expiresAt ≤ now.timestamp then s
              else { s with probes := ⟨snapshot.engine⟩ :: s.probes }
          | none => s
      | _ => s
  | .write p outcome =>
      match Txn.transaction (updateEmailCheckResult id (probeUpdate toLowerCase p.engine outcome))
          s.db with
      | (.ok _, db) =>
          { s with
            db := db
            probes := s.probes.erase p
            written := some (probeUpdate toLowerCase p.engine outcome) }
      | (.error _, db) => { s with db := db, probes := s.probes.erase p }
  | .drop p => { s with probes := s.probes.erase p }
  | .others db => { s with db := db }

/-- The row is what the probe has written, and complete. -/
structure StandsAs (c : EmailCheck) (update : EmailCheckResultUpdate) : Prop where
  verdict : c.verdict = update.verdict
  reasonCodes : c.reasonCodes = update.reasonCodes
  checksJson : c.checksJson = some update.checksJson
  complete : update.checksJson.smtpStatus = .complete

/-- Once a probe has written, the row is what the latest one has written. -/
def ResultStands (s : Checking) : Prop := ∀ update ∈ s.written, ∀ c ∈ s.rows id, StandsAs c update

/-- No probe writes while a request is under way. -/
def Unattended (s : Checking) : CheckingAction → Prop
  | .write _ _ => s.requests = []
  | _ => True

instance (s : Checking) (a : CheckingAction) : Decidable (s.Unattended a) :=
  match a with
  | .write _ _ => inferInstanceAs (Decidable (s.requests = []))
  | .hit _ _ _ _ _ | .getSettings _ | .mark _ | .enqueue _ | .confirm _ | .fail _ | .restore _
  | .leave _ | .load _ | .drop _ | .others _ => inferInstanceAs (Decidable True)

/-- The check has been created with the snapshot of its offline pass, and its request may go on
to attach a probe; nothing else has happened. -/
structure Initial (s : Checking) : Prop where
  present : s.rows id ≠ []
  fits : ∀ c ∈ s.rows id, ∀ snapshot ∈ c.checksJson, snapshot.Fits
  requests : ∀ r ∈ s.requests,
    r.phase = .marking ∧ r.snapshot.smtpStatus = .skipped ∧ r.snapshot.Fits
  probes : s.probes = []
  written : s.written = none

/-! ## The invariants -/

/-- The row is there, and the requests under way have read it before any probe was asked for. -/
structure Sound (s : Checking) : Prop where
  present : s.rows id ≠ []
  fits : ∀ c ∈ s.rows id, ∀ snapshot ∈ c.checksJson, snapshot.Fits
  requests : ∀ r ∈ s.requests, r.snapshot.smtpStatus = .skipped ∧ r.snapshot.Fits

/-- The latest result stands, and no request is left that could write over it. -/
structure Kept (s : Checking) : Prop extends Sound id s where
  alone : s.written ≠ none → s.requests = []
  stands : s.ResultStands id

variable {toLowerCase : JsString → JsString} {id : Uuid} {s : Checking}

theorem Initial.sound (initial : Initial id s) : Sound id s :=
  ⟨initial.present, initial.fits, fun r running => (initial.requests r running).2⟩

/-- Before a probe has written there is nothing to keep. -/
theorem Sound.kept (sound : Sound id s) (early : s.written = none) : Kept id s := by
  refine ⟨sound, fun late => absurd early late, ?_⟩
  intro update written
  rw [early] at written
  cases written

/-- Nothing is written to the row. -/
theorem Sound.of_rows {t : Checking} (sound : Sound id s) (rows : t.rows id = s.rows id)
    (requests : ∀ r ∈ t.requests, r.snapshot.smtpStatus = .skipped ∧ r.snapshot.Fits) :
    Sound id t := by
  refine ⟨?_, ?_, requests⟩
  · rw [rows]
    exact sound.present
  · rw [rows]
    exact sound.fits

/-- The requests after one of them has gone on. -/
theorem Sound.goesOn (sound : Sound id s) {r : CheckRequest} (running : r ∈ s.requests)
    (next : Option RequestPhase) : Sound id (s.goesOn r next) := by
  refine sound.of_rows rfl fun r' member => ?_
  rcases List.mem_append.1 member with here | other
  · obtain ⟨phase, -, rfl⟩ := Option.map_eq_some_iff.1 (Option.mem_toList.1 here)
    exact sound.requests r running
  · exact sound.requests r' (List.mem_of_mem_erase other)

/-- A request goes on where no probe has written. -/
theorem Kept.early (kept : Kept id s) {r : CheckRequest} (running : r ∈ s.requests) :
    s.written = none := by
  by_contra late
  rw [kept.alone late] at running
  cases running

/-! ## What a request writes -/

/-- Marking a snapshot changes none of its texts. -/
theorem fits_pendingSnapshot {snapshot : StoredEmailCheck} (fits : snapshot.Fits) :
    (pendingSnapshot snapshot).Fits :=
  fits

/-- A request has written a snapshot to the row. -/
theorem rows_setSnapshot (s : Checking) {snapshot : StoredEmailCheck} (fits : snapshot.Fits) :
    ({ s with db := s.db.updateEmailChecks id (·.setSnapshot snapshot fits) } : Checking).rows id =
      (s.rows id).map (·.setSnapshot snapshot fits) :=
  filter_updateEmailChecks s.db id fun _ => rfl

theorem Sound.setSnapshot (sound : Sound id s) {snapshot : StoredEmailCheck}
    (fits : snapshot.Fits) :
    Sound id { s with db := s.db.updateEmailChecks id (·.setSnapshot snapshot fits) } := by
  refine ⟨?_, ?_, sound.requests⟩
  · rw [rows_setSnapshot]
    exact fun none_ => sound.present (List.map_eq_nil_iff.1 none_)
  · rw [rows_setSnapshot]
    rintro c' member stored has
    obtain ⟨c, -, rfl⟩ := List.mem_map.1 member
    obtain rfl := Option.some.inj has
    exact fits

/-- After a probe has written, what a request writes shows. -/
theorem Sound.not_resultStands (sound : Sound id s) (late : s.written ≠ none)
    {snapshot : StoredEmailCheck} (fits : snapshot.Fits)
    (incomplete : snapshot.smtpStatus ≠ .complete) :
    ¬ ResultStands id { s with db := s.db.updateEmailChecks id (·.setSnapshot snapshot fits) } := by
  intro stands
  obtain ⟨update, written⟩ := Option.ne_none_iff_exists'.1 late
  obtain ⟨c, inside⟩ := List.exists_mem_of_ne_nil _ sound.present
  have same := stands update written (c.setSnapshot snapshot fits) (by
    rw [rows_setSnapshot]
    exact List.mem_map_of_mem inside)
  have replaced : snapshot = update.checksJson := Option.some.inj same.checksJson
  rw [replaced] at incomplete
  exact incomplete same.complete

/-- A request finds the row of the check. -/
theorem mem_rows_of_found {orgId : Uuid} {emailHash : String} {now : Date} {row : EmailCheck}
    (found : s.db.findRecentEmailCheck orgId emailHash now = some row) (named : row.id = id) :
    row ∈ s.rows id := by
  have recent := List.mem_of_mem_head? found
  have inside := (List.mem_filter.1 (List.mem_mergeSort.1 recent)).1
  exact List.mem_filter.2 ⟨inside, by simpa using named⟩

/-- **A hit** adds at most a request that has read the row as skipped. -/
theorem after_hit_cases (toLowerCase : JsString → JsString) (id : Uuid) (s : Checking)
    (orgId : Uuid) (emailHash : String) (smtp smtpEnabled : Bool) (now : Date) :
    s.after toLowerCase id (.hit orgId emailHash smtp smtpEnabled now) = s ∨
      ∃ row ∈ s.rows id, ∃ snapshot ∈ row.checksJson, snapshot.smtpStatus = .skipped ∧
        s.after toLowerCase id (.hit orgId emailHash smtp smtpEnabled now) =
          { s with requests := ⟨orgId, snapshot, .settings⟩ :: s.requests } := by
  simp only [after]
  split
  · rename_i row found
    split
    · rename_i snapshot stored
      split
      · rename_i asked
        exact .inr ⟨row, mem_rows_of_found found asked.1, snapshot, stored, asked.2.2.2, rfl⟩
      · exact .inl rfl
    · exact .inl rfl
  · exact .inl rfl

/-! ## Steps -/

theorem Sound.mark (sound : Sound id s) {r : CheckRequest} (running : r ∈ s.requests) :
    Sound id (s.after toLowerCase id (.mark r)) := by
  have fits := fits_pendingSnapshot (sound.requests r running).2
  simp only [after, updateEmailCheckSnapshot_transaction fits]
  exact (sound.setSnapshot fits).goesOn running _

theorem Sound.restore (sound : Sound id s) {r : CheckRequest} (running : r ∈ s.requests) :
    Sound id (s.after toLowerCase id (.restore r)) := by
  have fits := (sound.requests r running).2
  simp only [after, updateEmailCheckSnapshot_transaction fits]
  exact (sound.setSnapshot fits).goesOn running _

theorem Sound.hit (sound : Sound id s) (orgId : Uuid) (emailHash : String) (smtp smtpEnabled : Bool)
    (now : Date) :
    Sound id (s.after toLowerCase id (.hit orgId emailHash smtp smtpEnabled now)) := by
  obtain same | ⟨row, inside, snapshot, stored, skipped, eq⟩ :=
    after_hit_cases toLowerCase id s orgId emailHash smtp smtpEnabled now
  · rw [same]
    exact sound
  · rw [eq]
    have fits := sound.fits row inside snapshot stored
    exact sound.of_rows rfl (List.forall_mem_cons.2 ⟨⟨skipped, fits⟩, sound.requests⟩)

/-- **A load** adds at most a job. -/
theorem after_load_cases (toLowerCase : JsString → JsString) (id : Uuid) (s : Checking)
    (now : Date) :
    ∃ probes, s.after toLowerCase id (.load now) = { s with probes := probes } := by
  simp only [after]
  split
  · split
    · split
      · exact ⟨s.probes, rfl⟩
      · exact ⟨_, rfl⟩
    · exact ⟨s.probes, rfl⟩
  · exact ⟨s.probes, rfl⟩

/-- **A probe's write** makes the row what it says, whole. -/
theorem after_write (s : Checking) (p : ProbeJob) {outcome : ProbeOutcome}
    (fits : (probeUpdate toLowerCase p.engine outcome).checksJson.Fits) :
    s.after toLowerCase id (.write p outcome) =
      { s with
        db := s.db.updateEmailChecks id
          (·.setResult (probeUpdate toLowerCase p.engine outcome) fits)
        probes := s.probes.erase p
        written := some (probeUpdate toLowerCase p.engine outcome) } := by
  simp only [after, updateEmailCheckResult_transaction fits]

/-- A write that PostgreSQL refuses changes nothing but the jobs under way. -/
theorem after_write_of_not (s : Checking) (p : ProbeJob) {outcome : ProbeOutcome}
    (unfit : ¬ (probeUpdate toLowerCase p.engine outcome).checksJson.Fits) :
    s.after toLowerCase id (.write p outcome) = { s with probes := s.probes.erase p } := by
  simp only [after, updateEmailCheckResult_transaction_of_not unfit]

/-- The rows of the check once a probe has written. -/
theorem rows_setResult (s : Checking) (p : ProbeJob) (update : EmailCheckResultUpdate)
    (fits : update.checksJson.Fits) :
    ({ s with
        db := s.db.updateEmailChecks id (·.setResult update fits)
        probes := s.probes.erase p
        written := some update } : Checking).rows id =
      (s.rows id).map (·.setResult update fits) :=
  filter_updateEmailChecks s.db id fun _ => rfl

theorem Sound.write (sound : Sound id s) (p : ProbeJob) (outcome : ProbeOutcome) :
    Sound id (s.after toLowerCase id (.write p outcome)) := by
  by_cases fits : (probeUpdate toLowerCase p.engine outcome).checksJson.Fits
  · rw [after_write s p fits]
    refine ⟨?_, ?_, sound.requests⟩
    · rw [rows_setResult]
      exact fun none_ => sound.present (List.map_eq_nil_iff.1 none_)
    · rw [rows_setResult]
      rintro c' member stored has
      obtain ⟨c, -, rfl⟩ := List.mem_map.1 member
      obtain rfl := Option.some.inj has
      exact fits
  · rw [after_write_of_not s p fits]
    exact sound.of_rows rfl sound.requests

/-- **Every step** keeps the row there and the requests to snapshots without a probe. -/
theorem Sound.step {a : CheckingAction} (sound : Sound id s) (allowed : s.Allows id a) :
    Sound id (s.after toLowerCase id a) := by
  cases a with
  | hit orgId emailHash smtp smtpEnabled now => exact sound.hit _ _ _ _ _
  | getSettings r => exact sound.goesOn allowed.1 _
  | mark r => exact sound.mark allowed.1
  | enqueue r =>
      have taken : Sound id { s with jobs := s.jobs + 1 } := sound.of_rows rfl sound.requests
      exact taken.goesOn allowed.1 _
  | confirm r => exact sound.goesOn allowed.1 _
  | fail r => exact sound.goesOn allowed.1 _
  | restore r => exact sound.restore allowed.1
  | leave r => exact sound.goesOn allowed _
  | load now =>
      obtain ⟨probes, eq⟩ := after_load_cases toLowerCase id s now
      rw [eq]
      exact sound.of_rows rfl sound.requests
  | write p outcome => exact sound.write p outcome
  | drop p => exact sound.of_rows rfl sound.requests
  | others db => exact sound.of_rows allowed sound.requests

/-- Nothing is written, and no request is new. -/
theorem Kept.of_rows {t : Checking} (kept : Kept id s) (rows : t.rows id = s.rows id)
    (written : t.written = s.written) (requests : t.requests = s.requests) : Kept id t := by
  refine ⟨kept.toSound.of_rows rows (requests ▸ kept.requests), ?_, ?_⟩
  · rw [written, requests]
    exact kept.alone
  · rw [ResultStands, written, rows]
    exact kept.stands

/-- A request finds nothing to do once a probe has written. -/
theorem Kept.hit (kept : Kept id s) (orgId : Uuid) (emailHash : String) (smtp smtpEnabled : Bool)
    (now : Date) :
    Kept id (s.after toLowerCase id (.hit orgId emailHash smtp smtpEnabled now)) := by
  have sound : Sound id (s.after toLowerCase id (.hit orgId emailHash smtp smtpEnabled now)) :=
    kept.toSound.hit orgId emailHash smtp smtpEnabled now
  obtain same | ⟨row, inside, snapshot, stored, skipped, eq⟩ :=
    after_hit_cases toLowerCase id s orgId emailHash smtp smtpEnabled now
  · rw [same]
    exact kept
  · rw [eq] at sound ⊢
    apply sound.kept
    cases written : s.written with
    | none => rfl
    | some update =>
        have stands := kept.stands update written row inside
        obtain rfl : snapshot = update.checksJson :=
          Option.some.inj (stored.symm.trans stands.checksJson)
        exact absurd (skipped.symm.trans stands.complete) (by decide)

/-- A probe's write stands where no request is under way. -/
theorem Sound.kept_write (sound : Sound id s) (alone : s.requests = []) (p : ProbeJob)
    {outcome : ProbeOutcome} (fits : (probeUpdate toLowerCase p.engine outcome).checksJson.Fits) :
    Kept id (s.after toLowerCase id (.write p outcome)) := by
  have after : Sound id (s.after toLowerCase id (.write p outcome)) := sound.write p outcome
  rw [after_write s p fits] at after ⊢
  refine ⟨after, fun _ => alone, ?_⟩
  intro update same c' member
  obtain rfl := Option.some.inj same
  rw [rows_setResult] at member
  obtain ⟨c, -, rfl⟩ := List.mem_map.1 member
  exact ⟨rfl, rfl, rfl, probeUpdate_complete _ _ _⟩

/-- **Every step** keeps a result, as long as no probe writes while a request is under way. -/
theorem Kept.step {a : CheckingAction} (kept : Kept id s) (allowed : s.Allows id a)
    (unattended : s.Unattended a) : Kept id (s.after toLowerCase id a) := by
  have sound : Sound id (s.after toLowerCase id a) := kept.toSound.step allowed
  cases a with
  | hit orgId emailHash smtp smtpEnabled now => exact kept.hit _ _ _ _ _
  | getSettings r => exact sound.kept (kept.early allowed.1)
  | mark r =>
      have fits := fits_pendingSnapshot (kept.requests r allowed.1).2
      apply sound.kept
      simp only [after, updateEmailCheckSnapshot_transaction fits]
      exact kept.early allowed.1
  | enqueue r => exact sound.kept (kept.early allowed.1)
  | confirm r => exact sound.kept (kept.early allowed.1)
  | fail r => exact sound.kept (kept.early allowed.1)
  | restore r => exact sound.kept (kept.early allowed.1)
  | leave r => exact sound.kept (kept.early allowed)
  | load now =>
      obtain ⟨probes, eq⟩ := after_load_cases toLowerCase id s now
      rw [eq]
      exact kept.of_rows rfl rfl rfl
  | write p outcome =>
      by_cases fits : (probeUpdate toLowerCase p.engine outcome).checksJson.Fits
      · exact kept.toSound.kept_write unattended p fits
      · rw [after_write_of_not s p fits]
        exact kept.of_rows rfl rfl rfl
  | drop p => exact kept.of_rows rfl rfl rfl
  | others db => exact kept.of_rows allowed rfl rfl

/-- Once a probe has written, one has. -/
theorem written_after {a : CheckingAction} (late : s.written ≠ none) (allowed : s.Allows id a) :
    (s.after toLowerCase id a).written ≠ none := by
  cases a with
  | hit orgId emailHash smtp smtpEnabled now =>
      obtain same | ⟨row, inside, snapshot, stored, skipped, eq⟩ :=
        after_hit_cases toLowerCase id s orgId emailHash smtp smtpEnabled now
      · rw [same]
        exact late
      · rw [eq]
        exact late
  | mark r =>
      simp only [after]
      split <;> exact late
  | load now =>
      obtain ⟨probes, eq⟩ := after_load_cases toLowerCase id s now
      rw [eq]
      exact late
  | write p outcome =>
      by_cases fits : (probeUpdate toLowerCase p.engine outcome).checksJson.Fits
      · rw [after_write s p fits]
        exact Option.some_ne_none _
      · rw [after_write_of_not s p fits]
        exact late
  | _ => exact late

/-! ## Runs -/

/-- Some continuation of the run loses the result. -/
def Lost (toLowerCase : JsString → JsString) (id : Uuid) (s : Checking) : Prop :=
  ∃ tr t, Run (StepOf (Allows id) (after toLowerCase id)) s tr t ∧ ¬ t.ResultStands id

theorem Lost.of_after {a : CheckingAction} (allowed : s.Allows id a)
    (lost : Lost toLowerCase id (s.after toLowerCase id a)) : Lost toLowerCase id s := by
  obtain ⟨tr, t, run, broken⟩ := lost
  exact ⟨_, t, (Run.single ⟨allowed, rfl⟩).trans run, broken⟩

/-- A request that goes on is under way in its next phase. -/
theorem mem_goesOn (s : Checking) (r : CheckRequest) (phase : RequestPhase) :
    { r with phase := phase } ∈ (s.goesOn r (some phase)).requests :=
  List.mem_cons_self

/-- The row is marked again. -/
theorem Sound.lost_of_marking (sound : Sound id s) (late : s.written ≠ none) {r : CheckRequest}
    (running : r ∈ s.requests) (here : r.phase = .marking) : Lost toLowerCase id s := by
  have allowed : s.Allows id (.mark r) := ⟨running, here⟩
  refine ⟨_, _, .single ⟨allowed, rfl⟩, ?_⟩
  have fits := fits_pendingSnapshot (sound.requests r running).2
  simp only [after, updateEmailCheckSnapshot_transaction fits]
  apply sound.not_resultStands late fits
  simp [pendingSnapshot]

/-- The old snapshot is written back. -/
theorem Sound.lost_of_restoring (sound : Sound id s) (late : s.written ≠ none) {r : CheckRequest}
    (running : r ∈ s.requests) (here : r.phase = .restoring) : Lost toLowerCase id s := by
  have allowed : s.Allows id (.restore r) := ⟨running, here⟩
  refine ⟨_, _, .single ⟨allowed, rfl⟩, ?_⟩
  obtain ⟨skipped, fits⟩ := sound.requests r running
  simp only [after, updateEmailCheckSnapshot_transaction fits]
  apply sound.not_resultStands late fits
  rw [skipped]
  decide

/-- The call of the queue throws first. -/
theorem Sound.lost_of_enqueueing (sound : Sound id s) (late : s.written ≠ none) {r : CheckRequest}
    (running : r ∈ s.requests) (here : r.phase = .enqueueing ∨ r.phase = .enqueued) :
    Lost toLowerCase id s :=
  .of_after (a := .fail r) ⟨running, here⟩
    ((sound.goesOn running _).lost_of_restoring late (mem_goesOn s r .restoring) rfl)

/-- An organisation that probes. -/
def probingOrganization (orgId : Uuid) : Organization := ⟨orgId, none, 30, true⟩

/-- The organisation may have probes by the time its settings are read. -/
theorem Sound.lost_of_settings (sound : Sound id s) (late : s.written ≠ none) {r : CheckRequest}
    (running : r ∈ s.requests) (here : r.phase = .settings) : Lost toLowerCase id s := by
  let db : Database := { s.db with organizations := [probingOrganization r.orgId] }
  have changed : s.Allows id (.others db) := rfl
  apply Lost.of_after changed
  have enabled : Sound id (s.after toLowerCase id (.others db)) := sound.step changed
  have asking : (s.after toLowerCase id (.others db)).Allows id (.getSettings r) := ⟨running, here⟩
  apply Lost.of_after asking
  have probes : OrgProbes db r.orgId :=
    ⟨probingOrganization r.orgId, by simp [db, probingOrganization, Organization.Active], rfl⟩
  have goes : (s.after toLowerCase id (.others db)).after toLowerCase id (.getSettings r) =
      (s.after toLowerCase id (.others db)).goesOn r (some .marking) :=
    congrArg (Checking.goesOn _ r) (if_pos probes)
  rw [goes]
  exact (enabled.goesOn running _).lost_of_marking late (mem_goesOn _ r .marking) rfl

/-- **Any request under way** may write over a result. -/
theorem Sound.lost (sound : Sound id s) (late : s.written ≠ none) {r : CheckRequest}
    (running : r ∈ s.requests) : Lost toLowerCase id s := by
  cases here : r.phase with
  | settings => exact sound.lost_of_settings late running here
  | marking => exact sound.lost_of_marking late running here
  | enqueueing => exact sound.lost_of_enqueueing late running (.inl here)
  | enqueued => exact sound.lost_of_enqueueing late running (.inr here)
  | restoring => exact sound.lost_of_restoring late running here

/-- **A result with no request under way** stands in every later state. -/
theorem Kept.stands_later {t : Checking} {tr : List (Transition Checking CheckingAction)}
    (kept : Kept id s) (late : s.written ≠ none)
    (run : Run (StepOf (Allows id) (after toLowerCase id)) s tr t) : t.ResultStands id := by
  have through : Kept id t ∧ t.written ≠ none :=
    run.invariant (I := fun s => Kept id s ∧ s.written ≠ none) ?_ ⟨kept, late⟩
  · exact through.1.stands
  · rintro s a _ ⟨kept, late⟩ ⟨allowed, rfl⟩
    have alone := kept.alone late
    have unattended : s.Unattended a := by
      cases a with
      | write p outcome => exact alone
      | _ => trivial
    exact ⟨kept.step allowed unattended, written_after late allowed⟩

/-- **What a probe writes lasts** exactly when no request is under way. -/
theorem Sound.lasts_iff (sound : Sound id s) (p : ProbeJob) {outcome : ProbeOutcome}
    (fits : (probeUpdate toLowerCase p.engine outcome).checksJson.Fits) :
    (∀ tr t, Run (StepOf (Allows id) (after toLowerCase id))
        (s.after toLowerCase id (.write p outcome)) tr t → t.ResultStands id) ↔
      s.requests = [] := by
  have late : (s.after toLowerCase id (.write p outcome)).written ≠ none := by
    rw [after_write s p fits]
    exact Option.some_ne_none _
  constructor
  · intro lasts
    by_contra busy
    obtain ⟨r, running⟩ := List.exists_mem_of_ne_nil _ busy
    have still : r ∈ (s.after toLowerCase id (.write p outcome)).requests := by
      rw [after_write s p fits]
      exact running
    obtain ⟨tr, t, run, broken⟩ := (sound.write p outcome).lost late still
    exact broken (lasts tr t run)
  · intro alone tr t run
    exact (sound.kept_write alone p fits).stands_later late run

/-- **A finished probe's result** stands, for every interleaving of any number of requests and
probe jobs on a check, in every state of a run in which no probe writes while a request is under
way that has read the row as skipped.  That is exact: where one is, some continuation of the run
loses the result. -/
theorem result_stands_iff (initial : Initial id s) :
    (∀ tr t, Run (StepOf (Allows id) (after toLowerCase id)) s tr t →
      (∀ e ∈ tr, Unattended e.source e.action) → ∀ e ∈ tr, e.target.ResultStands id) ∧
    ∀ tr t, Run (StepOf (Allows id) (after toLowerCase id)) s tr t → ∀ p ∈ t.probes, ∀ outcome,
      (probeUpdate toLowerCase p.engine outcome).checksJson.Fits →
      ((∀ tr' u, Run (StepOf (Allows id) (after toLowerCase id))
          (t.after toLowerCase id (.write p outcome)) tr' u → u.ResultStands id) ↔
        t.requests = []) := by
  constructor
  · intro tr t run unattended e inside
    have kept : ∀ s a t, Kept id s → Unattended s a →
        StepOf (Allows id) (after toLowerCase id) s a t → Kept id t := by
      rintro s a _ kept unattended ⟨allowed, rfl⟩
      exact kept.step allowed unattended
    have start := initial.sound.kept initial.written
    exact ((run.invariant_of_guarded kept unattended start).2 e inside).2.stands
  · intro tr t run p _ outcome fits
    have kept : ∀ s a t, Sound id s → StepOf (Allows id) (after toLowerCase id) s a t →
        Sound id t := by
      rintro s a _ sound ⟨allowed, rfl⟩
      exact sound.step allowed
    exact (run.invariant kept initial.sound).lasts_iff p fits

/-! ## A job that the queue has taken -/

/-- The engine's offline answer, and with an accepted mailbox. -/
def offlineResponse : EngineResponse :=
  { email := "ann@gmail.com"
    syntax_ := ⟨true, "ann", "gmail.com"⟩
    mx := ⟨some true, ["gmail-smtp-in.l.google.com."], ""⟩
    disposable := false
    roleAccount := false
    freeProvider := true
    smtp := none
    durationMs := 3 }

def probedResponse : EngineResponse :=
  { offlineResponse with smtp := some ⟨true, true, false, false, false, ""⟩ }

def offlineSnapshot : StoredEmailCheck :=
  { engine := offlineResponse
    score := 50
    disclaimer := Core.aggregateDisclaimer
    typo := none
    smtpStatus := .skipped
    operationalReason := none }

theorem offlineSnapshot_storable :
    ∀ snapshot ∈ some offlineSnapshot, ∀ typo ∈ snapshot.typo, Storable typo := by
  intro snapshot same typo has
  obtain rfl := Option.some.inj same
  cases has

def checkId : Uuid := .numbered 3

def createdCheck : EmailCheck where
  id := checkId
  orgId := .numbered 1
  emailNormalized := Js.ofString "ann@gmail.com"
  emailHash := "89fc83f682b5eeb73a8fccb73d43deeee9f58041fc232c15a43cc349132e1273"
  verdict := .unknown
  reasonCodes := [.smtpNotChecked]
  checksJson := some offlineSnapshot
  cached := false
  creditsUsed := 1
  createdAt := 0
  expiresAt := 2592000000000
  storable := offlineSnapshot_storable

def createdDatabase : Database where
  organizations := [⟨.numbered 1, none, 30, true⟩]
  creditLedger := []
  emailChecks := [createdCheck]
  phoneChecks := []
  batches := []
  auditEvents := []

/-- The request that has created the check. -/
def creating (phase : RequestPhase) : CheckRequest := ⟨.numbered 1, offlineSnapshot, phase⟩

/-- The check has just been created. -/
def created : Checking := ⟨createdDatabase, 0, [creating .marking], [], none⟩

theorem created_initial : Initial checkId created where
  present := by decide +kernel
  fits := by decide +kernel
  requests := by decide +kernel
  probes := rfl
  written := rfl

/-- The texts of the check are in lower case. -/
def lowered (text : JsString) : JsString := text

/-- The queue takes the job, and the call throws all the same. -/
def takenAndThrown : List CheckingAction :=
  [.mark (creating .marking), .enqueue (creating .enqueueing), .fail (creating .enqueued), .load 1]

def loaded : Checking := takenAndThrown.foldl (after lowered checkId) created

/-- The worker finishes the check. -/
def finished : Checking :=
  loaded.after lowered checkId (.write ⟨offlineResponse⟩ (.probed probedResponse))

/-- The request writes its snapshot back. -/
def rolledBack : Checking := finished.after lowered checkId (.restore (creating .restoring))

theorem created_loaded :
    ∃ tr, Run (StepOf (Allows checkId) (after lowered checkId)) created tr loaded := by
  have executable : Executable (Allows checkId) (after lowered checkId) created takenAndThrown := by
    decide +kernel
  exact executable.run

/-- The check is skipped again, under the verdict of the probe. -/
theorem restored_over_result :
    ∃ tr, Run (StepOf (Allows checkId) (after lowered checkId)) created tr finished ∧
      (finished.rows checkId).map (fun c => (c.verdict, c.checksJson.map (·.smtpStatus))) =
        [(.valid, some .complete)] ∧
      ∃ tr', Run (StepOf (Allows checkId) (after lowered checkId)) finished tr' rolledBack ∧
        (rolledBack.rows checkId).map (fun c => (c.verdict, c.checksJson)) =
          [(.valid, some offlineSnapshot)] ∧
        ¬ rolledBack.ResultStands checkId := by
  obtain ⟨tr, run⟩ := created_loaded
  have writes : loaded.Allows checkId (.write ⟨offlineResponse⟩ (.probed probedResponse)) := by
    decide +kernel
  have restores : finished.Allows checkId (.restore (creating .restoring)) := by decide +kernel
  have row : (rolledBack.rows checkId).map (fun c => (c.verdict, c.checksJson)) =
      [(.valid, some offlineSnapshot)] := by decide +kernel
  have written : rolledBack.written =
      some (probeUpdate lowered offlineResponse (.probed probedResponse)) := by decide +kernel
  have last : StepOf (Allows checkId) (after lowered checkId) loaded
      (.write ⟨offlineResponse⟩ (.probed probedResponse)) finished := ⟨writes, rfl⟩
  refine ⟨_, run.next last, by decide +kernel, _, .single ⟨restores, rfl⟩, row, ?_⟩
  intro stands
  have member : (Core.Verdict.valid, some offlineSnapshot) ∈
      (rolledBack.rows checkId).map (fun c => (c.verdict, c.checksJson)) := by
    rw [row]
    exact List.mem_singleton_self _
  obtain ⟨c, inside, same⟩ := List.mem_map.1 member
  have kept := stands _ written c inside
  have stored : offlineSnapshot =
      (probeUpdate lowered offlineResponse (.probed probedResponse)).checksJson :=
    Option.some.inj ((Prod.mk.inj same).2.symm.trans kept.checksJson)
  have complete := kept.complete
  rw [← stored] at complete
  exact absurd complete (by decide)

/-- The request has its answer before the worker finishes. -/
def answeredFirst : List CheckingAction :=
  [.mark (creating .marking), .enqueue (creating .enqueueing), .confirm (creating .enqueued),
    .load 1, .write ⟨offlineResponse⟩ (.probed probedResponse)]

/-- The worker's result stands where the request has ended, and may be lost where it has not. -/
theorem result_stands_iff_created :
    (∃ tr, Run (StepOf (Allows checkId) (after lowered checkId)) created tr
        (answeredFirst.foldl (after lowered checkId) created) ∧
      ∀ e ∈ tr, e.target.ResultStands checkId) ∧
    ∃ tr, Run (StepOf (Allows checkId) (after lowered checkId)) created tr loaded ∧
      ¬ ∀ tr' u, Run (StepOf (Allows checkId) (after lowered checkId)) finished tr' u →
        u.ResultStands checkId := by
  constructor
  · have executable : Executable (fun s a => Allows checkId s a ∧ Unattended s a)
        (after lowered checkId) created answeredFirst := by decide +kernel
    obtain ⟨tr, run, unattended⟩ := executable.run_guarded
    exact ⟨tr, run, (result_stands_iff created_initial).1 tr _ run unattended⟩
  · obtain ⟨tr, run⟩ := created_loaded
    have here : ⟨offlineResponse⟩ ∈ loaded.probes := by decide +kernel
    have fits : (probeUpdate lowered offlineResponse (.probed probedResponse)).checksJson.Fits := by
      decide +kernel
    have busy : loaded.requests ≠ [] := by decide +kernel
    refine ⟨tr, run, fun lasts => busy ?_⟩
    exact ((result_stands_iff created_initial).2 tr loaded run _ here _ fits).1 lasts

end Checking

end Tozalist.Api
