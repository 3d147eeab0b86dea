/-
# Tozalist.Worker.LifecycleSweep -- the hourly retention sweep

`runLifecycleSweep` of `apps/worker/src/lifecycle/processor.ts`.  The sweep deletes objects and
rows in turn and is no transaction, so a storage call that throws leaves what was done by then.

* `World.final` -- what a sweep makes of batches, organisations and objects;
* `Progress` -- what it may have done by any moment;
* `StopsOn` -- what a sweep can stop on: a request that failed, or the ledger's trigger;
* `runLifecycleSweep_ends` -- every end of a sweep: answered, with the tables `swept`, or
  stopped in a state of `Progress`;
* `sweep_interruption` -- what an interrupted sweep leaves to the next one.
-/
import Tozalist.Db.Retention

namespace Tozalist.Worker.Lifecycle

set_option autoImplicit false

open Db (Uuid Date Timestamp Draw Batch BatchPurgeTarget OrganizationRow RetentionDatabase
  AuditEvent AuditEventInput)
open Shared (Bucket Replies StorageCall StorageError deleteObjects listKeys orgObjectPrefix
  exportKeyCreatedAtMs StartsWith Thinned Failing)
open Theory (Interruptible)
open Theory.Interruptible (Ends)

/-! ## The sweep -/

/-- The database and the bucket. -/
structure World where
  db : RetentionDatabase
  bucket : Bucket

/-- Why a sweep throws; `unfinished` is a loop that was given too few rounds. -/
inductive SweepError where
  | storage (error : StorageError)
  | database
  | unfinished
  deriving DecidableEq, Repr

abbrev Sweep (α : Type) : Type := Interruptible World SweepError α

/-- `LifecycleDeps`, and what the world decides in one sweep: the pages the database answers with,
the replies of the bucket, the database's clock, and what it generates. -/
structure Environment where
  batchPageSize : ℕ
  positive : 0 < batchPageSize
  page : RetentionDatabase → Date → List BatchPurgeTarget
  isPage : ∀ (db : RetentionDatabase) (now : Date), db.core.IsExpiredPage now batchPageSize (page db now)
  replies : Replies
  dbNow : Timestamp
  draw : Option Uuid → Draw

/-- `LifecycleRunCounts`. -/
structure LifecycleRunCounts where
  emailChecks : ℕ
  phoneChecks : ℕ
  batches : ℕ
  batchObjects : ℕ
  orgsPurged : ℕ
  orgObjects : ℕ
  leads : ℕ
  exportObjects : ℕ
  ledgerEntries : ℕ
  orgsRemoved : ℕ
  deriving DecidableEq, Repr

/-- `EXPORT_OBJECT_TTL_MS`. -/
def exportObjectTtlMs : Int := 86400000

/-- An export past its link. -/
def StaleExport (now : Date) (key : String) : Prop :=
  ∃ createdAt ∈ exportKeyCreatedAtMs key, exportObjectTtlMs < now - (createdAt : Int)

instance (now : Date) (key : String) : Decidable (StaleExport now key) :=
  inferInstanceAs (Decidable (∃ createdAt ∈ exportKeyCreatedAtMs key, _))

/-- A call to the bucket. -/
def onBucket {α : Type} (call : StorageCall α) : Sweep α :=
  Interruptible.zoom World.bucket (fun bucket w => { w with bucket }) .storage call

/-- One statement or transaction on the database. -/
def onDb (f : RetentionDatabase → RetentionDatabase) : Sweep PUnit :=
  modify fun w => { w with db := f w.db }

/-- The objects of a row of a page. -/
def targetKeys (target : BatchPurgeTarget) : List String :=
  match target.resultObjectKey with
  | none => [target.inputObjectKey]
  | some key => [target.inputObjectKey, key]

/-- The loop through the pages of expired batches, for at most so many rounds: rows deleted, and
objects. -/
def drain (env : Environment) (now : Date) : ℕ → ℕ × ℕ → Sweep (ℕ × ℕ)
  | 0, _ => throw .unfinished
  | rounds + 1, (rows, objects) => do
      let w ← get
      let expired := env.page w.db now
      if expired = [] then pure (rows, objects)
      else do
        let keys := expired.flatMap targetKeys
        onBucket (deleteObjects env.replies keys)
        let ids := expired.map (·.id)
        onDb fun db => (db.deleteBatchesByIds ids).2
        drain env now rounds (rows + (w.db.deleteBatchesByIds ids).1, objects + keys.length)

/-- `if (keys.length > 0) await deps.storage.deleteObjects(keys)` -/
def deleteListed (env : Environment) (keys : List String) : Sweep PUnit :=
  if keys = [] then pure ⟨⟩ else onBucket (deleteObjects env.replies keys)

/-- The body of the loop through the organisations due for purge. -/
def purgeOrganization (env : Environment) (now : Date) (counts : ℕ × ℕ) (orgId : Uuid) :
    Sweep (ℕ × ℕ) := do
  let keys ← onBucket (listKeys env.replies (orgObjectPrefix orgId))
  deleteListed env keys
  let remaining ← onBucket (listKeys env.replies (orgObjectPrefix orgId))
  if remaining = [] then do
    onDb fun db => db.hardDeleteOrganizationData orgId (env.draw (some orgId)) now
    pure (counts.1 + 1, counts.2 + keys.length)
  else throw (.storage .deletionIncomplete)

/-- The action of the sweep's own audit event. -/
def sweepAction : String := "lifecycle.sweep"

/-- The audit event of a sweep. -/
def sweepEvent (counts : LifecycleRunCounts) : AuditEventInput :=
  { action := sweepAction
    targetType := "system"
    targetId := "retention-sweep"
    metadata :=
      [("email_checks", .number counts.emailChecks), ("phone_checks", .number counts.phoneChecks),
        ("batches", .number counts.batches), ("batch_objects", .number counts.batchObjects),
        ("orgs_purged", .number counts.orgsPurged), ("org_objects", .number counts.orgObjects),
        ("leads", .number counts.leads), ("export_objects", .number counts.exportObjects),
        ("ledger_entries", .number counts.ledgerEntries),
        ("orgs_removed", .number counts.orgsRemoved)] }

/-- Steps 1 to 5: everything that touches the bucket. -/
def sweepObjects (env : Environment) (now : Date) : Sweep LifecycleRunCounts := do
  let w ← get
  let checks := (w.db.purgeExpiredChecks now).1
  onDb fun db => (db.purgeExpiredChecks now).2
  let (rows, objects) ← drain env now ((w.db.core.expiredBatches now).length + 1) (0, 0)
  let w ← get
  let (orgsPurged, orgObjects) ← (w.db.dueForPurge now).foldlM (purgeOrganization env now) (0, 0)
  let w ← get
  let leads := (w.db.purgeExpiredLeads now).1
  onDb fun db => (db.purgeExpiredLeads now).2
  let allKeys ← onBucket (listKeys env.replies "org/")
  let stale := allKeys.filter fun key => StaleExport now key
  deleteListed env stale
  pure
    { emailChecks := checks.emailChecks
      phoneChecks := checks.phoneChecks
      batches := rows
      batchObjects := objects
      orgsPurged
      orgObjects
      leads
      exportObjects := stale.length
      ledgerEntries := 0
      orgsRemoved := 0 }

/-- Step 6 and the audit event. -/
def sweepAccounts (env : Environment) (now : Date) (counts : LifecycleRunCounts) :
    Sweep LifecycleRunCounts := do
  let w ← get
  match w.db.purgeExpiredLedgerEntries env.dbNow now with
  | none => throw .database
  | some (ledgerEntries, after) => do
      onDb fun _ => after
      onDb fun db => db.deleteRetiredOrganizations.2
      let counts := { counts with ledgerEntries, orgsRemoved := after.deleteRetiredOrganizations.1 }
      onDb fun db => db.record ((sweepEvent counts).row (env.draw none) now)
      pure counts

/-- `runLifecycleSweep`. -/
def runLifecycleSweep (env : Environment) (now : Date) : Sweep LifecycleRunCounts := do
  let counts ← sweepObjects env now
  sweepAccounts env now counts

/-! ## What a sweep comes to -/

/-- The objects a sweep is to delete: those of expired batches, of organisations due for purge,
and stale exports. -/
def Doomed (db : RetentionDatabase) (now : Date) (key : String) : Prop :=
  (∃ b ∈ db.batches, b.expiresAt ≤ now.timestamp ∧ key ∈ b.objectKeys) ∨
    (∃ id ∈ db.dueForPurge now, StartsWith (orgObjectPrefix id) key) ∨
      (StartsWith "org/" key ∧ StaleExport now key)

instance (db : RetentionDatabase) (now : Date) (key : String) : Decidable (Doomed db now key) :=
  inferInstanceAs (Decidable (_ ∨ _))

/-- Batches, organisations and stored objects. -/
structure Outcome where
  batches : List Batch
  organizations : List OrganizationRow
  objects : List String

/-- What they are now. -/
def World.current (w : World) : Outcome := ⟨w.db.batches, w.db.organizations, w.bucket.objects⟩

/-- What a sweep makes of them. -/
def World.final (w : World) (now : Date) : Outcome where
  batches := w.db.batches.filter fun b =>
    ¬ b.expiresAt ≤ now.timestamp ∧ b.orgId ∉ w.db.dueForPurge now ∧ ¬ w.db.Removed now b.orgId
  organizations :=
    (w.db.organizations.map fun o => if o.Due now then o.purge now else o).filter fun o =>
      ¬ w.db.Removed now o.id
  objects := w.bucket.objects.filter fun key => ¬ Doomed w.db now key

/-- The audit events of sweeps. -/
def sweepEvents (db : RetentionDatabase) : List Uuid :=
  (db.auditEvents.filter fun e => e.action = sweepAction).map (·.id)

/-- What a sweep may have done by any moment before its last storage call: what is to come of it is
as before, no row is gone without its objects, no organisation is marked as purged with objects
left, no sweep is on record, and the ledger is untouched. -/
structure Progress (now : Date) (w w' : World) : Prop where
  final : w'.final now = w.final now
  objects : w'.bucket.objects ⊆ w.bucket.objects
  batches : ∀ b ∈ w.db.batches, b ∉ w'.db.batches → ∀ key ∈ b.objectKeys, key ∉ w'.bucket.objects
  purged : ∀ o ∈ w'.db.organizations, o.purgedAt ≠ none →
    o ∈ w.db.organizations ∨ ∀ key ∈ w'.bucket.objects, ¬ StartsWith (orgObjectPrefix o.id) key
  events : sweepEvents w'.db = sweepEvents w.db
  ledger : w'.db.creditLedger = w.db.creditLedger

namespace Progress

variable {now : Date} {w w' w'' : World}

theorem refl (now : Date) (w : World) : Progress now w w where
  final := rfl
  objects := fun _ => id
  batches := fun _ member gone => absurd member gone
  purged := fun _ member _ => .inl member
  events := rfl
  ledger := rfl

theorem trans (first : Progress now w w') (second : Progress now w' w'') : Progress now w w'' where
  final := second.final.trans first.final
  objects := fun _ member => first.objects (second.objects member)
  batches := by
    intro b member gone key listed
    by_cases there : b ∈ w'.db.batches
    · exact second.batches b there gone key listed
    · exact fun left => first.batches b member there key listed (second.objects left)
  purged := by
    intro o member marked
    rcases second.purged o member marked with before | empty
    · rcases first.purged o before marked with long | empty
      · exact .inl long
      · exact .inr fun key left => empty key (second.objects left)
    · exact .inr empty
  events := second.events.trans first.events
  ledger := second.ledger.trans first.ledger

/-- Tables that a sweep's end does not depend on may change, and doomed objects may go. -/
theorem thinned (batches : w'.db.batches = w.db.batches)
    (organizations : w'.db.organizations = w.db.organizations)
    (ledger : w'.db.creditLedger = w.db.creditLedger)
    (events : w'.db.auditEvents = w.db.auditEvents) {keys : List String}
    (doomed : ∀ key ∈ keys, Doomed w.db now key)
    (thinned : Thinned keys w.bucket.objects w'.bucket.objects) : Progress now w w' where
  final := by
    have due : w'.db.dueForPurge now = w.db.dueForPurge now := by
      unfold RetentionDatabase.dueForPurge
      rw [organizations]
    have removed : ∀ id, w'.db.Removed now id ↔ w.db.Removed now id := by
      intro id
      unfold RetentionDatabase.Removed
      rw [organizations, ledger]
    have doom : ∀ key, Doomed w'.db now key ↔ Doomed w.db now key := by
      intro key
      unfold Doomed
      rw [batches, due]
    unfold World.final
    simp only [batches, organizations, due, removed, doom]
    rw [thinned.filter fun key member => decide_eq_false (not_not_intro (doomed key member))]
  objects := thinned.subset
  batches := fun b member gone => absurd (batches ▸ member) gone
  purged := fun o member _ => .inl (organizations ▸ member)
  events := by
    unfold sweepEvents
    rw [events]
  ledger := ledger

theorem same (batches : w'.db.batches = w.db.batches)
    (organizations : w'.db.organizations = w.db.organizations)
    (ledger : w'.db.creditLedger = w.db.creditLedger)
    (events : w'.db.auditEvents = w.db.auditEvents)
    (objects : w'.bucket.objects = w.bucket.objects) : Progress now w w' := by
  apply @thinned now w w' batches organizations ledger events [] nofun
  rw [objects]
  exact Thinned.refl _ _

/-- Expired rows whose objects are gone may go. -/
theorem rows (ids : List Uuid)
    (gone : ∀ b ∈ w.db.batches, b.id ∈ ids →
      b.expiresAt ≤ now.timestamp ∧ ∀ key ∈ b.objectKeys, key ∉ w.bucket.objects) :
    Progress now w { w with db := (w.db.deleteBatchesByIds ids).2 } where
  final := by
    have left : (w.db.deleteBatchesByIds ids).2.batches =
        w.db.batches.filter fun b => ¬ b.id ∈ ids := rfl
    unfold World.final
    congr 1
    · show List.filter _ (List.filter _ _) = _
      rw [List.filter_filter]
      apply List.filter_congr
      intro b member
      by_cases listed : b.id ∈ ids
      · have expired := (gone b member listed).1
        simp [expired]
      · simp only [listed, not_false_eq_true, decide_true, Bool.and_true]
        rfl
    · refine List.filter_congr fun key member => decide_eq_decide.2 (not_congr ?_)
      unfold Doomed
      apply or_congr_left
      simp only [left, List.mem_filter, decide_eq_true_eq]
      constructor
      · rintro ⟨b, ⟨inside, -⟩, expired, of_b⟩
        exact ⟨b, inside, expired, of_b⟩
      · rintro ⟨b, inside, expired, of_b⟩
        refine ⟨b, ⟨inside, ?_⟩, expired, of_b⟩
        intro listed
        exact (gone b inside listed).2 key of_b member
  objects := fun _ => id
  batches := by
    intro b member out key listed
    refine (gone b member ?_).2 key listed
    by_contra other
    exact out (List.mem_filter.2 ⟨member, decide_eq_true other⟩)
  purged := fun o member _ => .inl member
  events := rfl
  ledger := rfl

end Progress

/-- The organisations of `ids` are purged, in the middle of the loop: of the objects some that lie
under a prefix due for purge are gone, and all that lie under the prefixes of `ids`. -/
structure Purging (now : Date) (ids : List Uuid) (w w' : World) : Prop where
  due : ∀ id ∈ ids, id ∈ w.db.dueForPurge now
  tables : ∃ events, (∀ e ∈ events, RetentionDatabase.IsPurgeEvent ids now e) ∧
    w'.db = (w.db.purgeOrganizations ids now).withEvents events
  objects : Thinned
    (w.bucket.objects.filter fun key =>
      ∃ id ∈ w.db.dueForPurge now, StartsWith (orgObjectPrefix id) key)
    w.bucket.objects w'.bucket.objects
  empty : ∀ id ∈ ids, ∀ key ∈ w'.bucket.objects, ¬ StartsWith (orgObjectPrefix id) key

namespace Purging

variable {now : Date} {ids : List Uuid} {w w' : World}

theorem dueForPurge (purging : Purging now ids w w') (id : Uuid) :
    id ∈ w'.db.dueForPurge now ↔ id ∈ w.db.dueForPurge now ∧ id ∉ ids := by
  obtain ⟨events, -, is⟩ := purging.tables
  rw [is]
  exact RetentionDatabase.mem_dueForPurge_markPurged

theorem removed (purging : Purging now ids w w') (id : Uuid) :
    w'.db.Removed now id ↔ w.db.Removed now id := by
  obtain ⟨events, -, is⟩ := purging.tables
  rw [is]
  exact RetentionDatabase.removed_markPurged purging.due id

theorem batches (purging : Purging now ids w w') :
    w'.db.batches = w.db.batches.filter fun b => ¬ b.orgId ∈ ids := by
  obtain ⟨events, -, is⟩ := purging.tables
  rw [is]
  rfl

theorem organizations (purging : Purging now ids w w') :
    w'.db.organizations =
      w.db.organizations.map fun o => if o.id ∈ ids then o.purge now else o := by
  obtain ⟨events, -, is⟩ := purging.tables
  rw [is]
  rfl

/-- What is doomed is, but for the objects that are gone. -/
theorem doomed (purging : Purging now ids w w') {key : String}
    (member : key ∈ w'.bucket.objects) : Doomed w'.db now key ↔ Doomed w.db now key := by
  unfold Doomed
  simp only [purging.batches, purging.dueForPurge, List.mem_filter, decide_eq_true_eq]
  constructor
  · rintro (⟨b, ⟨inside, -⟩, expired, listed⟩ | ⟨id, ⟨due, -⟩, under⟩ | stale)
    · exact .inl ⟨b, inside, expired, listed⟩
    · exact .inr (.inl ⟨id, due, under⟩)
    · exact .inr (.inr stale)
  · rintro (⟨b, inside, expired, listed⟩ | ⟨id, due, under⟩ | stale)
    · refine .inl ⟨b, ⟨inside, fun gone => ?_⟩, expired, listed⟩
      exact purging.empty _ gone key member (w.db.batchKeys b inside key listed)
    · exact .inr (.inl ⟨id, ⟨due, fun gone => purging.empty id gone key member under⟩, under⟩)
    · exact .inr (.inr stale)

theorem final (purging : Purging now ids w w') : w'.final now = w.final now := by
  unfold World.final
  simp only [purging.removed]
  congr 1
  · rw [purging.batches, List.filter_filter]
    apply List.filter_congr
    intro b _
    rw [← Bool.decide_and, decide_eq_decide, purging.dueForPurge]
    have due := purging.due b.orgId
    tauto
  · rw [purging.organizations, List.map_map]
    congr 1
    apply List.map_congr_left
    intro o member
    by_cases listed : o.id ∈ ids
    · have due := RetentionDatabase.due_of_mem member (purging.due _ listed)
      simp [listed, due, RetentionDatabase.not_due_purge]
    · simp [listed]
  · obtain ⟨gone, inside, is⟩ := purging.objects
    have kept : (w'.bucket.objects.filter fun key => ¬ Doomed w'.db now key) =
        w'.bucket.objects.filter fun key => ¬ Doomed w.db now key :=
      List.filter_congr fun key member => decide_eq_decide.2 (not_congr (purging.doomed member))
    rw [kept, is, List.filter_filter]
    apply List.filter_congr
    intro key _
    by_cases out : gone key = true
    · have under := (List.mem_filter.1 (inside key out)).2
      have doomed : Doomed w.db now key := .inr (.inl (of_decide_eq_true under))
      simp [out, doomed]
    · simp [out]

theorem progress (purging : Purging now ids w w') : Progress now w w' where
  final := purging.final
  objects := purging.objects.subset
  batches := by
    intro b member gone key listed left
    rw [purging.batches, List.mem_filter, decide_eq_true_eq, not_and_not_right] at gone
    exact purging.empty _ (gone member) key left (w.db.batchKeys b member key listed)
  purged := by
    intro o member _
    rw [purging.organizations] at member
    obtain ⟨before, listed, rfl⟩ := List.mem_map.1 member
    by_cases inside : before.id ∈ ids
    · rw [if_pos inside]
      exact .inr (purging.empty before.id inside)
    · rw [if_neg inside]
      exact .inl listed
  events := by
    obtain ⟨events, purges, is⟩ := purging.tables
    have none_ : events.filter (fun e => e.action = sweepAction) = [] := by
      apply List.filter_eq_nil_iff.2
      intro e member
      rw [(purges e member).2.2.2.1]
      decide
    unfold sweepEvents
    rw [is]
    show ((((w.db.auditEvents.map _).map _) ++ events).filter _).map _ = _
    rw [List.filter_append, none_, List.append_nil, List.map_map, List.filter_map, List.map_map]
    rfl
  ledger := by
    obtain ⟨events, -, is⟩ := purging.tables
    rw [is]
    rfl

/-- More objects under the prefixes due for purge may go. -/
theorem thin (purging : Purging now ids w w') {w'' : World} (same : w''.db = w'.db)
    {keys : List String} (thinned : Thinned keys w'.bucket.objects w''.bucket.objects)
    (under : ∀ key ∈ keys, key ∈ w'.bucket.objects ∧
      ∃ id ∈ w.db.dueForPurge now, StartsWith (orgObjectPrefix id) key) :
    Purging now ids w w'' where
  due := purging.due
  tables := by
    rw [same]
    exact purging.tables
  objects := by
    refine purging.objects.trans (thinned.mono fun key member => ?_)
    obtain ⟨there, prefixed⟩ := under key member
    exact List.mem_filter.2 ⟨purging.objects.subset there, decide_eq_true prefixed⟩
  empty := fun id listed key member => purging.empty id listed key (thinned.subset member)

theorem same (purging : Purging now ids w w') {w'' : World} (db : w''.db = w'.db)
    (objects : w''.bucket.objects = w'.bucket.objects) : Purging now ids w w'' := by
  refine @thin now ids w w' purging w'' db [] ?_ nofun
  rw [objects]
  exact Thinned.refl _ _

/-- The tables of an organisation without objects may be purged. -/
theorem purge (purging : Purging now ids w w') {id : Uuid} (due : id ∈ w.db.dueForPurge now)
    (empty : ∀ key ∈ w'.bucket.objects, ¬ StartsWith (orgObjectPrefix id) key) (draw : Draw) :
    Purging now (ids ++ [id]) w
      { w' with db := w'.db.hardDeleteOrganizationData id draw now } where
  due := by
    intro x member
    rcases List.mem_append.1 member with old | new
    · exact purging.due x old
    · obtain rfl := List.mem_singleton.1 new
      exact due
  tables := by
    obtain ⟨events, purges, is⟩ := purging.tables
    obtain ⟨event, ofPurge, step⟩ :=
      RetentionDatabase.hardDelete_purgeOrganizations w.db ids purges id draw
    refine ⟨events ++ [event], ?_, by rw [is]; exact step⟩
    intro e member
    rcases List.mem_append.1 member with old | new
    · obtain ⟨⟨x, listed, org⟩, rest⟩ := purges e old
      exact ⟨⟨x, List.mem_append_left _ listed, org⟩, rest⟩
    · obtain rfl := List.mem_singleton.1 new
      obtain ⟨⟨x, listed, org⟩, rest⟩ := ofPurge
      exact ⟨⟨x, List.mem_append_right _ listed, org⟩, rest⟩
  objects := purging.objects
  empty := by
    intro x member
    rcases List.mem_append.1 member with old | new
    · exact purging.empty x old
    · obtain rfl := List.mem_singleton.1 new
      exact empty

/-- Before the first purge. -/
theorem start (now : Date) (w : World) : Purging now [] w w where
  due := nofun
  tables := by
    refine ⟨[], nofun, ?_⟩
    rw [RetentionDatabase.purgeOrganizations_nil]
    apply RetentionDatabase.ext
    case auditEvents => exact (List.append_nil _).symm
    all_goals rfl
  objects := Thinned.refl _ _
  empty := nofun

end Purging

/-! ## The ends of a sweep -/

section Ends

variable (env : Environment) (now : Date) (w : World)

/-- The error of a storage call, of which some fail. -/
def Broken (e : SweepError) : Prop := (∃ error, e = .storage error) ∧ Failing env.replies

/-- What a sweep of these tables can stop on: a request that failed, or the ledger's trigger. -/
def StopsOn (db : RetentionDatabase) : SweepError → Prop
  | .storage _ => Failing env.replies
  | .database => db.purgeExpiredLedgerEntries env.dbNow now = none
  | .unfinished => False

variable {env} in
theorem Broken.stopsOn {e : SweepError} (broken : Broken env e) (db : RetentionDatabase) :
    StopsOn env now db e := by
  obtain ⟨⟨error, rfl⟩, fails⟩ := broken
  exact fails

theorem onBucket_listKeys_ends (start : String) :
    Ends (onBucket (listKeys env.replies start)) w
      (fun keys w' => keys = w.bucket.objects.filter (fun key => StartsWith start key) ∧
        w'.db = w.db ∧ w'.bucket.objects = w.bucket.objects)
      fun e w' => Broken env e ∧ w'.db = w.db ∧ w'.bucket.objects = w.bucket.objects := by
  unfold onBucket
  rw [Interruptible.ends_zoom]
  refine (Shared.listKeys_ends env.replies start w.bucket).mono ?_ ?_
  · rintro keys after ⟨listed, same⟩
    exact ⟨listed, rfl, same⟩
  · rintro e after ⟨fails, same⟩
    exact ⟨⟨⟨e, rfl⟩, fails⟩, rfl, same⟩

theorem deleteListed_ends (keys : List String) :
    Ends (deleteListed env keys) w
      (fun _ w' => w'.db = w.db ∧
        w'.bucket.objects = w.bucket.objects.filter fun key => !decide (key ∈ keys))
      fun e w' => Broken env e ∧ w'.db = w.db ∧
        Thinned keys w.bucket.objects w'.bucket.objects := by
  unfold deleteListed
  rw [Interruptible.ends_ite]
  constructor
  · rintro rfl
    exact ⟨rfl, (List.filter_eq_self.2 fun key _ => rfl).symm⟩
  · rintro -
    unfold onBucket
    rw [Interruptible.ends_zoom]
    refine (Shared.deleteObjects_ends env.replies keys w.bucket).mono ?_ ?_
    · rintro - after same
      exact ⟨rfl, same⟩
    · rintro e after ⟨fails, thinned⟩
      exact ⟨⟨⟨e, rfl⟩, fails⟩, rfl, thinned⟩

variable {now w}

/-- An expired batch of a page is the row of its target. -/
theorem of_page {b : Batch} (member : b ∈ w.db.batches)
    (listed : b.id ∈ (env.page w.db now).map (·.id)) :
    b.expiresAt ≤ now.timestamp ∧
      ∀ key ∈ b.objectKeys, key ∈ (env.page w.db now).flatMap targetKeys := by
  obtain ⟨target, inPage, same⟩ := List.mem_map.1 listed
  have among := (env.isPage w.db now).1.subset inPage
  obtain ⟨other, inside, rfl⟩ := List.mem_map.1 among
  obtain ⟨inTable, expired⟩ := List.mem_filter.1 inside
  obtain rfl : other = b := List.inj_on_of_nodup_map w.db.batchIds inTable member same
  refine ⟨of_decide_eq_true expired, fun key inKeys => List.mem_flatMap.2 ⟨_, inPage, ?_⟩⟩
  exact inKeys

/-- An empty page comes of a table without expired batches. -/
theorem dropExpired_of_empty (empty : env.page w.db now = []) :
    w.db.dropExpiredBatches now = w.db := by
  have length := (env.isPage w.db now).2
  rw [empty, List.length_nil] at length
  have none_ : w.db.core.expiredBatches now = [] := by
    rcases Nat.min_eq_zero_iff.1 length.symm with zero | zero
    · exact absurd env.positive (by omega)
    · exact List.length_eq_zero_iff.1 zero
  have kept : w.db.batches.filter (fun b => ¬ b.expiresAt ≤ now.timestamp) = w.db.batches := by
    refine List.filter_eq_self.2 fun b member => decide_eq_true fun expired => ?_
    have target : b.target ∈ w.db.core.expiredBatches now :=
      List.mem_map.2 ⟨b, List.mem_filter.2 ⟨member, decide_eq_true expired⟩, rfl⟩
    rw [none_] at target
    cases target
  apply RetentionDatabase.ext
  case batches => exact kept
  all_goals rfl

/-- A page that is not empty leaves fewer expired batches behind. -/
theorem expiredBatches_lt (some_ : env.page w.db now ≠ []) :
    ((w.db.deleteBatchesByIds ((env.page w.db now).map (·.id))).2.core.expiredBatches now).length <
      (w.db.core.expiredBatches now).length := by
  obtain ⟨target, rest, is⟩ := List.exists_cons_of_ne_nil some_
  have inPage : target ∈ env.page w.db now := is ▸ List.mem_cons_self
  have among := (env.isPage w.db now).1.subset inPage
  obtain ⟨b, inside, rfl⟩ := List.mem_map.1 among
  unfold Db.Database.expiredBatches
  rw [List.length_map, List.length_map]
  show ((w.db.batches.filter _).filter _).length < _
  rw [List.filter_comm]
  refine List.length_filter_lt_length_iff_exists.2 ⟨b, inside, fun other => ?_⟩
  apply of_decide_eq_true other
  exact List.mem_map.2 ⟨b.target, inPage, rfl⟩

/-- The rows of a page would be dropped anyway. -/
theorem dropExpired_delete :
    (w.db.deleteBatchesByIds ((env.page w.db now).map (·.id))).2.dropExpiredBatches now =
      w.db.dropExpiredBatches now := by
  apply RetentionDatabase.ext
  case batches =>
    show (w.db.batches.filter _).filter _ = w.db.batches.filter _
    rw [List.filter_filter]
    apply List.filter_congr
    intro b member
    by_cases listed : b.id ∈ (env.page w.db now).map (·.id)
    · have expired := (of_page env member listed).1
      simp [expired]
    · simp [listed]
  all_goals rfl

/-- **The loop through the pages** ends, having removed every expired batch. -/
theorem drain_ends (rounds : ℕ) (counts : ℕ × ℕ)
    (enough : (w.db.core.expiredBatches now).length < rounds) :
    Ends (drain env now rounds counts) w
      (fun _ w' => Progress now w w' ∧ w'.db = w.db.dropExpiredBatches now)
      fun e w' => Broken env e ∧ Progress now w w' := by
  induction rounds generalizing counts w with
  | zero => cases enough
  | succ rounds ih =>
      unfold drain
      rw [Interruptible.ends_bind, Interruptible.ends_get, Interruptible.ends_ite]
      constructor
      · intro empty
        exact ⟨.refl now w, (dropExpired_of_empty env empty).symm⟩
      · intro some_
        have listed := fun b => @of_page env now w b
        have filled : (env.page w.db now).flatMap targetKeys ≠ [] := by
          obtain ⟨target, rest, is⟩ := List.exists_cons_of_ne_nil some_
          have first : target.inputObjectKey ∈ targetKeys target := by
            unfold targetKeys
            split <;> exact List.mem_cons_self
          exact List.ne_nil_of_mem (List.mem_flatMap.2 ⟨target, is ▸ List.mem_cons_self, first⟩)
        have doomed : ∀ key ∈ (env.page w.db now).flatMap targetKeys, Doomed w.db now key := by
          intro key member
          obtain ⟨target, inPage, ofTarget⟩ := List.mem_flatMap.1 member
          obtain ⟨b, inside, rfl⟩ := List.mem_map.1 ((env.isPage w.db now).1.subset inPage)
          obtain ⟨inTable, expired⟩ := List.mem_filter.1 inside
          exact .inl ⟨b, inTable, of_decide_eq_true expired, ofTarget⟩
        have deletion := deleteListed_ends env w ((env.page w.db now).flatMap targetKeys)
        rw [deleteListed, if_neg filled] at deletion
        rw [Interruptible.ends_bind]
        refine deletion.mono ?_ ?_
        · rintro - middle ⟨same, left⟩
          -- the rows of the page go once its objects are gone
          have first : Progress now w middle := by
            refine Progress.thinned (by rw [same]) (by rw [same]) (by rw [same]) (by rw [same])
              doomed ?_
            rw [left]
            exact .of_filter _ _
          have second : Progress now middle { middle with
              db := (middle.db.deleteBatchesByIds ((env.page w.db now).map (·.id))).2 } := by
            apply Progress.rows _
            intro b member isListed
            obtain ⟨expired, keys⟩ := listed b (same ▸ member) isListed
            refine ⟨expired, ?_⟩
            intro key ofRow there
            rw [left] at there
            exact absurd (keys key ofRow) (by simpa using (List.mem_filter.1 there).2)
          unfold onDb
          rw [Interruptible.ends_bind, Interruptible.ends_modify]
          have fewer := expiredBatches_lt env some_
          rw [same] at second ⊢
          have left_ : ((w.db.deleteBatchesByIds ((env.page w.db now).map (·.id))).2.core.expiredBatches
              now).length < rounds := by omega
          refine (ih _ left_).mono ?_ ?_
          · rintro - last ⟨progress, is⟩
            exact ⟨(first.trans second).trans progress, is.trans (dropExpired_delete env)⟩
          · rintro e last ⟨ended, progress⟩
            exact ⟨ended, (first.trans second).trans progress⟩
        · rintro e middle ⟨ended, same, thinned⟩
          exact ⟨ended, Progress.thinned (by rw [same]) (by rw [same]) (by rw [same]) (by rw [same])
            doomed thinned⟩

theorem purgeOrganization_ends {ids : List Uuid} {w' : World} (purging : Purging now ids w w')
    {id : Uuid} (due : id ∈ w.db.dueForPurge now) (counts : ℕ × ℕ) :
    Ends (purgeOrganization env now counts id) w'
      (fun _ w'' => Purging now (ids ++ [id]) w w'')
      fun e w'' => Broken env e ∧ Purging now ids w w'' := by
  unfold purgeOrganization
  rw [Interruptible.ends_bind]
  refine (onBucket_listKeys_ends env w' _).mono ?_ ?_
  · rintro keys first ⟨rfl, sameDb, sameObjects⟩
    have under : ∀ key ∈ w'.bucket.objects.filter (fun key => StartsWith (orgObjectPrefix id) key),
        key ∈ w'.bucket.objects ∧
          ∃ id ∈ w.db.dueForPurge now, StartsWith (orgObjectPrefix id) key := by
      intro key member
      obtain ⟨there, here⟩ := List.mem_filter.1 member
      exact ⟨there, id, due, of_decide_eq_true here⟩
    rw [Interruptible.ends_bind]
    refine (deleteListed_ends env first _).mono ?_ ?_
    · rintro - second ⟨sameDb', left⟩
      have purging' : Purging now ids w second :=
        purging.thin (sameDb'.trans sameDb) (by rw [left, sameObjects]; exact .of_filter _ _) under
      rw [Interruptible.ends_bind]
      refine (onBucket_listKeys_ends env second _).mono ?_ ?_
      · rintro remaining third ⟨rfl, sameDb'', sameObjects''⟩
        have purging'' : Purging now ids w third :=
          purging'.same sameDb'' sameObjects''
        rw [Interruptible.ends_ite]
        constructor
        · intro none_
          refine purging''.purge due (fun key member here => ?_) _
          rw [sameObjects''] at member
          have listed : key ∈ second.bucket.objects.filter
              fun key => StartsWith (orgObjectPrefix id) key :=
            List.mem_filter.2 ⟨member, decide_eq_true here⟩
          rw [none_] at listed
          cases listed
        · -- the listing after a deletion that answered is empty
          intro some_
          refine absurd (List.filter_eq_nil_iff.2 fun key member under => ?_) some_
          rw [left, sameObjects] at member
          obtain ⟨there, kept⟩ := List.mem_filter.1 member
          have listed : key ∈ w'.bucket.objects.filter
              fun key => StartsWith (orgObjectPrefix id) key := List.mem_filter.2 ⟨there, under⟩
          rw [decide_eq_true listed] at kept
          cases kept
      · rintro e third ⟨ended, same, objects⟩
        exact ⟨ended, purging'.same same objects⟩
    · rintro e second ⟨ended, same, thinned⟩
      rw [sameObjects] at thinned
      exact ⟨ended, purging.thin (same.trans sameDb) thinned under⟩
  · rintro e first ⟨ended, same, objects⟩
    exact ⟨ended, purging.same same objects⟩

/-- **The loop through the organisations.** -/
theorem purgeLoop_ends (counts : ℕ × ℕ) :
    Ends ((w.db.dueForPurge now).foldlM (purgeOrganization env now) counts) w
      (fun _ w' => Purging now (w.db.dueForPurge now) w w')
      fun e w' => Broken env e ∧ Progress now w w' := by
  let I : List Uuid → World → Prop := fun rest w' =>
    ∃ done, w.db.dueForPurge now = done ++ rest ∧ Purging now done w w'
  have round : ∀ counts id rest w', I (id :: rest) w' →
      Ends (purgeOrganization env now counts id) w' (fun _ w'' => I rest w'')
        fun e w'' => Broken env e ∧ Progress now w w'' := by
    rintro counts id rest w' ⟨done, is, purging⟩
    have due : id ∈ w.db.dueForPurge now := by
      rw [is]
      exact List.mem_append_right _ List.mem_cons_self
    refine (purgeOrganization_ends env purging due counts).mono ?_ ?_
    · rintro - w'' purged
      exact ⟨done ++ [id], by rw [is]; simp, purged⟩
    · rintro e w'' ⟨ended, purged⟩
      exact ⟨ended, purged.progress⟩
  refine (Interruptible.Ends.foldList round _ counts ⟨[], rfl, Purging.start now w⟩).mono ?_
    fun _ _ => id
  rintro - w' ⟨done, is, purging⟩
  rw [List.append_nil] at is
  rw [is]
  exact purging

variable (now w)

/-- The tables after the steps that touch the bucket. -/
def cleared (db : RetentionDatabase) (now : Date) (events : List AuditEvent) : RetentionDatabase :=
  let kept := (db.purgeExpiredChecks now).2.dropExpiredBatches now
  (((kept.purgeOrganizations (db.dueForPurge now) now).withEvents events).purgeExpiredLeads now).2

/-- **Steps 1 to 5**: every row and object that is to go is gone, or the sweep stops in progress. -/
theorem sweepObjects_ends :
    Ends (sweepObjects env now) w
      (fun _ w' => Progress now w w' ∧
        (∃ events, (∀ e ∈ events, RetentionDatabase.IsPurgeEvent (w.db.dueForPurge now) now e) ∧
          w'.db = cleared w.db now events) ∧
        ∀ key ∈ w'.bucket.objects, ¬ (StartsWith "org/" key ∧ StaleExport now key))
      fun e w' => Broken env e ∧ Progress now w w' := by
  unfold sweepObjects onDb
  simp only [Interruptible.ends_bind, Interruptible.ends_get, Interruptible.ends_modify]
  have checks : Progress now w { w with db := (w.db.purgeExpiredChecks now).2 } :=
    Progress.same rfl rfl rfl rfl rfl
  refine (@drain_ends env now { w with db := (w.db.purgeExpiredChecks now).2 } _ (0, 0)
    (Nat.lt_succ_self _)).mono ?_ ?_
  · rintro - first ⟨drained, isFirst⟩
    have toFirst := checks.trans drained
    refine (purgeLoop_ends env _).mono ?_ ?_
    · rintro - second purging
      have toSecond := toFirst.trans purging.progress
      have toThird : Progress now w { second with db := (second.db.purgeExpiredLeads now).2 } :=
        toSecond.trans (Progress.same rfl rfl rfl rfl rfl)
      refine (onBucket_listKeys_ends env _ "org/").mono ?_ ?_
      · rintro keys fourth ⟨rfl, sameDb, sameObjects⟩
        have toFourth : Progress now w fourth :=
          toThird.trans (Progress.same (by rw [sameDb]) (by rw [sameDb]) (by rw [sameDb])
            (by rw [sameDb]) sameObjects)
        -- the stale exports
        have doomed : ∀ key ∈ (second.bucket.objects.filter fun key => StartsWith "org/" key).filter
            fun key => StaleExport now key, Doomed fourth.db now key := by
          intro key member
          obtain ⟨listed, stale⟩ := List.mem_filter.1 member
          exact .inr (.inr ⟨of_decide_eq_true (List.mem_filter.1 listed).2,
            of_decide_eq_true stale⟩)
        refine (deleteListed_ends env fourth _).mono ?_ ?_
        · rintro - last ⟨sameLast, left⟩
          have toLast : Progress now fourth last :=
            Progress.thinned (by rw [sameLast]) (by rw [sameLast]) (by rw [sameLast])
              (by rw [sameLast]) doomed (by rw [left]; exact .of_filter _ _)
          obtain ⟨events, purges, isSecond⟩ := purging.tables
          have due : first.db.dueForPurge now = w.db.dueForPurge now := by
            rw [isFirst]
            rfl
          refine ⟨toFourth.trans toLast, ⟨events, due ▸ purges, ?_⟩, ?_⟩
          · rw [sameLast, sameDb]
            show (second.db.purgeExpiredLeads now).2 = _
            rw [isSecond, due, isFirst]
            rfl
          · rintro key member ⟨root, stale⟩
            rw [left, sameObjects] at member
            obtain ⟨there, kept⟩ := List.mem_filter.1 member
            refine absurd ?_ (of_decide_eq_false (Eq.mp (Bool.not_eq_true' _) kept))
            exact List.mem_filter.2 ⟨List.mem_filter.2 ⟨there, decide_eq_true root⟩,
              decide_eq_true stale⟩
        · rintro e last ⟨ended, sameLast, left⟩
          exact ⟨ended, toFourth.trans (Progress.thinned (by rw [sameLast]) (by rw [sameLast])
            (by rw [sameLast]) (by rw [sameLast]) doomed left)⟩
      · rintro e fourth ⟨ended, sameDb, sameObjects⟩
        exact ⟨ended, toThird.trans (Progress.same (by rw [sameDb]) (by rw [sameDb])
          (by rw [sameDb]) (by rw [sameDb]) sameObjects)⟩
    · rintro e second ⟨ended, progress⟩
      exact ⟨ended, toFirst.trans progress⟩
  · rintro e first ⟨ended, progress⟩
    exact ⟨ended, checks.trans progress⟩

/-- Step 6 and the record of the sweep. -/
theorem sweepAccounts_ends (counts : LifecycleRunCounts) :
    Ends (sweepAccounts env now counts) w
      (fun _ w' => ∃ counts', w' = { w with
        db := (w.db.ledgerPurged now).deleteRetiredOrganizations.2.record
          ((sweepEvent counts').row (env.draw none) now) })
      fun e w' => StopsOn env now w.db e ∧ w' = w := by
  unfold sweepAccounts
  rw [Interruptible.ends_bind, Interruptible.ends_get]
  split
  · rename_i refused
    exact ⟨refused, rfl⟩
  · rename_i found
    unfold RetentionDatabase.purgeExpiredLedgerEntries at found
    split at found
    · cases found
    · obtain ⟨rfl, rfl⟩ := Prod.mk.inj (Option.some.inj found)
      exact ⟨_, rfl⟩

variable {now w}

theorem cleared_batches {events : List AuditEvent} {b : Batch}
    (member : b ∈ (cleared w.db now events).batches) : ¬ b.expiresAt ≤ now.timestamp := by
  have kept := List.mem_of_mem_filter
    (show b ∈ (w.db.batches.filter _).filter fun b => ¬ b.orgId ∈ w.db.dueForPurge now from member)
  exact of_decide_eq_true (List.mem_filter.1 kept).2

theorem cleared_dueForPurge (events : List AuditEvent) :
    (cleared w.db now events).dueForPurge now = [] := by
  apply List.eq_nil_iff_forall_not_mem.2
  intro id member
  have due := RetentionDatabase.mem_dueForPurge_markPurged.1
    (show id ∈ (((((w.db.purgeExpiredChecks now).2.dropExpiredBatches now).deleteChildren
      fun id => id ∈ w.db.dueForPurge now).markPurged (fun id => id ∈ w.db.dueForPurge now)
        now).dueForPurge now) from member)
  exact due.2 due.1

/-- Where nothing is left to do, the end of a sweep is what it comes to. -/
theorem current_of_clear {counts : LifecycleRunCounts}
    (batches : ∀ b ∈ w.db.batches, ¬ b.expiresAt ≤ now.timestamp)
    (due : w.db.dueForPurge now = [])
    (stale : ∀ key ∈ w.bucket.objects, ¬ (StartsWith "org/" key ∧ StaleExport now key)) :
    World.current { w with
      db := (w.db.ledgerPurged now).deleteRetiredOrganizations.2.record
        ((sweepEvent counts).row (env.draw none) now) } = w.final now := by
  have removed := RetentionDatabase.retired_ledgerPurged due
  have notDue : ∀ o ∈ w.db.organizations, ¬ o.Due now := by
    intro o member isDue
    have listed := RetentionDatabase.mem_dueForPurge.2 ⟨o, member, rfl, isDue⟩
    rw [due] at listed
    cases listed
  unfold World.current World.final
  congr 1
  · refine List.filter_congr fun b member => decide_eq_decide.2 ?_
    rw [removed, due]
    simp [batches b member]
  · have unmarked : w.db.organizations.map (fun o => if o.Due now then o.purge now else o) =
        w.db.organizations :=
      (List.map_congr_left fun o member => if_neg (notDue o member)).trans (List.map_id _)
    rw [unmarked]
    exact List.filter_congr fun o _ => decide_eq_decide.2 (not_congr (removed o.id))
  · refine (List.filter_eq_self.2 fun key member => decide_eq_true ?_).symm
    rintro (⟨b, inside, expired, -⟩ | ⟨id, listed, -⟩ | isStale)
    · exact batches b inside expired
    · rw [due] at listed
      cases listed
    · exact stale key member isStale

variable (now w)

/-- The trigger looks at the ledger only. -/
theorem stopsOn_congr {db db' : RetentionDatabase} (ledger : db'.creditLedger = db.creditLedger)
    (e : SweepError) : StopsOn env now db' e ↔ StopsOn env now db e := by
  cases e with
  | storage error => exact Iff.rfl
  | unfinished => exact Iff.rfl
  | database =>
      show db'.purgeExpiredLedgerEntries env.dbNow now = none ↔
        db.purgeExpiredLedgerEntries env.dbNow now = none
      unfold RetentionDatabase.purgeExpiredLedgerEntries
      rw [ledger]
      split
      · simp only
      · simp only [reduceCtorEq]

/-- **The ends of a sweep.** -/
theorem runLifecycleSweep_ends :
    Ends (runLifecycleSweep env now) w
      (fun _ w' => w'.current = w.final now ∧ ∃ events counts,
        (∀ e ∈ events, RetentionDatabase.IsPurgeEvent (w.db.dueForPurge now) now e) ∧
          w'.db = w.db.swept now events ((sweepEvent counts).row (env.draw none) now))
      fun e w' => StopsOn env now w.db e ∧ Progress now w w' := by
  unfold runLifecycleSweep
  rw [Interruptible.ends_bind]
  refine (sweepObjects_ends env now w).mono ?_ fun e stopped ⟨broken, progress⟩ =>
    ⟨broken.stopsOn now w.db, progress⟩
  rintro counts middle ⟨progress, ⟨events, purges, is⟩, stale⟩
  refine (sweepAccounts_ends env now middle counts).mono ?_ ?_
  · rintro - last ⟨counts', rfl⟩
    refine ⟨?_, events, counts', purges, by rw [is]; rfl⟩
    rw [← progress.final]
    refine current_of_clear env (fun b member => ?_) ?_ stale
    · rw [is] at member
      exact cleared_batches member
    · rw [is]
      exact cleared_dueForPurge events
  · rintro e last ⟨stopped, rfl⟩
    exact ⟨(stopsOn_congr env now progress.ledger e).1 stopped, progress⟩

end Ends

/-! ## Interruption -/

/-- **A sweep whose bucket and trigger answer goes through.** -/
theorem runLifecycleSweep_succeeds (env : Environment) (now : Date) (w : World)
    (bucket : ∀ n, env.replies n = .done)
    (trigger : w.db.purgeExpiredLedgerEntries env.dbNow now ≠ none) :
    ∃ counts finished,
      Interruptible.exec (runLifecycleSweep env now) w = (.ok counts, finished) := by
  cases is : Interruptible.exec (runLifecycleSweep env now) w with
  | mk answer stopped =>
      cases answer with
      | ok counts => exact ⟨counts, stopped, rfl⟩
      | error e =>
          have stops := ((runLifecycleSweep_ends env now w).of_error is).1
          cases e with
          | storage error => exact absurd stops (Shared.not_failing bucket)
          | database => exact absurd stops trigger
          | unfinished => exact stops.elim

/-- **What a sweep that stopped leaves**: every row whose objects are not gone, no organisation
marked as purged before its prefix is empty, and no sweep on record; where bucket and trigger
answer a later sweep goes through, and every one that goes through comes to what one sweep
instead of both would have come to. -/
structure Resumable (now : Date) (w stopped : World) : Prop where
  batches : ∀ b ∈ w.db.batches, b ∉ stopped.db.batches →
    ∀ key ∈ b.objectKeys, key ∉ stopped.bucket.objects
  purged : ∀ o ∈ stopped.db.organizations, o.purgedAt ≠ none →
    o ∈ w.db.organizations ∨
      ∀ key ∈ stopped.bucket.objects, ¬ StartsWith (orgObjectPrefix o.id) key
  events : sweepEvents stopped.db = sweepEvents w.db
  resumes : ∀ env, (∀ n, env.replies n = .done) →
    w.db.purgeExpiredLedgerEntries env.dbNow now ≠ none →
      ∃ counts finished,
        Interruptible.exec (runLifecycleSweep env now) stopped = (.ok counts, finished)
  finishes : ∀ env counts finished,
    Interruptible.exec (runLifecycleSweep env now) stopped = (.ok counts, finished) →
      finished.current = w.final now ∧
      ∀ env' counts' once,
        Interruptible.exec (runLifecycleSweep env' now) w = (.ok counts', once) →
          finished.current = once.current

theorem Progress.resumable {now : Date} {w stopped : World} (progress : Progress now w stopped) :
    Resumable now w stopped where
  batches := progress.batches
  purged := progress.purged
  events := progress.events
  resumes := by
    intro env bucket trigger
    refine runLifecycleSweep_succeeds env now stopped bucket fun refused => trigger ?_
    exact (stopsOn_congr env now progress.ledger .database).1 refused
  finishes := by
    intro env counts finished later
    have comes := ((runLifecycleSweep_ends env now stopped).of_ok later).1
    rw [progress.final] at comes
    refine ⟨comes, fun env' counts' once atOnce => ?_⟩
    rw [comes, ((runLifecycleSweep_ends env' now w).of_ok atOnce).1]

/-- **An interrupted sweep loses nothing, and a later one finishes the job.**  The loop through
the pages ends; a sweep that goes through has done all there was to do, and where bucket and
trigger answer it goes through; one that stops leaves what a later one can finish. -/
theorem sweep_interruption (now : Date) (w : World) :
    (∀ env, (Interruptible.exec (runLifecycleSweep env now) w).1 ≠ .error .unfinished) ∧
    (∀ env counts finished,
      Interruptible.exec (runLifecycleSweep env now) w = (.ok counts, finished) →
        finished.current = w.final now) ∧
    (∀ env, (∀ n, env.replies n = .done) →
      w.db.purgeExpiredLedgerEntries env.dbNow now ≠ none →
        ∃ counts finished,
          Interruptible.exec (runLifecycleSweep env now) w = (.ok counts, finished)) ∧
    ∀ env e stopped, Interruptible.exec (runLifecycleSweep env now) w = (.error e, stopped) →
      Resumable now w stopped := by
  refine ⟨?_, ?_, fun env => runLifecycleSweep_succeeds env now w, ?_⟩
  · intro env unfinished
    exact ((runLifecycleSweep_ends env now w).of_error (Prod.ext unfinished rfl)).1
  · intro env counts finished answers
    exact ((runLifecycleSweep_ends env now w).of_ok answers).1
  · intro env e stopped ends_
    exact ((runLifecycleSweep_ends env now w).of_error ends_).2.resumable

/-- The database answers with the first rows. -/
theorem isPage_take (size : ℕ) (db : RetentionDatabase) (now : Date) :
    db.core.IsExpiredPage now size ((db.core.expiredBatches now).take size) :=
  ⟨(List.take_sublist _ _).subperm, List.length_take⟩

/-- Pages of two, and every request answered alike. -/
def plainEnvironment (reply : Shared.Reply) : Environment where
  batchPageSize := 2
  positive := Nat.two_pos
  page := fun db now => (db.core.expiredBatches now).take 2
  isPage := isPage_take 2
  replies := fun _ => reply
  dbNow := 0
  draw := fun _ => ⟨0, .numbered 7, .numbered 7, .numbered 7⟩

/-- An expired batch with its input in the bucket. -/
def expiredBatch : Batch :=
  { id := .numbered 2, orgId := .numbered 1, filename := "list.csv", status := .done, totalRows := 1,
    processedRows := 1, error := none, stats := none,
    inputObjectKey := Shared.batchInputKey (.numbered 1) (.numbered 2), resultObjectKey := none,
    createdAt := 0, completedAt := none, expiresAt := 1000 }

theorem expiredBatch_keys : ∀ b ∈ [expiredBatch], ∀ key ∈ b.objectKeys,
    StartsWith (orgObjectPrefix b.orgId) key := by
  decide

def expiredWorld : World where
  db :=
    { organizations := []
      users := []
      apiKeys := []
      creditLedger := []
      emailChecks := []
      phoneChecks := []
      batches := [expiredBatch]
      webhookEndpoints := []
      webhookDeliveries := []
      invoiceRequests := []
      leads := []
      auditEvents := []
      organizationIds := List.nodup_nil
      batchIds := List.nodup_singleton _
      endpointIds := List.nodup_nil
      batchKeys := expiredBatch_keys }
  bucket := { objects := expiredBatch.objectKeys, requests := 0 }

/-- The bucket fails on the objects of the batch: the row stays, and the next sweep, to which all
answer, removes it. -/
theorem sweep_interruption_failedDeletion :
    let stopped := (Interruptible.exec (runLifecycleSweep
      (plainEnvironment (.failed fun _ => false)) 1) expiredWorld).2
    stopped.db.batches = [expiredBatch] ∧ sweepEvents stopped.db = [] ∧
      ∃ counts finished, Interruptible.exec (runLifecycleSweep (plainEnvironment .done) 1) stopped =
          (.ok counts, finished) ∧ finished.current = ⟨[], [], []⟩ := by
  have stops := (sweep_interruption 1 expiredWorld).2.2.2
    (plainEnvironment (.failed fun _ => false)) (.storage .deletionIncomplete) _ (Prod.ext rfl rfl)
  obtain ⟨counts, finished, later⟩ :=
    stops.resumes (plainEnvironment .done) (fun _ => rfl) (by decide)
  exact ⟨rfl, stops.events, counts, finished, later, (stops.finishes _ _ _ later).1⟩

end Tozalist.Worker.Lifecycle
