/-
# Tozalist.Worker.Deduplication -- an address costs once, and has one result

What a whole run of the batch loop does per address, for every file, cache and engine, at
every chunk size: at most one engine call and at most one inserted row, a charge exactly
for the addresses that the cache did not know and the engine could assess, one result for
all rows of an address, kept through the codec of the map.

Where the chunks end plays no part.  A finished run is described by the log of the addresses
of its file (`Finished.rows_perm`), and whether it finishes depends on the inserts of that
log (`failure_eq_none_iff`); neither mentions the chunk size.
-/
import Tozalist.Api.CsvInspect
import Tozalist.Worker.BatchRun

namespace Tozalist.Worker

set_option autoImplicit false

open Core (EngineResponse)
open Db
open Theory (Memo.keys Memo.rememberAll Memo.answers Txn)
open Theory.Chunked

variable {deps : BatchProcessorDeps} {job : ClaimedBatch} {db : Database}

/-! ## The log of a run -/

/-- A run, finished or halted, tracks the log of the addresses it has resolved. -/
theorem processRecords_tracks (db : Database) (positive : 1 ≤ deps.chunkSize)
    {records : List Record}
    (free : CollisionFree deps (addresses deps job (dataRows job.layout records))) :
    ∃ emails, emails <+: addresses deps job (dataRows job.layout records) ∧
      Tracks deps (logOf deps job db emails) (processRecords deps job db records) := by
  rcases processRecords_cases db positive free with finished | halted
  · exact ⟨_, List.prefix_rfl, finished.tracks⟩
  · exact halted.tracks

theorem processRecords_inserted (db : Database) (positive : 1 ≤ deps.chunkSize)
    {records : List Record}
    (free : CollisionFree deps (addresses deps job (dataRows job.layout records))) :
    ∃ emails, emails <+: addresses deps job (dataRows job.layout records) ∧
      Inserted deps job db (logOf deps job db emails) (processRecords deps job db records).db := by
  rcases processRecords_cases db positive free with finished | halted
  · exact ⟨_, List.prefix_rfl, finished.inserted⟩
  · exact halted.inserted

theorem processRecords_answered (db : Database) (positive : 1 ≤ deps.chunkSize)
    {records : List Record}
    (free : CollisionFree deps (addresses deps job (dataRows job.layout records))) :
    ∀ row ∈ (processRecords deps job db records).rows,
      Answered deps job db (addresses deps job (dataRows job.layout records)) row := by
  rcases processRecords_cases db positive free with finished | halted
  · exact finished.answered
  · exact halted.answered

/-- A run that did not fail has finished. -/
theorem finished_of_failure_eq_none (positive : 1 ≤ deps.chunkSize) {records : List Record}
    (free : CollisionFree deps (addresses deps job (dataRows job.layout records)))
    (completes : (processRecords deps job db records).failure = none) :
    Finished deps job db (dataRows job.layout records) (processRecords deps job db records) := by
  rcases processRecords_cases db positive free with finished | halted
  · exact finished
  · have failed := halted.failed
    rw [completes] at failed
    cases failed

/-! ## Calls and inserts -/

/-- The called addresses of a log are distinct. -/
theorem callsOf_nodup (emails : List JsString) :
    ((callsOf (logOf deps job db emails)).map (·.email)).Nodup :=
  (Theory.Memo.keys_nodup emails).sublist (callsOf_sublist _)

/-- The inserted rows are of distinct addresses of the log. -/
theorem Inserted.addresses {emails : List JsString} {db' : Database}
    (inserted : Inserted deps job db (logOf deps job db emails) db') :
    ∃ added, db' = { db with emailChecks := db.emailChecks ++ added } ∧
      (added.map (·.emailNormalized)).Nodup ∧ ∀ check ∈ added, check.emailNormalized ∈ emails := by
  obtain ⟨added, written, rfl⟩ := inserted
  have same : added.map (·.emailNormalized) =
      (insertsOf deps job (logOf deps job db emails)).map (·.check.emailNormalized) := by
    rw [← withIds_map_fst deps 0 (insertsOf deps job (logOf deps job db emails)), List.map_map]
    exact written_map_eq written fun row check ⟨_, eq⟩ => by rw [eq]; rfl
  have listed := insertsOf_sublist deps job (logOf deps job db emails)
  refine ⟨added, rfl, ?_, ?_⟩
  · rw [same]
    exact (Theory.Memo.keys_nodup emails).sublist listed
  · intro check member
    have inside : check.emailNormalized ∈ added.map (·.emailNormalized) :=
      List.mem_map_of_mem member
    rw [same] at inside
    exact mem_keys_logOf.1 (listed.subset inside)

instance (emails : List JsString) : Decidable (CollisionFree deps emails) :=
  inferInstanceAs (Decidable (∀ a ∈ emails, ∀ b ∈ emails, _ → _))

/-! ## The charge -/

/-- The cache knows the address. -/
def Cached (deps : BatchProcessorDeps) (job : ClaimedBatch) (db : Database) (email : JsString) :
    Prop :=
  (db.findRecentEmailCheck job.batch.orgId (deps.sha256Hex email) job.now).isSome = true

instance (email : JsString) : Decidable (Cached deps job db email) :=
  inferInstanceAs (Decidable (_ = _))

/-- The engine was called for the address and threw. -/
def EngineFailed (p : Progress) (email : JsString) : Prop := ⟨email, none⟩ ∈ p.calls

instance (p : Progress) (email : JsString) : Decidable (EngineFailed p email) :=
  inferInstanceAs (Decidable (_ ∈ _))

/-- An entry of a log is a cached one exactly for the addresses the cache knows. -/
theorem isCached_iff_of_mem_logOf {emails : List JsString} {entry : JsString × Outcome}
    (member : entry ∈ logOf deps job db emails) :
    entry.2.isCached = true ↔ Cached deps job db entry.1 := by
  refine Theory.Memo.forall_mem_rememberAll
    (fun email outcome => outcome.isCached = true ↔ Cached deps job db email)
    (fun log email => ?_) (List.forall_mem_nil _) emails entry member
  rw [resolve, Cached]
  cases db.findRecentEmailCheck job.batch.orgId (deps.sha256Hex email) job.now with
  | some check => exact iff_of_true rfl rfl
  | none =>
      refine iff_of_false ?_ Bool.false_ne_true
      cases deps.engine (callsOf log) email <;> exact Bool.false_ne_true

/-- How a run has resolved an address: to the check that the cache knows, or to what the engine
answered. -/
def ResolvedTo (deps : BatchProcessorDeps) (job : ClaimedBatch) (db : Database) (p : Progress)
    (email : JsString) : Outcome → Prop
  | .cached check =>
      db.findRecentEmailCheck job.batch.orgId (deps.sha256Hex email) job.now = some check
  | .unassessed => ¬ Cached deps job db email ∧ ⟨email, none⟩ ∈ p.calls
  | .checked response => ¬ Cached deps job db email ∧ ⟨email, some response⟩ ∈ p.calls

/-- The entries of a log are how its addresses were resolved. -/
theorem resolvedTo_of_mem_logOf {emails : List JsString} {p : Progress}
    (calls : p.calls = callsOf (logOf deps job db emails)) {email : JsString} {outcome : Outcome}
    (member : (email, outcome) ∈ logOf deps job db emails) :
    ResolvedTo deps job db p email outcome := by
  have known := isCached_iff_of_mem_logOf member
  cases outcome with
  | cached check =>
      refine Theory.Memo.forall_mem_rememberAll (fun email outcome => ∀ check,
          outcome = .cached check →
            db.findRecentEmailCheck job.batch.orgId (deps.sha256Hex email) job.now = some check)
        (fun log email check is => ?_) (List.forall_mem_nil _) emails _ member check rfl
      rw [resolve] at is
      cases found : db.findRecentEmailCheck job.batch.orgId (deps.sha256Hex email) job.now with
      | some other =>
          rw [found] at is
          rw [Outcome.cached.inj is]
      | none =>
          rw [found] at is
          cases answer : deps.engine (callsOf log) email with
          | none =>
              rw [answer] at is
              cases is
          | some response =>
              rw [answer] at is
              cases is
  | unassessed =>
      refine ⟨fun cached => absurd (known.2 cached) Bool.false_ne_true, ?_⟩
      rw [calls]
      exact List.mem_filterMap.2 ⟨_, member, rfl⟩
  | checked response =>
      refine ⟨fun cached => absurd (known.2 cached) Bool.false_ne_true, ?_⟩
      rw [calls]
      exact List.mem_filterMap.2 ⟨_, member, rfl⟩

/-- A failed call is an entry of the log. -/
theorem failedCall_mem_callsOf {log : AddressLog} {email : JsString} :
    (⟨email, none⟩ : EngineCall) ∈ callsOf log ↔ (email, Outcome.unassessed) ∈ log := by
  rw [callsOf, List.mem_filterMap]
  constructor
  · rintro ⟨⟨other, outcome⟩, member, call⟩
    cases outcome with
    | cached check => cases call
    | unassessed =>
        obtain rfl : other = email := congrArg EngineCall.email (Option.some.inj call)
        exact member
    | checked response => cases congrArg EngineCall.answer (Option.some.inj call)
  · intro member
    exact ⟨_, member, rfl⟩

/-- **The charge** of a log: the distinct addresses neither cached nor failed. -/
theorem countP_isChecked_logOf {emails : List JsString} {p : Progress}
    (calls : p.calls = callsOf (logOf deps job db emails)) :
    (logOf deps job db emails).countP (·.2.isChecked) =
      (emails.toFinset.filter fun email =>
        ¬ Cached deps job db email ∧ ¬ EngineFailed p email).card := by
  have nodup : (Memo.keys ((logOf deps job db emails).filter (·.2.isChecked))).Nodup :=
    (Theory.Memo.keys_nodup emails).sublist (List.filter_sublist.map _)
  rw [List.countP_eq_length_filter, ← List.length_map Prod.fst, ← Memo.keys,
    ← List.toFinset_card_of_nodup nodup]
  congr 1
  ext email
  rw [List.mem_toFinset, Finset.mem_filter, List.mem_toFinset]
  constructor
  · intro listed
    obtain ⟨⟨_, outcome⟩, member, rfl⟩ := List.mem_map.1 listed
    obtain ⟨inside, checked⟩ := List.mem_filter.1 member
    refine ⟨mem_keys_logOf.1 (List.mem_map_of_mem inside), ?_, ?_⟩
    · intro cached
      have := (isCached_iff_of_mem_logOf inside).2 cached
      cases outcome <;> simp_all [Outcome.isCached, Outcome.isChecked]
    · intro failed
      rw [EngineFailed, calls, failedCall_mem_callsOf] at failed
      have same : outcome = .unassessed := congrArg Prod.snd
        (List.inj_on_of_nodup_map (Theory.Memo.keys_nodup emails) inside failed rfl)
      rw [same] at checked
      cases checked
  · rintro ⟨involved, uncached, answered⟩
    have listed : email ∈ Memo.keys (logOf deps job db emails) := mem_keys_logOf.2 involved
    obtain ⟨⟨_, outcome⟩, member, rfl⟩ := List.mem_map.1 listed
    refine List.mem_map_of_mem (List.mem_filter.2 ⟨member, ?_⟩)
    cases outcome with
    | cached check => exact absurd ((isCached_iff_of_mem_logOf member).1 rfl) uncached
    | unassessed =>
        rw [EngineFailed, calls, failedCall_mem_callsOf] at answered
        exact absurd member answered
    | checked response => rfl

/-! ## The rows -/

/-- The written row of a record, when the addresses of its file are resolved. -/
def writtenOf (deps : BatchProcessorDeps) (job : ClaimedBatch) (db : Database)
    (records : List Record) (record : Record) : WrittenRow :=
  ⟨record, address deps job record,
    resultOf deps (logOf deps job db (addresses deps job records)) (address deps job record)⟩

/-- **A finished run** has written every record, with the result of its address. -/
theorem Finished.rows_perm {records : List Record} {p : Progress}
    (finished : Finished deps job db records p) :
    p.rows.Perm (records.map (writtenOf deps job db records)) := by
  have rows := finished.rows
  rw [List.map_nil, List.append_nil] at rows
  have completed : p.rows = (p.rows.map fun row => (row.cells, row.normalized)).map fun pair =>
      (⟨pair.1, pair.2,
        resultOf deps (logOf deps job db (addresses deps job records)) pair.2⟩ : WrittenRow) := by
    rw [List.map_map]
    refine (List.map_id p.rows).symm.trans (List.map_congr_left fun row member => ?_)
    obtain ⟨cells, normalized, result⟩ := row
    have answered := (finished.answered _ member).result
    simp only at answered
    rw [answered]
    rfl
  rw [completed]
  apply (rows.map _).trans
  rw [List.map_map]
  exact List.Perm.refl _

/-- **Whether a run fails** depends on the inserts of its file. -/
theorem failure_eq_none_iff (db : Database) (positive : 1 ≤ deps.chunkSize) {records : List Record}
    (free : CollisionFree deps (addresses deps job (dataRows job.layout records)))
    (ids : FreshIds deps db (addresses deps job (dataRows job.layout records)).length) :
    (processRecords deps job db records).failure = none ↔
      ∀ insert ∈ insertsOf deps job
        (logOf deps job db (addresses deps job (dataRows job.layout records))),
        insert.check.Fits := by
  rcases processRecords_cases db positive free with finished | halted
  · apply iff_of_true finished.running
    intro insert member
    obtain ⟨added, written, -⟩ := finished.inserted
    rw [← withIds_map_fst deps 0 (insertsOf deps job _)] at member
    obtain ⟨row, inside, rfl⟩ := List.mem_map.1 member
    exact written_fits written row inside
  · refine iff_of_false (fun running => ?_) fun fits => ?_
    · have failed := halted.failed
      rw [running] at failed
      cases failed
    · obtain ⟨insert, member, misfit⟩ := halted.misfit ids
      exact misfit (fits insert member)

/-- Neither the addresses, nor their log, nor its inserts depend on the chunk size. -/
theorem failure_eq_none_chunkSize (positive : 1 ≤ deps.chunkSize) {records : List Record}
    (free : CollisionFree deps (addresses deps job (dataRows job.layout records)))
    (ids : FreshIds deps db (addresses deps job (dataRows job.layout records)).length)
    {size : ℕ} (some_ : 1 ≤ size) :
    (processRecords { deps with chunkSize := size } job db records).failure = none ↔
      (processRecords deps job db records).failure = none := by
  have free' : CollisionFree { deps with chunkSize := size }
      (addresses { deps with chunkSize := size } job (dataRows job.layout records)) := free
  have positive' : 1 ≤ { deps with chunkSize := size }.chunkSize := some_
  have fits := failure_eq_none_iff db positive free ids
  exact (failure_eq_none_iff db positive' free' ⟨ids.distinct, ids.fresh⟩).trans fits.symm

/-! ## Deduplication and charging -/

/-- What a run does per address of its file. -/
structure Deduplicated (deps : BatchProcessorDeps) (job : ClaimedBatch) (db : Database)
    (records : List Record) (p : Progress) : Prop where
  /-- at most one engine call for an address -/
  calls : (p.calls.map (·.email)).Nodup ∧
    ∀ call ∈ p.calls, call.email ∈ addresses deps job (dataRows job.layout records)
  /-- at most one inserted row for an address -/
  inserts : ∃ added, p.db = { db with emailChecks := db.emailChecks ++ added } ∧
    (added.map (·.emailNormalized)).Nodup ∧
    ∀ check ∈ added, check.emailNormalized ∈ addresses deps job (dataRows job.layout records)
  /-- the charge of a batch that completes -/
  charged : p.failure = none → p.stats.charged =
    ((addresses deps job (dataRows job.layout records)).toFinset.filter fun email =>
      ¬ Cached deps job db email ∧ ¬ EngineFailed p email).card
  /-- is at most what was reserved -/
  within : p.failure = none →
    Api.Uploaded (Api.inspectCsv deps.toLowerCase records) job.batch →
    p.stats.charged ≤ job.batch.totalRows
  /-- rows of one address have one result -/
  results : ∀ row ∈ p.rows, ∀ row' ∈ p.rows, row.normalized = row'.normalized →
    row.result = row'.result
  /-- what the map holds for an address is the result it was resolved to, encoded; it is decoded
  to that very result, which the rows of the address have -/
  codec : ∀ email text, p.seen email = some text →
    ∃ outcome, ResolvedTo deps job db p email outcome ∧
      text = encodeResult (outcome.result deps.toLowerCase) ∧
      decodeResult text = some (outcome.result deps.toLowerCase) ∧
      ∀ row ∈ p.rows, row.normalized = email → row.result = outcome.result deps.toLowerCase
  /-- and no other chunk size makes a difference -/
  chunks : ∀ size, 1 ≤ size →
    FreshIds deps db (addresses deps job (dataRows job.layout records)).length →
    ((processRecords { deps with chunkSize := size } job db records).failure = none ↔
      p.failure = none) ∧
    (p.failure = none →
      (processRecords { deps with chunkSize := size } job db records).rows.Perm p.rows ∧
      (processRecords { deps with chunkSize := size } job db records).stats.charged =
        p.stats.charged)

theorem charged_le_of_finished {records : List Record} {p : Progress}
    (finished : Finished deps job db records p) : p.stats.charged ≤ records.length := by
  rw [finished.tracks.charged]
  calc (logOf deps job db (addresses deps job records)).countP (·.2.isChecked)
      ≤ (logOf deps job db (addresses deps job records)).length := List.countP_le_length
    _ = (addresses deps job records).toFinset.card := Theory.Memo.length_answers _
    _ ≤ (addresses deps job records).length := List.toFinset_card_le _
    _ ≤ records.length := by
        have := length_addresses deps job records
        omega

/-- **Batch deduplication and charging**, for every file, cache content, engine and chunk
size, as long as the addresses of the file have different hashes. -/
theorem processRecords_deduplicated (deps : BatchProcessorDeps) (job : ClaimedBatch)
    (db : Database) (records : List Record) (positive : 1 ≤ deps.chunkSize)
    (free : CollisionFree deps (addresses deps job (dataRows job.layout records))) :
    Deduplicated deps job db records (processRecords deps job db records) := by
  obtain ⟨resolved, before, tracks⟩ := processRecords_tracks db positive free
  obtain ⟨stored, before', inserted⟩ := processRecords_inserted db positive free
  have answered := processRecords_answered db positive free
  refine ⟨⟨?_, ?_⟩, ?_, ?_, ?_, ?_, ?_, ?_⟩
  · rw [tracks.calls]
    exact callsOf_nodup resolved
  · intro call member
    rw [tracks.calls] at member
    have listed := (callsOf_sublist _).subset (List.mem_map_of_mem member)
    exact before.subset (mem_keys_logOf.1 listed)
  · obtain ⟨added, eq, nodup, inside⟩ := inserted.addresses
    exact ⟨added, eq, nodup, fun check member => before'.subset (inside check member)⟩
  · intro completes
    have finished := finished_of_failure_eq_none positive free completes
    rw [finished.tracks.charged, countP_isChecked_logOf finished.tracks.calls]
  · intro completes uploaded
    rw [uploaded.totalRows]
    exact charged_le_of_finished (finished_of_failure_eq_none positive free completes)
  · intro row member row' member' same
    rw [(answered row member).result, (answered row' member').result, same]
  · intro email text found
    rw [tracks.seen] at found
    obtain ⟨outcome, isResolved, rfl⟩ := Option.map_eq_some_iff.1 found
    have entry := Theory.Memo.mem_of_lookup isResolved
    refine ⟨outcome, resolvedTo_of_mem_logOf tracks.calls entry, rfl,
      outcome.decode deps.toLowerCase, ?_⟩
    intro row member same
    obtain ⟨rest, whole⟩ := before
    have known : row.normalized ∈ resolved := same ▸ mem_keys_logOf.1 (List.mem_map_of_mem entry)
    rw [(answered row member).result, ← whole, resultOf_logOf_append known, resultOf, same,
      isResolved]
    rfl
  · intro size some_ ids
    have same := failure_eq_none_chunkSize positive free ids some_
    have positive' : 1 ≤ { deps with chunkSize := size }.chunkSize := some_
    refine ⟨same, ?_⟩
    intro completes
    have finished := finished_of_failure_eq_none positive free completes
    have finished' := finished_of_failure_eq_none positive' free (same.2 completes)
    exact ⟨finished'.rows_perm.trans finished.rows_perm.symm,
      finished'.tracks.charged.trans finished.tracks.charged.symm⟩

/-! ## A file of four rows -/

/-- A header, one address twice, one that the engine cannot assess, and an empty cell. -/
def sampleRecords : List Record :=
  [["email"], ["ann@gmail.com"], ["bob@gmail.com"], [" ann@GMAIL.com"], [""]].map fun cells =>
    cells.map Js.ofString

/-- An offline answer of the engine. -/
def sampleResponse : EngineResponse :=
  { email := "ann@gmail.com"
    syntax_ := ⟨true, "ann", "gmail.com"⟩
    mx := ⟨some true, ["gmail-smtp-in.l.google.com."], ""⟩
    disposable := false
    roleAccount := false
    freeProvider := true
    smtp := none
    durationMs := 3 }

/-- Chunks of two; the hash and the lower case are those of the texts of the file. -/
def sampleDeps : BatchProcessorDeps where
  engine _ email := if email = Js.ofString "ann@gmail.com" then some sampleResponse else none
  chunkSize := 2
  sha256Hex email :=
    if email = Js.ofString "ann@gmail.com" then
      "89fc83f682b5eeb73a8fccb73d43deeee9f58041fc232c15a43cc349132e1273"
    else if email = Js.ofString "bob@gmail.com" then
      "300db02db75af922c759f08a0efa5a400128eac1f531b802697450b5c6da6e9f"
    else ""
  toLowerCase text := text.map fun u => if 0x41 ≤ u && u ≤ 0x5A then u + 0x20 else u
  randomUUID k := Uuid.numbered k

def sampleBatch : Batch :=
  { id := Uuid.numbered 1
    orgId := Uuid.numbered 2
    filename := "contacts.csv"
    status := .processing
    totalRows := 4
    processedRows := 0
    error := none
    stats := some (emptyStats 0 true)
    inputObjectKey := "org/b/batches/a/input.csv"
    resultObjectKey := none
    createdAt := 0
    completedAt := none
    expiresAt := 0 }

def sampleJob : ClaimedBatch := ⟨sampleBatch, 30, ⟨0, true⟩, rfl, 1000⟩

def sampleDb : Database := ⟨[], [], [], [], [sampleBatch], []⟩

theorem processRecords_deduplicated_sample :
    (processRecords sampleDeps sampleJob sampleDb sampleRecords).failure = none ∧
      (processRecords sampleDeps sampleJob sampleDb sampleRecords).stats.charged = 1 ∧
      Deduplicated sampleDeps sampleJob sampleDb sampleRecords
        (processRecords sampleDeps sampleJob sampleDb sampleRecords) :=
  ⟨by decide +kernel, by decide +kernel,
    processRecords_deduplicated sampleDeps sampleJob sampleDb sampleRecords (by decide)
      (by decide +kernel)⟩

end Tozalist.Worker
