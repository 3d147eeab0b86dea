/-
# Tozalist.Worker.Accounting -- the counters of a batch that completes

The counters of `BatchStats` are bumped in three places: at a malformed record, at a record
whose address is in the map when it is read, and once for each address a chunk resolves.
The rows they leave out are those that repeat an address of their own chunk: it is not in
the map yet, and resolved once (`Finished.counters`).

* `Accounted` -- rows processed, verdicts and counters all give the rows of the upload;
* `accounted_iff` -- when that holds, and when the chunk size plays no part.
-/
import Tozalist.Worker.Deduplication

namespace Tozalist.Worker

set_option autoImplicit false

open Db
open Theory.Chunked

variable {deps : BatchProcessorDeps} {job : ClaimedBatch} {db : Database}

/-- Rows that were neither malformed nor counted with an address. -/
def countedRows (stats : BatchStats) : ℕ :=
  stats.malformedRows + stats.charged + stats.cached + stats.duplicates + stats.engineErrors

/-- Every row of the batch is accounted for exactly once. -/
structure Accounted (batch : Batch) (p : Progress) : Prop where
  processed : p.processed = batch.totalRows
  distribution : total p.stats.distribution = p.processed
  counters : countedRows p.stats = p.processed

instance (batch : Batch) (p : Progress) : Decidable (Accounted batch p) :=
  decidable_of_iff (p.processed = batch.totalRows ∧ total p.stats.distribution = p.processed ∧
      countedRows p.stats = p.processed)
    ⟨fun ⟨processed, distribution, counters⟩ => ⟨processed, distribution, counters⟩,
      fun accounted => ⟨accounted.processed, accounted.distribution, accounted.counters⟩⟩

/-- The final statistics are those of a run with any other chunk size. -/
def ChunkIndependent (deps : BatchProcessorDeps) (job : ClaimedBatch) (db : Database)
    (records : List Record) : Prop :=
  ∀ size, 1 ≤ size →
    (processRecords { deps with chunkSize := size } job db records).stats =
      (processRecords deps job db records).stats

/-- No row repeats an address whose first row is in its own chunk. -/
def SeparateRepeats (size : ℕ) (emails : List JsString) : Prop :=
  ∀ read email rest, emails = read ++ email :: rest → email ∈ read → email ∈ flushed size read

theorem tally_repeatsPending_eq_zero_iff {size : ℕ} {emails : List JsString} :
    tally (repeatsPending size) emails = 0 ↔ SeparateRepeats size emails := by
  rw [tally_eq_zero_iff, Everywhere]
  refine forall_congr' fun read => forall_congr' fun email => forall_congr' fun rest =>
    imp_congr_right fun _ => ?_
  rw [repeatsPending, decide_eq_false_iff_not, not_and, not_not]

/-! ## The layout -/

/-- The layout that the statistics record. -/
def Progress.layout (p : Progress) : Layout := ⟨p.stats.emailColumn, p.stats.hasHeader⟩

/-- A fold whose step keeps the layout keeps it. -/
theorem layout_foldl {σ β : Type} (view : σ → Progress) (step : σ → β → σ)
    (same : ∀ s b, (view (step s b)).layout = (view s).layout) (s : σ) (items : List β) :
    (view (items.foldl step s)).layout = (view s).layout := by
  induction items generalizing s with
  | nil => rfl
  | cons b items ih => rw [List.foldl_cons, ih, same]

theorem resolveRow_layout (cachedRows : String → Option EmailCheck) (r : Resolution)
    (row : PendingRow) :
    (resolveRow deps job cachedRows r row).progress.layout = r.progress.layout := by
  rw [resolveRow]
  cases cachedRows row.hash with
  | some cached => rfl
  | none => cases answer : deps.engine r.progress.calls row.normalized <;> rfl

theorem writePending_layout (p : Progress) (row : PendingRow) :
    (writePending p row).layout = p.layout := by
  rw [writePending]
  cases (p.seen row.normalized).bind decodeResult <;> rfl

theorem resolveChunk_layout (p : Progress) (rows : List PendingRow) :
    (resolveChunk deps job p rows).layout = p.layout := by
  have resolved : (resolveUnique deps job p rows).progress.layout = p.layout :=
    layout_foldl Resolution.progress _ (resolveRow_layout _) ⟨p, []⟩ _
  rw [resolveChunk]
  split
  · exact (layout_foldl id writePending writePending_layout _ rows).trans resolved
  · exact resolved

theorem readRecord_layout (s : Progress × List PendingRow) (record : Record) :
    (readRecord deps job s record).1.layout = s.1.layout := by
  have counted (p : Progress) (email : JsString) : (p.countDuplicate email).layout = p.layout := by
    rw [Progress.countDuplicate]
    split <;> rfl
  rw [readRecord]
  split
  · rfl
  split
  · rfl
  simp only
  split
  · exact (resolveChunk_layout _ _).trans (counted _ _)
  · exact counted _ _

/-- A run records the layout it was given. -/
theorem processRecords_layout (db : Database) (records : List Record) :
    (processRecords deps job db records).layout = job.layout := by
  have read : (readRecords deps job db records).1.layout = job.layout :=
    layout_foldl Prod.fst _ readRecord_layout (Progress.start job db, []) _
  rw [processRecords]
  split
  · exact read
  split
  · exact read
  · exact (resolveChunk_layout _ _).trans read

/-! ## A finished run -/

theorem Finished.processed {records : List Record} {p : Progress}
    (finished : Finished deps job db records p) : p.processed = records.length := by
  rw [finished.counted.processed, finished.rows_perm.length_eq, List.length_map]

/-- **The counters** of a finished run miss the rows that repeat an address of their own
chunk, and no other. -/
theorem Finished.counters {records : List Record} {p : Progress}
    (finished : Finished deps job db records p) :
    countedRows p.stats + tally (repeatsPending deps.chunkSize) (addresses deps job records) =
      records.length := by
  have places := tally_places deps.chunkSize (addresses deps job records)
  have first : (logOf deps job db (addresses deps job records)).length =
      tally isFirst (addresses deps job records) := length_answers _ _
  have kinds := length_eq_countP (logOf deps job db (addresses deps job records))
  have rows := length_addresses deps job records
  rw [countedRows, finished.malformedRows, finished.tracks.charged, finished.tracks.cached,
    finished.duplicates, finished.tracks.engineErrors]
  omega

/-- What the chunk size decides of the statistics is how many rows are counted as
duplicates. -/
theorem Finished.stats_eq_iff {size : ℕ} {records : List Record} {p p' : Progress}
    (finished : Finished deps job db records p)
    (finished' : Finished { deps with chunkSize := size } job db records p')
    (layout : p'.layout = p.layout) :
    p'.stats = p.stats ↔
      tally (repeatsPending size) (addresses deps job records) =
        tally (repeatsPending deps.chunkSize) (addresses deps job records) := by
  have counters := finished.counters
  have counters' := finished'.counters
  constructor
  · intro same
    rw [same] at counters'
    exact Nat.add_left_cancel (counters'.trans counters.symm)
  · intro same
    have distribution : p'.stats.distribution = p.stats.distribution := by
      rw [finished'.counted.distribution, finished.counted.distribution]
      exact distributionOf_perm (finished'.rows_perm.trans finished.rows_perm.symm)
    have malformedRows : p'.stats.malformedRows = p.stats.malformedRows :=
      finished'.malformedRows.trans finished.malformedRows.symm
    have charged : p'.stats.charged = p.stats.charged :=
      finished'.tracks.charged.trans finished.tracks.charged.symm
    have cached : p'.stats.cached = p.stats.cached :=
      finished'.tracks.cached.trans finished.tracks.cached.symm
    have engineErrors : p'.stats.engineErrors = p.stats.engineErrors :=
      finished'.tracks.engineErrors.trans finished.tracks.engineErrors.symm
    have duplicates : p'.stats.duplicates = p.stats.duplicates := by
      change countedRows p'.stats + tally (repeatsPending size) (addresses deps job records) = _
        at counters'
      rw [countedRows] at counters counters'
      omega
    obtain ⟨column, header⟩ := Layout.mk.inj layout
    revert column header malformedRows charged cached duplicates engineErrors distribution
    cases p'.stats
    cases p.stats
    rintro rfl rfl rfl rfl rfl rfl rfl rfl
    rfl

/-! ## Every row once -/

/-- **Rows and verdicts** of a batch that completes always add up.  Its counters do exactly
when no row repeats an address of its own chunk, and they depend on the chunk size exactly
when some address occurs twice. -/
theorem accounted_iff (deps : BatchProcessorDeps) (job : ClaimedBatch) (db : Database)
    (records : List Record) (positive : 1 ≤ deps.chunkSize)
    (free : CollisionFree deps (addresses deps job (dataRows job.layout records)))
    (uploaded : Api.Uploaded (Api.inspectCsv deps.toLowerCase records) job.batch)
    (completes : (processRecords deps job db records).failure = none) :
    ((processRecords deps job db records).processed = job.batch.totalRows ∧
      total (processRecords deps job db records).stats.distribution =
        (processRecords deps job db records).processed) ∧
    (Accounted job.batch (processRecords deps job db records) ↔
      SeparateRepeats deps.chunkSize (addresses deps job (dataRows job.layout records))) ∧
    (FreshIds deps db (addresses deps job (dataRows job.layout records)).length →
      (ChunkIndependent deps job db records ↔
        (addresses deps job (dataRows job.layout records)).Nodup)) := by
  have finished := finished_of_failure_eq_none positive free completes
  have processed : (processRecords deps job db records).processed = job.batch.totalRows :=
    finished.processed.trans uploaded.totalRows.symm
  have verdicts : total (processRecords deps job db records).stats.distribution =
      (processRecords deps job db records).processed := by
    rw [finished.counted.distribution, total_distributionOf, finished.counted.processed]
  -- with any other chunk size the run finishes too
  have other (ids : FreshIds deps db (addresses deps job (dataRows job.layout records)).length)
      (size : ℕ) (some_ : 1 ≤ size) :
      (processRecords { deps with chunkSize := size } job db records).stats =
          (processRecords deps job db records).stats ↔
        tally (repeatsPending size) (addresses deps job (dataRows job.layout records)) =
          tally (repeatsPending deps.chunkSize)
            (addresses deps job (dataRows job.layout records)) := by
    have completes' : (processRecords { deps with chunkSize := size } job db records).failure =
        none := (failure_eq_none_chunkSize positive free ids some_).2 completes
    have positive' : 1 ≤ { deps with chunkSize := size }.chunkSize := some_
    apply finished.stats_eq_iff (finished_of_failure_eq_none positive' free completes')
    rw [processRecords_layout, processRecords_layout]
  refine ⟨⟨processed, verdicts⟩, ?_, fun ids => ⟨?_, ?_⟩⟩
  · have counters := finished.counters
    rw [← finished.processed] at counters
    rw [← tally_repeatsPending_eq_zero_iff]
    constructor
    · intro accounted
      have := accounted.counters
      omega
    · intro separate
      exact ⟨processed, verdicts, by omega⟩
  · intro independent
    -- chunks of one hold no repetition, a chunk of the whole file holds them all
    have one := (other ids 1 le_rfl).1 (independent 1 le_rfl)
    rw [tally_repeatsPending_one] at one
    have whole := (other ids ((addresses deps job (dataRows job.layout records)).length + 1)
      (by omega)).1 (independent _ (by omega))
    rw [← one] at whole
    exact (tally_repeatsPending_of_length_lt (Nat.lt_succ_self _)).1 whole
  · intro nodup size some_
    rw [other ids size some_, tally_repeatsPending_of_nodup nodup,
      tally_repeatsPending_of_nodup nodup]

/-- Two rows of one address in one chunk: the second is counted nowhere. -/
theorem repeat_unaccounted :
    Api.Uploaded (Api.inspectCsv sampleDeps.toLowerCase sampleRecords) sampleJob.batch ∧
      (processRecords { sampleDeps with chunkSize := 500 } sampleJob sampleDb
        sampleRecords).failure = none ∧
      (processRecords { sampleDeps with chunkSize := 500 } sampleJob sampleDb
        sampleRecords).processed = 4 ∧
      countedRows (processRecords { sampleDeps with chunkSize := 500 } sampleJob sampleDb
        sampleRecords).stats = 3 ∧
      ¬ Accounted sampleBatch (processRecords { sampleDeps with chunkSize := 500 } sampleJob
        sampleDb sampleRecords) ∧
      ¬ ChunkIndependent { sampleDeps with chunkSize := 500 } sampleJob sampleDb
        sampleRecords := by
  refine ⟨⟨0, true, by decide +kernel, rfl⟩, by decide +kernel, by decide +kernel,
    by decide +kernel, by decide +kernel, ?_⟩
  intro independent
  have two := independent 2 (by decide)
  revert two
  decide +kernel

theorem accounted_iff_sample :
    (Accounted sampleBatch (processRecords sampleDeps sampleJob sampleDb sampleRecords) ↔
      SeparateRepeats 2 (addresses sampleDeps sampleJob (dataRows ⟨0, true⟩ sampleRecords))) ∧
    (ChunkIndependent sampleDeps sampleJob sampleDb sampleRecords ↔
      (addresses sampleDeps sampleJob (dataRows ⟨0, true⟩ sampleRecords)).Nodup) :=
  have both := accounted_iff sampleDeps sampleJob sampleDb sampleRecords (by decide)
    (by decide +kernel) ⟨0, true, by decide +kernel, rfl⟩ (by decide +kernel)
  ⟨both.2.1, both.2.2 ⟨by decide +kernel, fun _ _ _ inside => absurd inside List.not_mem_nil⟩⟩

end Tozalist.Worker
