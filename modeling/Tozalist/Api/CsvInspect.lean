/-
# Tozalist.Api.CsvInspect -- what an upload says about its file

`inspectCsv` of `apps/api/src/csv-inspect.ts`, on the records its parser yields: the email
column, whether there is a header, and how many rows the batch will be charged for.  The
worker parses the same bytes with the same options, so it reads the same records.

An accepted file has as many rows as `dataRows` leaves for the worker
(`inspectCsv_totalRows`).
-/
import Tozalist.Worker.BatchProcessor

namespace Tozalist.Api

set_option autoImplicit false

open Db (Batch)
open Worker (ClaimedBatch Layout Record dataRows emptyStats)

/-- `MAX_BATCH_ROWS`. -/
def maxBatchRows : ℕ := 100000

/-- `EMAIL_HEADER_NAMES`. -/
def emailHeaderNames : List JsString :=
  ["email", "e-mail", "mail", "email_address", "pochta", "elektron pochta"].map Js.ofString

/-- `DETECTION_SAMPLE_ROWS`. -/
def detectionSampleRows : ℕ := 50

/-- Why a file is not accepted. -/
inductive RejectReason where
  | empty
  | noEmailColumn
  | tooManyRows
  deriving DecidableEq, Repr

/-- `CsvInspection`. -/
inductive CsvInspection where
  | ok (emailColumn : ℕ) (hasHeader : Bool) (totalRows : ℕ)
  | rejected (reason : RejectReason)
  deriving DecidableEq, Repr

/-- The cell names the email column. -/
def isEmailHeader (toLowerCase : JsString → JsString) (cell : JsString) : Bool :=
  emailHeaderNames.contains (toLowerCase (Js.trim cell))

/-- How many records of the sample have an `@` in a column. -/
def atCount (sample : List Record) (column : ℕ) : ℕ :=
  sample.countP fun record => 0x40 ∈ record[column]?.getD []

/-- The search for the best column: `none` is `-1`; strictly more keeps the first. -/
def betterColumn (sample : List Record) (best : Option ℕ × ℕ) (column : ℕ) : Option ℕ × ℕ :=
  if best.2 < atCount sample column then (some column, atCount sample column) else best

/-- The column with the most `@`-containing cells. -/
def bestColumn (sample : List Record) : Option ℕ :=
  let columns := (sample.map List.length).foldl max 0
  ((List.range columns).foldl (betterColumn sample) (none, 0)).1

/-- `inspectCsv`, on the parsed records. -/
def inspectCsv (toLowerCase : JsString → JsString) (records : List Record) : CsvInspection :=
  match records with
  | [] => .rejected .empty
  | first :: rest =>
      match first.findIdx? (isEmailHeader toLowerCase) with
      | some headerIndex =>
          if rest.length = 0 then .rejected .empty
          else if maxBatchRows < rest.length then .rejected .tooManyRows
          else .ok headerIndex true rest.length
      | none =>
          match bestColumn ((first :: rest).take detectionSampleRows) with
          | none => .rejected .noEmailColumn
          | some column =>
              if maxBatchRows < rest.length + 1 then .rejected .tooManyRows
              else .ok column false (rest.length + 1)

/-- **An accepted file** has at least one row, not too many, and the rows the worker will
read. -/
theorem inspectCsv_totalRows {toLowerCase : JsString → JsString} {records : List Record}
    {emailColumn totalRows : ℕ} {hasHeader : Bool}
    (accepted : inspectCsv toLowerCase records = .ok emailColumn hasHeader totalRows) :
    totalRows = (dataRows ⟨emailColumn, hasHeader⟩ records).length ∧
      1 ≤ totalRows ∧ totalRows ≤ maxBatchRows := by
  unfold inspectCsv at accepted
  split at accepted
  · cases accepted
  · rename_i first rest
    split at accepted
    · split at accepted <;> [cases accepted; skip]
      split at accepted <;> [cases accepted; skip]
      rename_i some_ few
      obtain ⟨rfl, rfl, rfl⟩ := accepted
      exact ⟨rfl, by omega, by omega⟩
    · split at accepted <;> [cases accepted; skip]
      split at accepted <;> [cases accepted; skip]
      rename_i few
      obtain ⟨rfl, rfl, rfl⟩ := accepted
      exact ⟨rfl, by omega, by omega⟩

/-- The batch was created for an accepted file: `POST /v1/batches` reserves a credit for every
row counted, and stores the layout with empty counters. -/
def Uploaded (inspection : CsvInspection) (batch : Batch) : Prop :=
  ∃ emailColumn hasHeader, inspection = .ok emailColumn hasHeader batch.totalRows ∧
    batch.stats = some (emptyStats emailColumn hasHeader)

/-- The worker reads as many rows as the batch was charged for. -/
theorem Uploaded.totalRows {toLowerCase : JsString → JsString} {records : List Record}
    {job : ClaimedBatch} (uploaded : Uploaded (inspectCsv toLowerCase records) job.batch) :
    job.batch.totalRows = (dataRows job.layout records).length := by
  obtain ⟨emailColumn, hasHeader, accepted, stats⟩ := uploaded
  have layout : job.layout = ⟨emailColumn, hasHeader⟩ := by
    have read := job.layout_eq
    rw [stats] at read
    exact (Option.some.inj read).symm
  rw [layout]
  exact (inspectCsv_totalRows accepted).1

end Tozalist.Api
