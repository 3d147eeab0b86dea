/-
# Tozalist.Worker.BatchProcessor -- from the records of a file to result rows and a charge

The loop of `processBatch` in `apps/worker/src/batch/processor.ts`: records are read one
after another, a malformed one is written at once, the others are collected into chunks.
`resolveChunk` looks the new addresses of a chunk up in the cache, asks the engine for the
rest, stores one encoded result per address, inserts the fresh checks and writes the rows.

The map from addresses to encoded results is a function here; it is read by key only.
The engine may answer as it likes, so its answer may depend on every call before.  One
clock reading serves a run: what the cache holds is fixed but for the inserts of the run.
A failing insert leaves the loop, and the state stays as the `catch` branch finds it.
-/
import Mathlib.Logic.Function.Basic
import Tozalist.Core.NormalizeEmail
import Tozalist.Db.Batches
import Tozalist.Worker.RowResult

namespace Tozalist.Worker

set_option autoImplicit false

open Core (EngineResponse normalizeEmail)
open Db
open Theory (Txn)

/-! ## What a run is given -/

/-- One call of the engine; `none` is a call that threw. -/
structure EngineCall where
  email : JsString
  answer : Option EngineResponse
  deriving DecidableEq, Repr

/-- `EngineVerifier`: an answer to an address, after the calls so far. -/
abbrev EngineVerifier : Type := List EngineCall → JsString → Option EngineResponse

/-- `BatchProcessorDeps`, with the library functions the loop calls. -/
structure BatchProcessorDeps where
  engine : EngineVerifier
  chunkSize : ℕ
  sha256Hex : JsString → String
  toLowerCase : JsString → JsString
  /-- the ids `randomUUID` gives, in order -/
  randomUUID : ℕ → Uuid

/-- What `readLayout` finds. -/
structure Layout where
  emailColumn : ℕ
  hasHeader : Bool
  deriving DecidableEq, Repr

/-- `readLayout`. -/
def readLayout (stats : Option BatchStats) : Option Layout :=
  stats.map fun stats => ⟨stats.emailColumn, stats.hasHeader⟩

/-- A claimed batch with a readable layout, and the time of its run. -/
structure ClaimedBatch where
  batch : Batch
  retentionDays : Int
  layout : Layout
  layout_eq : readLayout batch.stats = some layout
  now : Date
  deriving DecidableEq

/-- A record of the parser: its cells. -/
abbrev Record : Type := List JsString

/-! ## State -/

/-- `PendingRow`. -/
structure PendingRow where
  cells : Record
  normalized : JsString
  hash : String
  deriving DecidableEq, Repr

/-- What `writeRow` is given. -/
structure WrittenRow where
  cells : Record
  normalized : JsString
  result : RowResult
  deriving DecidableEq, Repr

/-- The counters at the start. -/
def emptyStats (emailColumn : ℕ) (hasHeader : Bool) : BatchStats :=
  { emailColumn := emailColumn
    hasHeader := hasHeader
    malformedRows := 0
    charged := 0
    cached := 0
    duplicates := 0
    engineErrors := 0
    distribution := ⟨0, 0, 0, 0⟩ }

/-- `distribution[verdict] += 1`. -/
def bump (distribution : Distribution) : Core.Verdict → Distribution
  | .valid => { distribution with valid := distribution.valid + 1 }
  | .invalid => { distribution with invalid := distribution.invalid + 1 }
  | .risky => { distribution with risky := distribution.risky + 1 }
  | .unknown => { distribution with unknown := distribution.unknown + 1 }

/-- The state of a run. -/
structure Progress where
  /-- normalized address to encoded result -/
  seen : JsString → Option JsString
  stats : BatchStats
  processed : ℕ
  /-- the rows written, in order -/
  rows : List WrittenRow
  calls : List EngineCall
  /-- ids drawn so far -/
  drawn : ℕ
  db : Database
  failure : Option DbError

/-- `seen.set(row.normalized, encodeResult(result))`. -/
def Progress.store (p : Progress) (normalized : JsString) (result : RowResult) : Progress :=
  { p with seen := Function.update p.seen normalized (some (encodeResult result)) }

/-- `writeRow` and the counters that go with it. -/
def Progress.write (p : Progress) (row : WrittenRow) : Progress :=
  { p with
    rows := p.rows ++ [row]
    stats := { p.stats with distribution := bump p.stats.distribution row.result.verdict }
    processed := p.processed + 1 }

/-! ## A chunk -/

/-- `uniqueByHash`: the first row of each hash, in order. -/
def uniqueByHash (rows : List PendingRow) : List PendingRow :=
  rows.foldl (fun unique row =>
    if ∃ r ∈ unique, r.hash = row.hash then unique else unique ++ [row]) []

/-- What a fresh check inserts. -/
def freshInsert (deps : BatchProcessorDeps) (job : ClaimedBatch) (normalized : JsString)
    (hash : String) (response : EngineResponse) : BatchEmailCheck :=
  { check :=
      { orgId := job.batch.orgId
        emailNormalized := normalized
        emailHash := hash
        verdict := (aggregated deps.toLowerCase response).verdict
        reasonCodes := (aggregated deps.toLowerCase response).reasonCodes
        checksJson :=
          { engine := response
            score := (aggregated deps.toLowerCase response).score
            disclaimer := (aggregated deps.toLowerCase response).disclaimer
            typo := typoOf deps.toLowerCase response
            smtpStatus := .skipped
            operationalReason := none } }
    expiresAt := (job.now.addDays job.retentionDays).timestamp }

/-- The loop over `uniqueByHash`: the state, and `freshInserts`. -/
structure Resolution where
  progress : Progress
  freshInserts : List BatchEmailCheck

/-- One address of a chunk: from the cache, or from the engine. -/
def resolveRow (deps : BatchProcessorDeps) (job : ClaimedBatch)
    (cachedRows : String → Option EmailCheck) (r : Resolution) (row : PendingRow) : Resolution :=
  let p := r.progress
  match cachedRows row.hash with
  | some cached =>
      { r with progress := { p.store row.normalized (cachedResult cached) with
          stats := { p.stats with cached := p.stats.cached + 1 } } }
  | none =>
      let answer := deps.engine p.calls row.normalized
      let calls := p.calls ++ [⟨row.normalized, answer⟩]
      match answer with
      | none =>
          { r with progress := { p.store row.normalized unassessed with
              calls := calls
              stats := { p.stats with engineErrors := p.stats.engineErrors + 1 } } }
      | some response =>
          { progress := { p.store row.normalized (checkedResult deps.toLowerCase response) with
              calls := calls
              stats := { p.stats with charged := p.stats.charged + 1 } }
            freshInserts := r.freshInserts ++
              [freshInsert deps job row.normalized row.hash response] }

/-- The row of a resolved address is written. -/
def writePending (p : Progress) (row : PendingRow) : Progress :=
  match (p.seen row.normalized).bind decodeResult with
  | none => p
  | some result => p.write ⟨row.cells, row.normalized, result⟩

/-- The inserts with their ids, `drawn` ids having been drawn before. -/
def withIds (deps : BatchProcessorDeps) (drawn : ℕ) (inserts : List BatchEmailCheck) :
    List (BatchEmailCheck × Uuid) :=
  (inserts.zipIdx drawn).map fun insert => (insert.1, deps.randomUUID insert.2)

/-- The lookups, engine calls and stored results of a chunk. -/
def resolveUnique (deps : BatchProcessorDeps) (job : ClaimedBatch) (p : Progress)
    (rows : List PendingRow) : Resolution :=
  let unresolved := rows.filter fun row => (p.seen row.normalized).isNone
  let unique := uniqueByHash unresolved
  let cachedRows := p.db.findRecentEmailChecksByHashes job.batch.orgId (unique.map (·.hash)) job.now
  unique.foldl (resolveRow deps job cachedRows) ⟨p, []⟩

/-- `resolveChunk`. -/
def resolveChunk (deps : BatchProcessorDeps) (job : ClaimedBatch) (p : Progress)
    (rows : List PendingRow) : Progress :=
  let r := resolveUnique deps job p rows
  let inserts := withIds deps r.progress.drawn r.freshInserts
  match Txn.transaction (insertBatchEmailChecks inserts job.now.timestamp) r.progress.db with
  | (.ok _, db) =>
      rows.foldl writePending
        { r.progress with db := db, drawn := r.progress.drawn + r.freshInserts.length }
  | (.error failure, _) => { r.progress with failure := some failure }

/-! ## The loop over the records -/

/-- `normalizeEmail(record[layout.emailColumn] ?? '').normalized ?? ''`. -/
def address (deps : BatchProcessorDeps) (job : ClaimedBatch) (record : Record) : JsString :=
  (normalizeEmail deps.toLowerCase (record[job.layout.emailColumn]?.getD [])).normalized.getD []

/-- The row of a record for its chunk. -/
def pendingRow (deps : BatchProcessorDeps) (job : ClaimedBatch) (record : Record) : PendingRow :=
  { cells := record
    normalized := address deps job record
    hash := deps.sha256Hex (address deps job record) }

/-- A malformed row: recorded, counted, never charged. -/
def Progress.writeMalformed (p : Progress) (record : Record) : Progress :=
  let written := p.write ⟨record, [], malformed⟩
  { written with
    stats := { written.stats with malformedRows := written.stats.malformedRows + 1 } }

/-- A row whose address is in the map when it is read. -/
def Progress.countDuplicate (p : Progress) (normalized : JsString) : Progress :=
  if (p.seen normalized).isSome then
    { p with stats := { p.stats with duplicates := p.stats.duplicates + 1 } }
  else p

/-- The body of the loop, on the state and the chunk so far. -/
def readRecord (deps : BatchProcessorDeps) (job : ClaimedBatch)
    (s : Progress × List PendingRow) (record : Record) : Progress × List PendingRow :=
  if s.1.failure.isSome then s
  else if address deps job record = [] then (s.1.writeMalformed record, s.2)
  else
    let p := s.1.countDuplicate (address deps job record)
    let chunk := s.2 ++ [pendingRow deps job record]
    if deps.chunkSize ≤ chunk.length then (resolveChunk deps job p chunk, []) else (p, chunk)

/-- The records that are rows: all, but for a header. -/
def dataRows (layout : Layout) (records : List Record) : List Record :=
  if layout.hasHeader then records.tail else records

/-- The state before the first record. -/
def Progress.start (job : ClaimedBatch) (db : Database) : Progress :=
  { seen := fun _ => none
    stats := emptyStats job.layout.emailColumn job.layout.hasHeader
    processed := 0
    rows := []
    calls := []
    drawn := 0
    db := db
    failure := none }

/-- The loop, up to the last chunk. -/
def readRecords (deps : BatchProcessorDeps) (job : ClaimedBatch) (db : Database)
    (records : List Record) : Progress × List PendingRow :=
  (dataRows job.layout records).foldl (readRecord deps job) (Progress.start job db, [])

/-- The whole loop. -/
def processRecords (deps : BatchProcessorDeps) (job : ClaimedBatch) (db : Database)
    (records : List Record) : Progress :=
  let s := readRecords deps job db records
  if s.1.failure.isSome then s.1
  else if s.2 = [] then s.1
  else resolveChunk deps job s.1 s.2

/-! ## The result file -/

/-- `neutralizeFormula`. -/
def neutralizeFormula (cell : JsString) : JsString :=
  match cell with
  | [] => []
  | u :: rest =>
      if u ∈ Js.ofString "=+-@\t\r" then 0x27 :: u :: rest else u :: rest

/-- One cell of `toCsvLine`. -/
def csvCell (cell : JsString) : JsString :=
  let hardened := neutralizeFormula cell
  if ∃ u ∈ hardened, u ∈ Js.ofString "\",\n\r" then
    0x22 :: hardened.flatMap (fun u => if u = 0x22 then [0x22, 0x22] else [u]) ++ [0x22]
  else hardened

/-- `toCsvLine`. -/
def toCsvLine (cells : List JsString) : JsString :=
  Js.join (cells.map csvCell) 0x2C ++ [0x0A]

/-- The cells of a result line. -/
def WrittenRow.line (row : WrittenRow) : List JsString :=
  row.cells ++ [row.normalized, Js.ofString (verdictText row.result.verdict),
    Js.ofNat row.result.score, Js.join row.result.reasonCodes bar, row.result.suggestion]

/-- The cells of the header line, when the file has one. -/
def headerLine (layout : Layout) (records : List Record) : List (List JsString) :=
  if layout.hasHeader then
    (records.head?.map fun record => record ++
      ["normalized_email", "verdict", "score", "reason_codes", "suggestion"].map Js.ofString).toList
  else []

/-- The lines the run has written. -/
def resultLines (job : ClaimedBatch) (records : List Record) (p : Progress) : List JsString :=
  (headerLine job.layout records ++ p.rows.map WrittenRow.line).map toCsvLine

/-! ## How the job ends -/

/-- `batchResultKey`. -/
def batchResultKey (orgId batchId : Uuid) : String :=
  "org/" ++ orgId.text ++ "/batches/" ++ batchId.text ++ "/result.csv"

/-- What `completeBatch` is called with. -/
def completion (job : ClaimedBatch) (p : Progress) : CompleteBatchInput :=
  { batchId := job.batch.id
    orgId := job.batch.orgId
    resultObjectKey := batchResultKey job.batch.orgId job.batch.id
    processedRows := p.processed
    stats := p.stats
    chargedCredits := p.stats.charged
    reservedCredits := job.batch.totalRows
    retentionDays := job.retentionDays }

/-- What `failBatch` is called with. -/
def failing (batch : Batch) (error : String) : FailBatchInput :=
  { batchId := batch.id
    orgId := batch.orgId
    reservedCredits := batch.totalRows
    error := error }

/-- `processBatch` on a claimed batch, up to the call that settles it. -/
def processBatch (deps : BatchProcessorDeps) (batch : Batch) (retentionDays : Int) (now : Date)
    (db : Database) (records : List Record) : Except FailBatchInput CompleteBatchInput :=
  match read : readLayout batch.stats with
  | none => .error (failing batch "invalid_layout")
  | some layout =>
      let job : ClaimedBatch := ⟨batch, retentionDays, layout, read, now⟩
      let p := processRecords deps job db records
      match p.failure with
      | none => .ok (completion job p)
      | some _ => .error (failing batch "processing_failed")

end Tozalist.Worker
