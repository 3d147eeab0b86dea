/-
# Tozalist.Api.ExportArchive -- the archive of an organisation's data

`buildOrgDataExport` of `apps/api/src/internal/data-export.ts`: five tables, each written
to its file of the ZIP a page at a time, until a page has no id to go on from.  An
instant outside the range of `Date` makes `toISOString` throw and ends the export.

`export_complete`: the lines behind each header are those of the organisation's rows of
that table, one each, and the loop ends; a reader of CSV finds the header and the cells of these
rows in the file.
-/
import Tozalist.Api.DataExport
import Tozalist.Db.Export
import Tozalist.Js.Json

namespace Tozalist.Api

set_option autoImplicit false

open Db
open Theory.Keyset

/-! ## Cells -/

/-- `iso`. -/
def iso : Option Timestamp → Except ReadError ExportCell
  | none => .ok .null
  | some t =>
      match Js.toISOString (Timestamp.date t) with
      | none => .error .rangeError
      | some text => .ok (.text (Js.ofString text))

/-- A `text` column that may be null. -/
def textOrNull : Option JsString → ExportCell
  | none => .null
  | some text => .text text

def creditReasonText : CreditReason → String
  | .grant => "grant"
  | .singleCheck => "single_check"
  | .batchCheck => "batch_check"
  | .refund => "refund"
  | .adjustment => "adjustment"

def batchStatusText : BatchStatus → String
  | .pending => "pending"
  | .validating => "validating"
  | .processing => "processing"
  | .done => "done"
  | .failed => "failed"

/-- `reasonCodes.join('|')`. -/
def joinReasonCodes (codes : List Core.ReasonCode) : JsString :=
  Js.join (codes.map fun code => Js.ofString code.text) 0x7C

/-- `JSON.stringify` of an event's metadata. -/
def stringifyMetadata (metadata : List (String × Metadata)) : JsString :=
  let value : Metadata := .object (metadata.map fun (key, value) => (Js.ofString key, value))
  Js.ofString (String.ofList (Theory.Json.text (fun n => (toString n).toList) Js.quote value))

/-! ## The tables -/

/-- `CsvSpec`. -/
structure CsvSpec (ρ : Type) where
  filename : String
  header : List String
  pager : Option Uuid → List ρ × Option Uuid
  row : ρ → Except ReadError (List ExportCell)

def emailChecksSpec (db : Database) (orgId : Uuid) : CsvSpec EmailCheck where
  filename := "email_checks.csv"
  header := ["id", "email", "verdict", "reason_codes", "cached", "credits_used", "created_at",
    "expires_at"]
  pager := pageEmailChecksForExport db orgId
  row check := do
    return [.text (Js.ofString check.id.text), .text check.emailNormalized,
      .text (Js.ofString (Worker.verdictText check.verdict)),
      .text (joinReasonCodes check.reasonCodes), .flag check.cached, .number check.creditsUsed,
      ← iso (some check.createdAt), ← iso (some check.expiresAt)]

def phoneChecksSpec (db : Database) (orgId : Uuid) : CsvSpec PhoneCheck where
  filename := "phone_checks.csv"
  header := ["id", "phone_e164", "valid", "country", "line_type_guess", "reason_codes",
    "credits_used", "created_at", "expires_at"]
  pager := pagePhoneChecksForExport db orgId
  row check := do
    return [.text (Js.ofString check.id.text), textOrNull (check.e164.map Js.ofString),
      .flag check.valid, textOrNull (check.country.map Js.ofString),
      textOrNull (check.lineTypeGuess.map Js.ofString),
      .text (joinReasonCodes check.reasonCodes), .number check.creditsUsed,
      ← iso (some check.createdAt), ← iso (some check.expiresAt)]

def batchesSpec (db : Database) (orgId : Uuid) : CsvSpec Batch where
  filename := "batches.csv"
  header := ["id", "filename", "status", "total_rows", "processed_rows", "error", "created_at",
    "completed_at", "expires_at"]
  pager := pageBatchesForExport db orgId
  row batch := do
    return [.text (Js.ofString batch.id.text), .text (Js.ofString batch.filename),
      .text (Js.ofString (batchStatusText batch.status)), .number batch.totalRows,
      .number batch.processedRows, textOrNull (batch.error.map Js.ofString),
      ← iso (some batch.createdAt), ← iso batch.completedAt, ← iso (some batch.expiresAt)]

def creditLedgerSpec (db : Database) (orgId : Uuid) : CsvSpec CreditLedgerEntry where
  filename := "credit_ledger.csv"
  header := ["id", "delta", "reason", "reference_id", "note", "created_at"]
  pager := pageLedgerForExport db orgId
  row entry := do
    return [.text (Js.ofString entry.id.text), .number entry.delta,
      .text (Js.ofString (creditReasonText entry.reason)),
      textOrNull (entry.referenceId.map Js.ofString), textOrNull entry.note,
      ← iso (some entry.createdAt)]

def auditEventsSpec (db : Database) (orgId : Uuid) : CsvSpec AuditEvent where
  filename := "audit_events.csv"
  header := ["id", "action", "target_type", "target_id", "metadata", "created_at"]
  pager := pageAuditEventsForExport db orgId
  row event := do
    return [.text (Js.ofString event.id.text), .text (Js.ofString event.action),
      .text (Js.ofString event.targetType), .text (Js.ofString event.targetId),
      .text (stringifyMetadata event.metadata), ← iso (some event.createdAt)]

/-! ## Writing a table -/

section Writing

variable {ρ : Type}

/-- `toCsvLine(spec.header)`. -/
def CsvSpec.headerLine (spec : CsvSpec ρ) : JsString :=
  toCsvLine (spec.header.map fun name => .text (Js.ofString name))

/-- `toCsvLine(spec.row(item))`. -/
def CsvSpec.line (spec : CsvSpec ρ) (item : ρ) : Except ReadError JsString := do
  return toCsvLine (← spec.row item)

/-- The loop over the pages, from an id; `none` is a loop that has not ended. -/
def CsvSpec.pages (spec : CsvSpec ρ) : ℕ → Option Uuid → Option (Except ReadError (List JsString))
  | 0, _ => none
  | fuel + 1, afterId =>
      match (spec.pager afterId).1.mapM spec.line with
      | .error e => some (.error e)
      | .ok lines =>
          match (spec.pager afterId).2 with
          | none => some (.ok lines)
          | some next => (spec.pages fuel (some next)).map (·.map (lines ++ ·))

/-- One file of the archive: its name and the lines written to it. -/
def CsvSpec.entry (spec : CsvSpec ρ) (fuel : ℕ) :
    Option (Except ReadError (String × List JsString)) :=
  (spec.pages fuel none).map (·.map fun lines => (spec.filename, spec.headerLine :: lines))

end Writing

/-! ## The archive -/

/-- `EXPORT_LINK_TTL_SECONDS`. -/
def exportLinkTtlSeconds : ℕ := 24 * 60 * 60

/-- `exportObjectKey`. -/
def exportObjectKey (orgId : Uuid) (createdAtMs : Date) (id : Uuid) : String :=
  "org/" ++ orgId.text ++ "/exports/" ++ toString createdAtMs ++ "-" ++ id.text ++ ".zip"

/-- `ExportResult`. -/
structure ExportResult where
  exportId : Uuid
  url : String
  expiresAt : Date

/-- What is uploaded: the object's key, and the files of the ZIP with their lines. -/
structure Archive where
  key : String
  entries : List (String × List JsString)

/-- One file after the other. -/
def writeEntries {α : Type} : List (Option (Except ReadError α)) →
    Option (Except ReadError (List α))
  | [] => some (.ok [])
  | none :: _ => none
  | some (.error e) :: _ => some (.error e)
  | some (.ok entry) :: rest => (writeEntries rest).map (·.map (entry :: ·))

/-- The files of `categories`. -/
def exportEntries (db : Database) (orgId : Uuid) (fuel : ℕ) :
    Option (Except ReadError (List (String × List JsString))) :=
  writeEntries [(emailChecksSpec db orgId).entry fuel, (phoneChecksSpec db orgId).entry fuel,
    (batchesSpec db orgId).entry fuel, (creditLedgerSpec db orgId).entry fuel,
    (auditEventsSpec db orgId).entry fuel]

/-- `buildOrgDataExport`; `exportId` is its `randomUUID()`, and `fuel` bounds the pages of a
table. -/
def buildOrgDataExport (db : Database) (presignDownload : String → ℕ → String) (orgId : Uuid)
    (exportId : Uuid) (now : Date) (fuel : ℕ) :
    Option (Except ReadError (ExportResult × Archive)) :=
  let key := exportObjectKey orgId now exportId
  (exportEntries db orgId fuel).map (·.map fun entries =>
    ({ exportId, url := presignDownload key exportLinkTtlSeconds,
       expiresAt := now + exportLinkTtlSeconds * 1000 }, { key, entries }))

/-! ## Complete and isolated -/

section Complete

variable {ρ : Type}

/-- The file holds the rows `listed`: behind the header there is a line for each of them, of its
cells, the first of which is its id; and it is read back as the header and the texts of the
cells. -/
structure CsvSpec.Holds (spec : CsvSpec ρ) (id : ρ → Uuid) (listed : List ρ)
    (cells : List (List ExportCell)) (entry : String × List JsString) : Prop where
  filename : entry.1 = spec.filename
  rows : listed.mapM spec.row = .ok cells
  ids : cells.map List.head? = listed.map fun r => some (.text (Js.ofString (id r).text))
  lines : entry.2 = spec.headerLine :: cells.map toCsvLine
  parses : Worker.rfc4180.parse entry.2.flatten =
    some (spec.header.map Js.ofString :: cells.map fun cells => cells.map ExportCell.render)

/-- The file holds `rows`, each of them once. -/
def CsvSpec.Exported (spec : CsvSpec ρ) (id : ρ → Uuid) (rows : List ρ)
    (entry : String × List JsString) : Prop :=
  ∃ listed cells, listed.Perm rows ∧ spec.Holds id listed cells entry

/-- The cells of a row, which begin with its id. -/
def CsvSpec.Cells (spec : CsvSpec ρ) (id : ρ → Uuid) (r : ρ) (cells : List ExportCell) : Prop :=
  spec.row r = .ok cells ∧ cells.head? = some (.text (Js.ofString (id r).text))

/-- The header stands in its file as it is. -/
structure CsvSpec.Plain (spec : CsvSpec ρ) : Prop where
  named : spec.header ≠ []
  plain : ∀ name ∈ spec.header, neutralizeFormula (Js.ofString name) = Js.ofString name

/-- Where every row has cells, the list has them all. -/
theorem mapM_of_forall {α β : Type} {f : α → Except ReadError β} {g : α → β} {rows : List α}
    (each : ∀ r ∈ rows, f r = .ok (g r)) : rows.mapM f = .ok (rows.map g) := by
  induction rows with
  | nil => rfl
  | cons r rows ih =>
      obtain ⟨first, rest⟩ := List.forall_mem_cons.1 each
      rw [List.mapM_cons, first, ih rest]
      rfl

theorem CsvSpec.line_of_row {spec : CsvSpec ρ} {r : ρ} {cells : List ExportCell}
    (row : spec.row r = .ok cells) : spec.line r = .ok (toCsvLine cells) := by
  rw [CsvSpec.line, row]
  rfl

/-- The pages' lines are the lines of what the pages hold. -/
theorem CsvSpec.pages_eq {spec : CsvSpec ρ} {text : ρ → JsString} {fuel : ℕ}
    {afterId : Option Uuid} {rows : List ρ}
    (read : follow (fun after => some (spec.pager after)) fuel afterId = some rows)
    (lined : ∀ r ∈ rows, spec.line r = .ok (text r)) :
    spec.pages fuel afterId = some (.ok (rows.map text)) := by
  induction fuel generalizing afterId rows with
  | zero => cases read
  | succ fuel ih =>
      rw [follow] at read
      rw [CsvSpec.pages]
      rcases answer : spec.pager afterId with ⟨page, _ | next⟩
      · simp only [answer, Option.some.injEq] at read
        simp only [read, mapM_of_forall lined]
      · simp only [answer] at read
        obtain ⟨rest, later, rfl⟩ := Option.map_eq_some_iff.1 read
        obtain ⟨here, there⟩ := List.forall_mem_append.1 lined
        simp only [mapM_of_forall here, ih later there, Option.map_some, List.map_append]
        rfl

/-- **A file of rows with cells** holds them. -/
theorem CsvSpec.holds_of_cells {spec : CsvSpec ρ} {id : ρ → Uuid} (plain : spec.Plain)
    {listed : List ρ} {cells : ρ → List ExportCell}
    (each : ∀ r ∈ listed, spec.Cells id r (cells r)) :
    spec.Holds id listed (listed.map cells)
      (spec.filename, spec.headerLine :: listed.map fun r => toCsvLine (cells r)) where
  filename := rfl
  rows := mapM_of_forall fun r member => (each r member).1
  ids := by
    rw [List.map_map]
    exact List.map_congr_left fun r member => (each r member).2
  lines := by
    rw [List.map_map]
    rfl
  parses := by
    have some_ : ∀ row ∈ listed.map cells, row ≠ [] := by
      intro row member empty
      obtain ⟨r, inside, rfl⟩ := List.mem_map.1 member
      have first := (each r inside).2
      rw [empty] at first
      cases first
    have file : (spec.headerLine :: listed.map fun r => toCsvLine (cells r)).flatten =
        exportFile spec.header (listed.map cells) := by
      rw [exportFile, List.flatten_cons, List.flatMap_map]
      rfl
    have header : (spec.header.map fun name => neutralizeFormula (Js.ofString name)) =
        spec.header.map Js.ofString := List.map_congr_left plain.plain
    rw [file, parse_exportFile plain.named some_, header]

/-- **A table is written completely**: when its pager reads the selected rows by id and each
of them has cells. -/
theorem CsvSpec.entry_exported {spec : CsvSpec ρ} {id : ρ → Uuid} {rows : List ρ} {p : ρ → Bool}
    (plain : spec.Plain) (unique : (rows.map id).Nodup)
    (pager : spec.pager = exportPage id (queryAfter id (rows.filter p)))
    (each : ∀ r ∈ rows.filter p, ∃ cells, spec.Cells id r cells) {fuel : ℕ}
    (enough : rows.length < fuel) :
    ∃ entry, spec.entry fuel = some (.ok entry) ∧ spec.Exported id (rows.filter p) entry := by
  have selected_ : ((rows.filter p).map id).Nodup :=
    unique.sublist (List.filter_sublist.map id)
  have pages : (rows.filter p).length + 1 ≤ fuel := by
    have fewer := List.length_filter_le p rows
    omega
  have read := follow_mono (follow_page_eq selected_) pages
  rw [← pager] at read
  have sorted := List.mergeSort_perm (rows.filter p) (byId id)
  -- the cells of every row that is listed
  let cells : ρ → List ExportCell := fun r =>
    match spec.row r with
    | .ok cells => cells
    | .error _ => []
  have listed : ∀ r ∈ (rows.filter p).mergeSort (byId id), spec.Cells id r (cells r) := by
    intro r member
    obtain ⟨its, row, first⟩ := each r (sorted.mem_iff.1 member)
    have same : cells r = its := by
      show (match spec.row r with | .ok cells => cells | .error _ => []) = its
      rw [row]
    rw [same]
    exact ⟨row, first⟩
  have lines := CsvSpec.pages_eq read fun r member => spec.line_of_row (listed r member).1
  refine ⟨_, ?_, _, _, sorted, CsvSpec.holds_of_cells plain listed⟩
  rw [CsvSpec.entry, lines]
  rfl

/-- An instant that a `Date` can hold has a text. -/
theorem iso_ok {t : Option Timestamp} (clip : ∀ at_ ∈ t, Js.TimeClip (Timestamp.date at_)) :
    ∃ cell, iso t = .ok cell := by
  cases t with
  | none => exact ⟨.null, rfl⟩
  | some t =>
      obtain ⟨text, written⟩ := Js.toISOString_isSome (clip t rfl)
      exact ⟨.text (Js.ofString text), by rw [iso, written]⟩

end Complete

/-- Enough pages for every table. -/
def exportFuel (db : Database) : ℕ :=
  db.emailChecks.length + db.phoneChecks.length + db.batches.length + db.creditLedger.length +
    db.auditEvents.length + 1

section Rows

variable (db : Tables) (orgId : Uuid)

/-- A row needs the texts of its instants only. -/
theorem emailCheck_cells : ∀ c ∈ db.emailChecks.filter (fun c => c.orgId = orgId),
    ∃ cells, (emailChecksSpec db.toDatabase orgId).Cells (·.id) c cells := by
  intro c member
  have dates := db.emailCheckDates c (List.mem_filter.1 member).1
  obtain ⟨created, isCreated⟩ := iso_ok (t := some c.createdAt) (by simpa using dates.1)
  obtain ⟨expires, isExpires⟩ := iso_ok (t := some c.expiresAt) (by simpa using dates.2)
  unfold CsvSpec.Cells emailChecksSpec
  simp only [isCreated, isExpires]
  exact ⟨_, rfl, rfl⟩

theorem phoneCheck_cells : ∀ c ∈ db.phoneChecks.filter (fun c => c.orgId = orgId),
    ∃ cells, (phoneChecksSpec db.toDatabase orgId).Cells (·.id) c cells := by
  intro c member
  have dates := db.phoneCheckDates c (List.mem_filter.1 member).1
  obtain ⟨created, isCreated⟩ := iso_ok (t := some c.createdAt) (by simpa using dates.1)
  obtain ⟨expires, isExpires⟩ := iso_ok (t := some c.expiresAt) (by simpa using dates.2)
  unfold CsvSpec.Cells phoneChecksSpec
  simp only [isCreated, isExpires]
  exact ⟨_, rfl, rfl⟩

theorem batch_cells : ∀ b ∈ db.batches.filter (fun b => b.orgId = orgId),
    ∃ cells, (batchesSpec db.toDatabase orgId).Cells (·.id) b cells := by
  intro b member
  obtain ⟨made, done, kept⟩ := db.batchDates b (List.mem_filter.1 member).1
  obtain ⟨created, isCreated⟩ := iso_ok (t := some b.createdAt) (by simpa using made)
  obtain ⟨completed, isCompleted⟩ := iso_ok done
  obtain ⟨expires, isExpires⟩ := iso_ok (t := some b.expiresAt) (by simpa using kept)
  unfold CsvSpec.Cells batchesSpec
  simp only [isCreated, isCompleted, isExpires]
  exact ⟨_, rfl, rfl⟩

theorem ledger_cells : ∀ e ∈ db.creditLedger.filter (fun e => e.orgId = orgId),
    ∃ cells, (creditLedgerSpec db.toDatabase orgId).Cells (·.id) e cells := by
  intro e member
  have date := db.ledgerDates e (List.mem_filter.1 member).1
  obtain ⟨created, isCreated⟩ := iso_ok (t := some e.createdAt) (by simpa using date)
  unfold CsvSpec.Cells creditLedgerSpec
  simp only [isCreated]
  exact ⟨_, rfl, rfl⟩

theorem auditEvent_cells : ∀ e ∈ db.auditEvents.filter (fun e => e.orgId = some orgId),
    ∃ cells, (auditEventsSpec db.toDatabase orgId).Cells (·.id) e cells := by
  intro e member
  have date := db.auditEventDates e (List.mem_filter.1 member).1
  obtain ⟨created, isCreated⟩ := iso_ok (t := some e.createdAt) (by simpa using date)
  unfold CsvSpec.Cells auditEventsSpec
  simp only [isCreated]
  exact ⟨_, rfl, rfl⟩

/-- No header is taken for a formula. -/
theorem headers_plain :
    (emailChecksSpec db.toDatabase orgId).Plain ∧ (phoneChecksSpec db.toDatabase orgId).Plain ∧
      (batchesSpec db.toDatabase orgId).Plain ∧ (creditLedgerSpec db.toDatabase orgId).Plain ∧
      (auditEventsSpec db.toDatabase orgId).Plain := by
  refine ⟨⟨List.cons_ne_nil _ _, ?_⟩, ⟨List.cons_ne_nil _ _, ?_⟩, ⟨List.cons_ne_nil _ _, ?_⟩,
    ⟨List.cons_ne_nil _ _, ?_⟩, ⟨List.cons_ne_nil _ _, ?_⟩⟩
  all_goals
    simp only [emailChecksSpec, phoneChecksSpec, batchesSpec, creditLedgerSpec, auditEventsSpec]
    decide

end Rows

/-- **The export is complete and isolated**: it ends, and each of its five files holds the
organisation's rows of that table, each once, and no other. -/
theorem export_complete (db : Tables) (presignDownload : String → ℕ → String)
    (orgId exportId : Uuid) (now : Date) :
    ∃ fuel result archive,
      buildOrgDataExport db.toDatabase presignDownload orgId exportId now fuel =
        some (.ok (result, archive)) ∧
      ∃ emails phones batches ledger events,
        archive.entries = [emails, phones, batches, ledger, events] ∧
        (emailChecksSpec db.toDatabase orgId).Exported (·.id)
          (db.emailChecks.filter fun c => c.orgId = orgId) emails ∧
        (phoneChecksSpec db.toDatabase orgId).Exported (·.id)
          (db.phoneChecks.filter fun c => c.orgId = orgId) phones ∧
        (batchesSpec db.toDatabase orgId).Exported (·.id)
          (db.batches.filter fun b => b.orgId = orgId) batches ∧
        (creditLedgerSpec db.toDatabase orgId).Exported (·.id)
          (db.creditLedger.filter fun e => e.orgId = orgId) ledger ∧
        (auditEventsSpec db.toDatabase orgId).Exported (·.id)
          (db.auditEvents.filter fun e => e.orgId = some orgId) events := by
  have rows : exportFuel db.toDatabase = db.emailChecks.length + db.phoneChecks.length +
      db.batches.length + db.creditLedger.length + db.auditEvents.length + 1 := rfl
  generalize exportFuel db.toDatabase = fuel at rows
  obtain ⟨plain₁, plain₂, plain₃, plain₄, plain₅⟩ := headers_plain db orgId
  obtain ⟨emails, wrote₁, is₁⟩ := CsvSpec.entry_exported plain₁ db.emailCheckIds rfl
    (emailCheck_cells db orgId) (show _ < fuel by omega)
  obtain ⟨phones, wrote₂, is₂⟩ := CsvSpec.entry_exported plain₂ db.phoneCheckIds rfl
    (phoneCheck_cells db orgId) (show _ < fuel by omega)
  obtain ⟨batches, wrote₃, is₃⟩ := CsvSpec.entry_exported plain₃ db.batchIds rfl
    (batch_cells db orgId) (show _ < fuel by omega)
  obtain ⟨ledger, wrote₄, is₄⟩ := CsvSpec.entry_exported plain₄ db.ledgerIds rfl
    (ledger_cells db orgId) (show _ < fuel by omega)
  obtain ⟨events, wrote₅, is₅⟩ := CsvSpec.entry_exported plain₅ db.auditEventIds rfl
    (auditEvent_cells db orgId) (show _ < fuel by omega)
  refine ⟨fuel, ⟨exportId, presignDownload (exportObjectKey orgId now exportId)
    exportLinkTtlSeconds, now + exportLinkTtlSeconds * 1000⟩, ⟨exportObjectKey orgId now exportId,
    [emails, phones, batches, ledger, events]⟩, ?_, emails, phones, batches, ledger, events, rfl,
    is₁, is₂, is₃, is₄, is₅⟩
  unfold buildOrgDataExport exportEntries
  rw [wrote₁, wrote₂, wrote₃, wrote₄, wrote₅]
  rfl

/-! ### A login -/

/-- The event of an organisation's login, with a flag and a list in its metadata. -/
def loginRow (digit org : ℕ) : AuditEvent :=
  { id := .numbered digit, orgId := some (.numbered org), actorUserId := some (.numbered 3),
    actorApiKeyId := none, action := "user.login", targetType := "user",
    targetId := (Uuid.numbered 3).text,
    metadata := [("mfa_pending", .bool true), ("fields", .array [Metadata.text "name"])],
    createdAt := 0, expiresAt := 1000 }

theorem loginRows_ids : ([loginRow 5 2, loginRow 4 1, loginRow 6 2].map (·.id)).Nodup := by
  simp only [List.map_cons, List.map_nil, loginRow]
  decide

theorem loginRows_dates : ∀ e ∈ [loginRow 5 2, loginRow 4 1, loginRow 6 2],
    Js.TimeClip (Timestamp.date e.createdAt) := by
  decide

/-- An event between two of another organisation. -/
def loginTables : Tables where
  organizations := []
  creditLedger := []
  emailChecks := []
  phoneChecks := []
  batches := []
  auditEvents := [loginRow 5 2, loginRow 4 1, loginRow 6 2]
  ledgerIds := List.nodup_nil
  emailCheckIds := List.nodup_nil
  phoneCheckIds := List.nodup_nil
  batchIds := List.nodup_nil
  auditEventIds := loginRows_ids
  ledgerDates := noLedger_dates
  emailCheckDates := noEmailCheck_dates
  phoneCheckDates := noPhoneCheck_dates
  batchDates := noBatch_dates
  auditEventDates := loginRows_dates

/-- The cells of the event. -/
def loginCells : List String :=
  ["00000000-0000-4000-8000-000000000004", "user.login", "user",
    "00000000-0000-4000-8000-000000000003", "\x7b\"mfa_pending\":true,\"fields\":[\"name\"]\x7d",
    "1970-01-01T00:00:00.000Z"]

/-- The file of the audit events is read back as its header and the organisation's own event. -/
theorem export_complete_login :
    ∃ fuel result archive, buildOrgDataExport loginTables.toDatabase (fun key _ => key)
        (.numbered 1) (.numbered 9) 0 fuel = some (.ok (result, archive)) ∧
      ∃ file ∈ archive.entries, file.1 = "audit_events.csv" ∧
        Worker.rfc4180.parse file.2.flatten = some
          [["id", "action", "target_type", "target_id", "metadata", "created_at"].map Js.ofString,
            loginCells.map Js.ofString] := by
  obtain ⟨fuel, result, archive, built, emails, phones, batches, ledger, events, entries, -, -, -,
    -, listed, cells, all, holds⟩ :=
    export_complete loginTables (fun key _ => key) (.numbered 1) (.numbered 9) 0
  have only : loginTables.auditEvents.filter (fun e => e.orgId = some (.numbered 1)) =
      [loginRow 4 1] := by
    decide
  rw [only] at all
  obtain rfl := List.perm_singleton.1 all
  have row : [loginRow 4 1].mapM (auditEventsSpec loginTables.toDatabase (.numbered 1)).row =
      .ok [loginCells.map fun text => .text (Js.ofString text)] := by
    decide
  obtain rfl := Except.ok.inj (holds.rows.symm.trans row)
  refine ⟨fuel, result, archive, built, events, by simp [entries], holds.filename, ?_⟩
  rw [holds.parses]
  decide

end Tozalist.Api
