/-
# Tozalist.Db.Pages -- lists read with a cursor

`encodeCursor` and `decodeCursor` of `packages/db/src/checks.ts` and `batches.ts`, and the two
lists that are read with them: the ledger page of `getUsageSummary` and
`listBatchesForOrg`.  Both order by `(created_at, id)`, newest first, and both make the
next cursor from the last row of a page.

A cursor holds a `Date`, and a `Date` has no microseconds (`Timestamp.date`).  A caller may
send any text as a cursor: Node and PostgreSQL read more spellings than `encodeCursor`
writes, so what they read is a `CursorReader`, known on the written ones.

* `decodeCursor_encodeCursor` is the round trip of a cursor;
* `pages_partition_iff` is what following the cursors reads: every row, exactly when
  behind every full page the next row is older than the cut-off instant of the last one
  (`Separated`).
-/
import Tozalist.Db.Ledger
import Tozalist.Js.Base64
import Tozalist.Js.Date
import Tozalist.Theory.Keyset

namespace Tozalist.Db

set_option autoImplicit false

open Theory.Keyset
open Theory.Calendar (dateOf dayOf)

/-! ## What holds of every row -/

/-- A `timestamptz` as a `Date`: what is below a millisecond is cut off. -/
def Timestamp.date (t : Timestamp) : Date := t / 1000

/-- The tables with what holds of the rows in them.  Primary keys are unique; `created_at` is
a clock's, and the other instants are written from a `Date`, so a `Date` can hold them all. -/
structure Tables extends Database where
  ledgerIds : (creditLedger.map (·.id)).Nodup
  emailCheckIds : (emailChecks.map (·.id)).Nodup
  phoneCheckIds : (phoneChecks.map (·.id)).Nodup
  batchIds : (batches.map (·.id)).Nodup
  auditEventIds : (auditEvents.map (·.id)).Nodup
  ledgerDates : ∀ e ∈ creditLedger, Js.TimeClip (Timestamp.date e.createdAt)
  emailCheckDates : ∀ c ∈ emailChecks,
    Js.TimeClip (Timestamp.date c.createdAt) ∧ Js.TimeClip (Timestamp.date c.expiresAt)
  phoneCheckDates : ∀ c ∈ phoneChecks,
    Js.TimeClip (Timestamp.date c.createdAt) ∧ Js.TimeClip (Timestamp.date c.expiresAt)
  batchDates : ∀ b ∈ batches, Js.TimeClip (Timestamp.date b.createdAt) ∧
    (∀ t ∈ b.completedAt, Js.TimeClip (Timestamp.date t)) ∧
    Js.TimeClip (Timestamp.date b.expiresAt)
  auditEventDates : ∀ e ∈ auditEvents, Js.TimeClip (Timestamp.date e.createdAt)

/-- How a read fails. -/
inductive ReadError where
  /-- A text that is no `uuid`. -/
  | invalidUuid
  /-- A `Date` that is no `timestamptz`. -/
  | invalidTimestamp
  /-- An `::int` cast. -/
  | integerOutOfRange
  /-- `toISOString` of an invalid `Date`. -/
  | rangeError
  deriving DecidableEq, Repr

/-! ## Cursors -/

/-- `encodeCursor`. -/
def encodeCursor (createdAt : Date) (id : Uuid) : Except ReadError String :=
  match Js.toISOString createdAt with
  | none => .error .rangeError
  | some iso => .ok (Js.base64url (Js.utf8 (iso ++ "|" ++ id.text)))

/-- An instant of the years 1 to 9999. -/
def FourDigitYear (t : Date) : Prop := -62135596800000 ≤ t ∧ t < 253402300800000

/-- What Node and PostgreSQL read in the parts of a cursor.  Of a text that no `encodeCursor`
wrote they may read anything: Node skips what is not base64url and puts `U+FFFD` for what
is not UTF-8, `new Date` knows many spellings, and a `uuid` may have capitals and braces. -/
structure CursorReader where
  /-- `Buffer.from(cursor, 'base64url').toString('utf8')` -/
  bufferText : String → String
  bufferText_base64url : ∀ text, bufferText (Js.base64url (Js.utf8 text)) = text
  /-- `new Date(iso)`; `none` when its time is `NaN` -/
  newDate : String → Option Date
  newDate_toISOString : ∀ t iso, Js.toISOString t = some iso → newDate iso = some t
  /-- a `Date` as a `timestamptz` parameter; `none` when the query is refused -/
  timestamptz : Date → Option Timestamp
  timestamptz_fourDigitYear : ∀ t, FourDigitYear t → timestamptz t = some t.timestamp
  /-- a text as a `uuid` parameter; `none` when the query is refused -/
  uuid : String → Option Uuid
  uuid_text : ∀ id : Uuid, uuid id.text = some id

/-- `decodeCursor`: the first two parts of the text. -/
def CursorReader.decodeCursor (reader : CursorReader) (cursor : String) : Option (Date × String) :=
  match (reader.bufferText cursor).toList.splitOn '|' with
  | iso :: id :: _ => do
      let createdAt ← reader.newDate (String.ofList iso)
      return (createdAt, String.ofList id)
  | _ => none

instance Uuid.decidableCanonical (text : String) : Decidable (text.toList.length = 36 ∧
    ∀ c ∈ text.toList, c = '-' ∨ c.isDigit ∨ ('a' ≤ c ∧ c ≤ 'f')) :=
  @instDecidableAnd _ _ _ (List.decidableBAll _ text.toList)

/-- A `uuid` as the database prints it. -/
def Uuid.ofText (text : String) : Option Uuid :=
  if canonical : text.toList.length = 36 ∧
      ∀ c ∈ text.toList, c = '-' ∨ c.isDigit ∨ ('a' ≤ c ∧ c ≤ 'f') then
    some ⟨text, canonical⟩
  else none

@[simp] theorem Uuid.ofText_text (id : Uuid) : Uuid.ofText id.text = some id :=
  dif_pos id.canonical

theorem Uuid.bar_not_mem (id : Uuid) : '|' ∉ id.text.toList := by
  intro member
  rcases id.canonical.2 _ member with h | h | h
  · exact absurd h (by decide)
  · exact absurd h (by decide)
  · exact absurd h (by decide)

/-- **A cursor is read back as it was made.** -/
theorem decodeCursor_encodeCursor (reader : CursorReader) {createdAt : Date} {id : Uuid}
    {cursor : String} (is : encodeCursor createdAt id = .ok cursor) :
    reader.decodeCursor cursor = some (createdAt, id.text) := by
  unfold encodeCursor at is
  split at is
  · cases is
  · rename_i iso written
    obtain rfl := Except.ok.inj is
    have bar : '|' ∉ iso.toList := by
      intro member
      rcases Js.mem_toISOString written member with digit | sign
      · exact absurd digit (by decide)
      · exact absurd sign (by decide)
    have parts : (iso ++ "|" ++ id.text).toList.splitOn '|' = [iso.toList, id.text.toList] := by
      have joined : (iso ++ "|" ++ id.text).toList =
          ['|'].intercalate [iso.toList, id.text.toList] := by
        rw [String.toList_append, String.toList_append, List.append_assoc]
        simp [List.intercalate]
      rw [joined]
      refine List.splitOn_intercalate '|' ?_ (by simp)
      intro part member
      simp only [List.mem_cons, List.not_mem_nil, or_false] at member
      rcases member with rfl | rfl
      · exact bar
      · exact id.bar_not_mem
    unfold CursorReader.decodeCursor
    rw [reader.bufferText_base64url, parts]
    simp only [String.ofList_toList, reader.newDate_toISOString _ _ written]
    rfl

/-- The text of a cursor that was written. -/
def writtenText (cursor : String) : String :=
  (Js.ofUtf8 (Js.ofBase64url cursor)).getD ""

theorem writtenText_base64url (text : String) :
    writtenText (Js.base64url (Js.utf8 text)) = text := by
  rw [writtenText, Js.ofBase64url_base64url, Js.ofUtf8_utf8]
  rfl

theorem parseDate_written (t : Date) (iso : String) (written : Js.toISOString t = some iso) :
    Js.parseDate iso = some t :=
  Js.parseDate_toISOString written

theorem timestamp_written (t : Date) (_ : FourDigitYear t) :
    some t.timestamp = some t.timestamp :=
  rfl

/-- The reader of the written spellings, and of no others: all that is read when the cursors
come from `encodeCursor`. -/
def CursorReader.written : CursorReader where
  bufferText := writtenText
  bufferText_base64url := writtenText_base64url
  newDate := Js.parseDate
  newDate_toISOString := parseDate_written
  timestamptz := fun t => some t.timestamp
  timestamptz_fourDigitYear := timestamp_written
  uuid := Uuid.ofText
  uuid_text := Uuid.ofText_text

/-! ## One page -/

section Order

variable {ρ : Type} (reader : CursorReader) (createdAt : ρ → Timestamp) (id : ρ → Uuid)

/-- `orderBy(desc(createdAt), desc(id))`. -/
def newestFirst (a b : ρ) : Bool :=
  createdAt b < createdAt a || (createdAt a = createdAt b && (id b).text ≤ (id a).text)

/-- The rows past a place in the order: `created_at < at`, or the same and a smaller id. -/
def past (at_ : Timestamp) (uuid : Uuid) (row : ρ) : Bool :=
  createdAt row < at_ || (createdAt row = at_ && (id row).text < uuid.text)

/-- The rows behind what a written cursor holds. -/
def behind (at_ : Date × Uuid) (row : ρ) : Bool :=
  past createdAt id at_.1.timestamp at_.2 row

/-- The page of the rows found, and the next cursor when one more was found. -/
def cutPage (found : List ρ) (limit : ℕ) : Except ReadError (List ρ × Option String) :=
  match (found.take limit).getLast? with
  | some last =>
      if limit < found.length then do
        let nextCursor ← encodeCursor (Timestamp.date (createdAt last)) (id last)
        return (found.take limit, some nextCursor)
      else return (found.take limit, none)
  | none => return (found.take limit, none)

/-- What both lists do with the decoded cursor: the rows behind it, one more than a page. -/
def listPage (rows : List ρ) (decoded : Option (Date × String)) (limit : ℕ) :
    Except ReadError (List ρ × Option String) := do
  let selected ← match decoded with
    | none => pure rows
    | some (at_, text) =>
        match reader.timestamptz at_, reader.uuid text with
        | none, _ => throw .invalidTimestamp
        | some _, none => throw .invalidUuid
        | some at_, some uuid => pure (rows.filter (past createdAt id at_ uuid))
  cutPage createdAt id ((selected.mergeSort (newestFirst createdAt id)).take (limit + 1)) limit

end Order

/-! ## The two lists -/

/-- An entry of `LedgerPage`. -/
structure LedgerPageEntry where
  id : Uuid
  delta : Int
  reason : CreditReason
  referenceId : Option String
  createdAt : Date
  deriving DecidableEq, Repr

def CreditLedgerEntry.pageEntry (e : CreditLedgerEntry) : LedgerPageEntry :=
  { id := e.id, delta := e.delta, reason := e.reason, referenceId := e.referenceId,
    createdAt := Timestamp.date e.createdAt }

/-- `LedgerPage`. -/
structure LedgerPage where
  entries : List LedgerPageEntry
  nextCursor : Option String
  deriving DecidableEq, Repr

/-- The `month` of a `UsageSummary`. -/
structure MonthCounts where
  email : Int
  phone : Int
  total : Int
  deriving DecidableEq, Repr

/-- `UsageSummary`. -/
structure UsageSummary where
  balance : Int
  month : MonthCounts
  ledger : LedgerPage
  deriving DecidableEq, Repr

/-- `BatchPage`. -/
structure BatchPage where
  entries : List Batch
  nextCursor : Option String
  deriving DecidableEq, Repr

/-- A `::int` cast. -/
def castInt (n : Int) : Except ReadError Int :=
  if Int4 n then .ok n else .error .integerOutOfRange

/-- `Date.UTC(year, month, 1)`. -/
def monthStart (now : Date) : Date :=
  dayOf { dateOf (now / Js.dayMs) with day := 1 } * Js.dayMs

/-- The checks of the month that `getUsageSummary` counts. -/
def Database.monthEmailChecks (db : Database) (orgId : Uuid) (now : Date) : List EmailCheck :=
  db.emailChecks.filter fun c => c.orgId = orgId ∧ (monthStart now).timestamp ≤ c.createdAt

def Database.monthPhoneChecks (db : Database) (orgId : Uuid) (now : Date) : List PhoneCheck :=
  db.phoneChecks.filter fun c => c.orgId = orgId ∧ (monthStart now).timestamp ≤ c.createdAt

section Lists

variable (reader : CursorReader)

/-- A cursor parameter: absent, unreadable, or decoded. -/
def cursorParameter : Option String → Option (Option (Date × String))
  | none => some none
  | some cursor => (reader.decodeCursor cursor).map some

/-- `getUsageSummary`; `none` is its `null`. -/
def getUsageSummary (db : Database) (orgId : Uuid) (cursor : Option String) (limit : ℕ)
    (now : Date) : Except ReadError (Option UsageSummary) :=
  match cursorParameter reader cursor with
  | none => return none
  | some decoded => do
      let sum ← castInt (balance orgId db.creditLedger)
      let email ← castInt (db.monthEmailChecks orgId now).length
      let phone ← castInt (db.monthPhoneChecks orgId now).length
      let (page, nextCursor) ← listPage reader CreditLedgerEntry.createdAt CreditLedgerEntry.id
        (db.creditLedger.filter fun e => e.orgId = orgId) decoded limit
      return some
        { balance := sum
          month := { email, phone, total := email + phone }
          ledger := { entries := page.map CreditLedgerEntry.pageEntry, nextCursor } }

/-- `listBatchesForOrg`; `none` is its `null`. -/
def listBatchesForOrg (db : Database) (orgId : Uuid) (cursor : Option String) (limit : ℕ) :
    Except ReadError (Option BatchPage) :=
  match cursorParameter reader cursor with
  | none => return none
  | some decoded => do
      let (page, nextCursor) ← listPage reader Batch.createdAt Batch.id
        (db.batches.filter fun b => b.orgId = orgId) decoded limit
      return some { entries := page, nextCursor }

end Lists

/-! ## Pages in the order of the rows -/

section Order

variable {ρ : Type} (reader : CursorReader) {createdAt : ρ → Timestamp} {id : ρ → Uuid}

theorem newestFirst_trans (a b c : ρ) (ab : newestFirst createdAt id a b = true)
    (bc : newestFirst createdAt id b c = true) : newestFirst createdAt id a c = true := by
  simp only [newestFirst, Bool.or_eq_true, Bool.and_eq_true, decide_eq_true_eq] at ab bc ⊢
  rcases ab with ab | ⟨ab, ab'⟩ <;> rcases bc with bc | ⟨bc, bc'⟩
  · exact .inl (lt_trans bc ab)
  · exact .inl (bc ▸ ab)
  · exact .inl (ab ▸ bc)
  · exact .inr ⟨ab.trans bc, String.le_trans bc' ab'⟩

theorem newestFirst_total (a b : ρ) :
    (newestFirst createdAt id a b || newestFirst createdAt id b a) = true := by
  simp only [newestFirst, Bool.or_eq_true, Bool.and_eq_true, decide_eq_true_eq]
  rcases lt_trichotomy (createdAt a) (createdAt b) with lt | eq | gt
  · exact .inr (.inl lt)
  · rcases String.le_total (id a).text (id b).text with le | le
    · exact .inr (.inr ⟨eq.symm, le⟩)
    · exact .inl (.inr ⟨eq, le⟩)
  · exact .inl (.inl gt)

variable (createdAt id)

/-- The cursor of a row. -/
def rowCursor (row : ρ) : String :=
  match encodeCursor (Timestamp.date (createdAt row)) (id row) with
  | .ok cursor => cursor
  | .error _ => ""

/-- The rows a cursor's text selects. -/
def behindText (cursor : String) (row : ρ) : Bool :=
  match reader.decodeCursor cursor with
  | none => false
  | some (at_, text) =>
      match reader.timestamptz at_, reader.uuid text with
      | some at_, some uuid => past createdAt id at_ uuid row
      | _, _ => false

variable {createdAt id}

/-- A row whose instant a `Date` can hold has a cursor, which is read back. -/
theorem rowCursor_spec {row : ρ} (clip : Js.TimeClip (Timestamp.date (createdAt row))) :
    encodeCursor (Timestamp.date (createdAt row)) (id row) = .ok (rowCursor createdAt id row) ∧
      reader.decodeCursor (rowCursor createdAt id row) =
        some (Timestamp.date (createdAt row), (id row).text) := by
  obtain ⟨iso, written⟩ := Js.toISOString_isSome clip
  have is : ∃ cursor, encodeCursor (Timestamp.date (createdAt row)) (id row) = .ok cursor := by
    unfold encodeCursor
    rw [written]
    exact ⟨_, rfl⟩
  obtain ⟨cursor, is⟩ := is
  rw [show rowCursor createdAt id row = cursor by rw [rowCursor, is]]
  exact ⟨is, decodeCursor_encodeCursor reader is⟩

theorem behindText_rowCursor {row : ρ} (clip : Js.TimeClip (Timestamp.date (createdAt row))) :
    behindText .written createdAt id (rowCursor createdAt id row) =
      behind createdAt id (Timestamp.date (createdAt row), id row) := by
  funext other
  unfold behindText
  rw [(rowCursor_spec .written clip).2]
  simp only [CursorReader.written, Uuid.ofText_text]
  rfl

/-- What is cut off is less than a millisecond, and never negative. -/
theorem date_timestamp_le (t : Timestamp) : (Timestamp.date t).timestamp ≤ t := by
  have floor : t / 1000 * 1000 ≤ t := Int.ediv_mul_le t (by decide)
  exact floor

/-- Behind a row are only rows behind it in the order. -/
theorem behind_own {row earlier : ρ} (before : newestFirst createdAt id earlier row = true) :
    behind createdAt id (Timestamp.date (createdAt row), id row) earlier = false := by
  have floor := date_timestamp_le (createdAt row)
  simp only [newestFirst, Bool.or_eq_true, Bool.and_eq_true, decide_eq_true_eq] at before
  simp only [behind, past, Bool.or_eq_false_iff, Bool.and_eq_false_iff, decide_eq_false_iff_not,
    not_lt]
  have le : createdAt row ≤ createdAt earlier := by
    rcases before with lt | ⟨eq, -⟩
    · exact lt.le
    · exact eq.ge
  refine ⟨floor.trans le, ?_⟩
  rcases before with lt | ⟨-, smaller⟩
  · exact .inl fun same => absurd (same ▸ lt) (not_lt.2 floor)
  · exact .inr (String.not_lt.2 smaller)

/-- What is past a place stays past it further on in the order. -/
theorem past_onward {at_ : Timestamp} {uuid : Uuid} {row later : ρ}
    (before : newestFirst createdAt id row later = true)
    (selects : past createdAt id at_ uuid row = true) :
    past createdAt id at_ uuid later = true := by
  simp only [newestFirst, past, Bool.or_eq_true, Bool.and_eq_true, decide_eq_true_eq] at *
  rcases before with lt | ⟨eq, le⟩ <;> rcases selects with lt' | ⟨eq', lt'⟩
  · exact .inl (lt.trans lt')
  · exact .inl (eq' ▸ lt)
  · exact .inl (eq ▸ lt')
  · exact .inr ⟨eq ▸ eq', Std.lt_of_le_of_lt le lt'⟩

theorem behindText_onward {cursor : String} {row later : ρ}
    (before : newestFirst createdAt id row later = true)
    (selects : behindText reader createdAt id cursor row = true) :
    behindText reader createdAt id cursor later = true := by
  unfold behindText at *
  cases decoded : reader.decodeCursor cursor with
  | none => simp only [decoded, Bool.false_eq_true] at selects
  | some parts =>
      obtain ⟨at_, text⟩ := parts
      simp only [decoded] at selects ⊢
      cases instant : reader.timestamptz at_ with
      | none => simp only [instant, Bool.false_eq_true] at selects
      | some at_ =>
          cases read : reader.uuid text with
          | none => simp only [instant, read, Bool.false_eq_true] at selects
          | some uuid =>
              simp only [instant, read] at selects ⊢
              exact past_onward before selects

/-- **The sorted rows are ordered by their cursors.** -/
theorem ordered_rows {rows : List ρ}
    (dates : ∀ row ∈ rows, Js.TimeClip (Timestamp.date (createdAt row))) :
    Ordered (rows.mergeSort (newestFirst createdAt id)) (behindText .written createdAt id)
      (rowCursor createdAt id) := by
  have sorted : (rows.mergeSort (newestFirst createdAt id)).Pairwise fun a b =>
      newestFirst createdAt id a b = true :=
    List.pairwise_mergeSort newestFirst_trans newestFirst_total rows
  have inside : ∀ row ∈ rows.mergeSort (newestFirst createdAt id),
      Js.TimeClip (Timestamp.date (createdAt row)) := fun row member =>
    dates row (List.mem_mergeSort.1 member)
  constructor
  · exact sorted.imp fun before cursor => behindText_onward .written before
  · refine (sorted.imp_of_mem fun {row later} _ member before => ?_)
    rw [behindText_rowCursor (inside later member)]
    exact behind_own before
  · intro row member
    rw [behindText_rowCursor (inside row member)]
    exact behind_own (by simp [newestFirst])

/-- The cursors that reading starts from or is given. -/
def Given (createdAt : ρ → Timestamp) (id : ρ → Uuid) (rows : List ρ) (c : Option String) : Prop :=
  c = none ∨ ∃ row ∈ rows, c = some (rowCursor createdAt id row)

theorem cutPage_eq {found : List ρ}
    (dates : ∀ row ∈ found, Js.TimeClip (Timestamp.date (createdAt row))) (limit : ℕ) :
    cutPage createdAt id (found.take (limit + 1)) limit =
      .ok (found.take limit, if limit < found.length then
        (found.take limit).getLast?.map (rowCursor createdAt id) else none) := by
  have more : limit < (found.take (limit + 1)).length ↔ limit < found.length := by
    rw [List.length_take]
    omega
  unfold cutPage
  rw [List.take_take, Nat.min_eq_left (Nat.le_succ limit)]
  simp only [more]
  cases last : (found.take limit).getLast? with
  | none =>
      simp only [Option.map_none, ite_self]
      rfl
  | some row =>
      have member := List.mem_of_mem_take (List.mem_of_getLast? last)
      simp only [(rowCursor_spec .written (dates row member)).1]
      split <;> rfl

/-- **A page of a list is a page of its sorted rows.** -/
theorem listPage_eq {rows : List ρ}
    (dates : ∀ row ∈ rows, Js.TimeClip (Timestamp.date (createdAt row))) {c : Option String}
    (given : Given createdAt id rows c) (limit : ℕ) :
    ∃ decoded, cursorParameter .written c = some decoded ∧
      listPage .written createdAt id rows decoded limit =
        .ok (page (rows.mergeSort (newestFirst createdAt id)) (behindText .written createdAt id)
          (rowCursor createdAt id) limit c) := by
  rcases given with rfl | ⟨row, member, rfl⟩
  · exact ⟨none, rfl, cutPage_eq (fun row inside => dates row (List.mem_mergeSort.1 inside)) limit⟩
  · have decoded := (@rowCursor_spec ρ .written createdAt id row (dates row member)).2
    refine ⟨some (Timestamp.date (createdAt row), (id row).text), ?_, ?_⟩
    · rw [cursorParameter, decoded]
      rfl
    · have select : selected (rows.mergeSort (newestFirst createdAt id))
          (behindText .written createdAt id) (some (rowCursor createdAt id row)) =
          (rows.filter (behind createdAt id (Timestamp.date (createdAt row), id row))).mergeSort
            (newestFirst createdAt id) := by
        rw [selected, behindText_rowCursor (dates row member),
          Theory.Table.filter_mergeSort newestFirst_trans newestFirst_total]
      unfold listPage page
      rw [select]
      simp only [CursorReader.written, Uuid.ofText_text]
      exact cutPage_eq (fun other inside =>
        dates other (List.mem_filter.1 (List.mem_mergeSort.1 inside)).1) limit

/-- Every page's cursor is a row's. -/
theorem given_next {rows : List ρ} {limit : ℕ} {c : Option String} {entries : List ρ}
    {next : String}
    (is : page (rows.mergeSort (newestFirst createdAt id)) (behindText .written createdAt id)
      (rowCursor createdAt id) limit c = (entries, some next)) :
    Given createdAt id rows (some next) := by
  unfold page at is
  obtain ⟨-, cursor⟩ := Prod.mk.inj is
  split at cursor
  · obtain ⟨row, last, rfl⟩ := Option.map_eq_some_iff.1 cursor
    have member := List.mem_of_mem_take (List.mem_of_getLast? last)
    refine .inr ⟨row, ?_, rfl⟩
    cases c with
    | none => exact List.mem_mergeSort.1 member
    | some c => exact List.mem_mergeSort.1 (List.mem_filter.1 member).1
  · cases cursor

variable (createdAt id)

/-- Behind every full page, the next row is behind the cut-off instant of the page's last
one. -/
def Separated (limit : ℕ) (rows : List ρ) : Prop :=
  ∀ k, 0 < k → ∀ x y, rows[k * limit - 1]? = some x → rows[k * limit]? = some y →
    behind createdAt id (Timestamp.date (createdAt x), id x) y = true

variable {createdAt id}

theorem joined_iff_separated {rows : List ρ} {limit : ℕ}
    (dates : ∀ row ∈ rows, Js.TimeClip (Timestamp.date (createdAt row))) :
    Joined (behindText .written createdAt id) (rowCursor createdAt id) limit rows ↔
      Separated createdAt id limit rows := by
  constructor
  · intro joined k first x y atX atY
    have selects := joined k first x y atX atY
    rwa [behindText_rowCursor (dates x (List.mem_of_getElem? atX))] at selects
  · intro separated k first x y atX atY
    rw [behindText_rowCursor (dates x (List.mem_of_getElem? atX))]
    exact separated k first x y atX atY

/-- **A reader of the pages of `rows` gets them all, newest first, exactly when they are
separated.** -/
theorem follow_pages_iff {β : Type} {rows : List ρ} {limit : ℕ} (positive : 0 < limit)
    (dates : ∀ row ∈ rows, Js.TimeClip (Timestamp.date (createdAt row))) (f : ρ → β)
    {fetch : Option String → Option (List β × Option String)}
    (fetches : ∀ c, Given createdAt id rows c → fetch c =
      some ((page (rows.mergeSort (newestFirst createdAt id)) (behindText .written createdAt id)
        (rowCursor createdAt id) limit c).1.map f,
        (page (rows.mergeSort (newestFirst createdAt id)) (behindText .written createdAt id)
          (rowCursor createdAt id) limit c).2)) :
    (∃ fuel, follow fetch fuel none =
        some ((rows.mergeSort (newestFirst createdAt id)).map f)) ↔
      Separated createdAt id limit (rows.mergeSort (newestFirst createdAt id)) := by
  have closed : ∀ c entries next, Given createdAt id rows c →
      fetch c = some (entries, some next) → Given createdAt id rows (some next) := by
    intro c entries next given answer
    rw [fetches c given] at answer
    obtain ⟨-, cursor⟩ := Prod.mk.inj (Option.some.inj answer)
    exact given_next (Prod.ext rfl cursor)
  rw [← joined_iff_separated fun row inside => dates row (List.mem_mergeSort.1 inside),
    ← (ordered_rows dates).follow_page_iff positive f]
  have same := fun fuel => follow_congr fetches closed fuel (.inl rfl)
  constructor
  · rintro ⟨fuel, done⟩
    exact ⟨fuel, by rw [← same fuel, done]⟩
  · rintro ⟨fuel, done⟩
    exact ⟨fuel, by rw [same fuel, done]⟩

end Order

/-! ## Following the cursors -/

/-- The ledger of an organisation, newest first. -/
def Database.ledgerOf (db : Database) (orgId : Uuid) : List CreditLedgerEntry :=
  (db.creditLedger.filter fun e => e.orgId = orgId).mergeSort
    (newestFirst CreditLedgerEntry.createdAt CreditLedgerEntry.id)

/-- The batches of an organisation, newest first. -/
def Database.batchesOf (db : Database) (orgId : Uuid) : List Batch :=
  (db.batches.filter fun b => b.orgId = orgId).mergeSort (newestFirst Batch.createdAt Batch.id)

/-- The ledger page a caller of `getUsageSummary` gets, who sends the cursors it made. -/
def usagePage (db : Database) (orgId : Uuid) (limit : ℕ) (now : Date) (cursor : Option String) :
    Option (List LedgerPageEntry × Option String) :=
  match getUsageSummary .written db orgId cursor limit now with
  | .ok (some summary) => some (summary.ledger.entries, summary.ledger.nextCursor)
  | _ => none

/-- The page a caller of `listBatchesForOrg` gets, who sends the cursors it made. -/
def batchPage (db : Database) (orgId : Uuid) (limit : ℕ) (cursor : Option String) :
    Option (List Batch × Option String) :=
  match listBatchesForOrg .written db orgId cursor limit with
  | .ok (some page) => some (page.entries, page.nextCursor)
  | _ => none

/-- The totals that `getUsageSummary` casts are integers of PostgreSQL. -/
def TotalsFit (db : Database) (orgId : Uuid) (now : Date) : Prop :=
  Int4 (balance orgId db.creditLedger) ∧ Int4 (db.monthEmailChecks orgId now).length ∧
    Int4 (db.monthPhoneChecks orgId now).length

instance (db : Database) (orgId : Uuid) (now : Date) : Decidable (TotalsFit db orgId now) :=
  inferInstanceAs (Decidable (_ ∧ _ ∧ _))

/-- **The ledger read page by page.** -/
theorem follow_usagePage_iff (db : Tables) (orgId : Uuid) {limit : ℕ} (positive : 0 < limit)
    (now : Date) :
    (∃ fuel, follow (usagePage db.toDatabase orgId limit now) fuel none =
        some ((db.ledgerOf orgId).map CreditLedgerEntry.pageEntry)) ↔
      TotalsFit db.toDatabase orgId now ∧
        Separated CreditLedgerEntry.createdAt CreditLedgerEntry.id limit (db.ledgerOf orgId) := by
  by_cases fit : TotalsFit db.toDatabase orgId now
  · have dates : ∀ e ∈ db.creditLedger.filter (fun e => e.orgId = orgId),
        Js.TimeClip (Timestamp.date e.createdAt) := fun e inside =>
      db.ledgerDates e (List.mem_filter.1 inside).1
    rw [and_iff_right fit]
    apply follow_pages_iff positive dates CreditLedgerEntry.pageEntry
    intro c given
    obtain ⟨decoded, reads, is⟩ := listPage_eq dates given limit
    unfold usagePage getUsageSummary
    simp only [reads, castInt, if_pos fit.1, if_pos fit.2.1, if_pos fit.2.2, is]
    rfl
  · refine iff_of_false ?_ fun both => fit both.1
    rintro ⟨_ | fuel, done⟩
    · cases done
    · have fails : usagePage db.toDatabase orgId limit now none = none := by
        unfold usagePage getUsageSummary
        simp only [cursorParameter, castInt]
        unfold TotalsFit at fit
        by_cases sum : Int4 (balance orgId db.creditLedger)
        · by_cases email : Int4 (db.monthEmailChecks orgId now).length
          · rw [if_pos sum, if_pos email,
              if_neg fun phone => fit ⟨sum, email, phone⟩]
            rfl
          · rw [if_pos sum, if_neg email]
            rfl
        · rw [if_neg sum]
          rfl
      rw [follow, fails] at done
      cases done

/-- **The batches read page by page.** -/
theorem follow_batchPage_iff (db : Tables) (orgId : Uuid) {limit : ℕ} (positive : 0 < limit) :
    (∃ fuel, follow (batchPage db.toDatabase orgId limit) fuel none =
        some (db.batchesOf orgId)) ↔
      Separated Batch.createdAt Batch.id limit (db.batchesOf orgId) := by
  have dates : ∀ b ∈ db.batches.filter (fun b => b.orgId = orgId),
      Js.TimeClip (Timestamp.date b.createdAt) := fun b inside =>
    (db.batchDates b (List.mem_filter.1 inside).1).1
  rw [← List.map_id (db.batchesOf orgId)]
  conv_rhs => rw [List.map_id]
  apply follow_pages_iff positive dates id
  intro c given
  obtain ⟨decoded, reads, is⟩ := listPage_eq dates given limit
  unfold batchPage listBatchesForOrg
  simp only [reads, is, List.map_id]
  rfl

/-- **Following the cursors of both lists gives every row once, newest first, exactly when
no full page ends within a millisecond of the next row and above its beginning**, and the
totals beside the ledger can be read. -/
theorem pages_partition_iff (db : Tables) (orgId : Uuid) (limit : ℕ) (positive : 0 < limit)
    (now : Date) :
    ((∃ fuel, follow (usagePage db.toDatabase orgId limit now) fuel none =
          some ((db.ledgerOf orgId).map CreditLedgerEntry.pageEntry)) ∧
        ∃ fuel, follow (batchPage db.toDatabase orgId limit) fuel none =
          some (db.batchesOf orgId)) ↔
      (TotalsFit db.toDatabase orgId now ∧
          Separated CreditLedgerEntry.createdAt CreditLedgerEntry.id limit (db.ledgerOf orgId)) ∧
        Separated Batch.createdAt Batch.id limit (db.batchesOf orgId) := by
  rw [follow_usagePage_iff db orgId positive now, follow_batchPage_iff db orgId positive]

/-! ### Two grants in one millisecond -/

def grantAt (digit : ℕ) (createdAt : Timestamp) : CreditLedgerEntry :=
  ⟨.numbered digit, .numbered 7, 5, .grant, none, none, createdAt⟩

theorem grants_ids (t t' : Timestamp) :
    ([grantAt 1 t, grantAt 2 t'].map (·.id)).Nodup := by
  simp only [List.map_cons, List.map_nil, grantAt]
  decide

theorem rowless {ρ : Type} (p : ρ → Prop) : ∀ row ∈ ([] : List ρ), p row := nofun

theorem noEmailCheck_dates : ∀ c ∈ ([] : List EmailCheck),
    Js.TimeClip (Timestamp.date c.createdAt) ∧ Js.TimeClip (Timestamp.date c.expiresAt) :=
  rowless _

theorem noPhoneCheck_dates : ∀ c ∈ ([] : List PhoneCheck),
    Js.TimeClip (Timestamp.date c.createdAt) ∧ Js.TimeClip (Timestamp.date c.expiresAt) :=
  rowless _

theorem noBatch_dates : ∀ b ∈ ([] : List Batch), Js.TimeClip (Timestamp.date b.createdAt) ∧
    (∀ t ∈ b.completedAt, Js.TimeClip (Timestamp.date t)) ∧
    Js.TimeClip (Timestamp.date b.expiresAt) :=
  rowless _

theorem noLedger_dates : ∀ e ∈ ([] : List CreditLedgerEntry),
    Js.TimeClip (Timestamp.date e.createdAt) :=
  rowless _

theorem noAuditEvent_dates : ∀ e ∈ ([] : List AuditEvent),
    Js.TimeClip (Timestamp.date e.createdAt) :=
  rowless _

/-- The tables with two grants and nothing else. -/
def grantTables (t t' : Timestamp) (clip : ∀ e ∈ [grantAt 1 t, grantAt 2 t'],
    Js.TimeClip (Timestamp.date e.createdAt)) : Tables where
  organizations := []
  creditLedger := [grantAt 1 t, grantAt 2 t']
  emailChecks := []
  phoneChecks := []
  batches := []
  auditEvents := []
  ledgerIds := grants_ids t t'
  emailCheckIds := List.nodup_nil
  phoneCheckIds := List.nodup_nil
  batchIds := List.nodup_nil
  auditEventIds := List.nodup_nil
  ledgerDates := clip
  emailCheckDates := noEmailCheck_dates
  phoneCheckDates := noPhoneCheck_dates
  batchDates := noBatch_dates
  auditEventDates := noAuditEvent_dates

/-- Seven tenths and three tenths of the second millisecond. -/
theorem grants_together : ∀ e ∈ [grantAt 1 1700, grantAt 2 1300],
    Js.TimeClip (Timestamp.date e.createdAt) := by decide

/-- A millisecond apart. -/
theorem grants_apart : ∀ e ∈ [grantAt 1 2700, grantAt 2 1300],
    Js.TimeClip (Timestamp.date e.createdAt) := by decide

/-- Two grants a millisecond apart are read, one a page. -/
theorem pages_partition_iff_apart :
    ((∃ fuel, follow (usagePage (grantTables 2700 1300 grants_apart).toDatabase (.numbered 7) 1 0)
          fuel none =
          some (((grantTables 2700 1300 grants_apart).ledgerOf (.numbered 7)).map
            CreditLedgerEntry.pageEntry)) ∧
        ∃ fuel, follow (batchPage (grantTables 2700 1300 grants_apart).toDatabase (.numbered 7) 1)
          fuel none =
          some ((grantTables 2700 1300 grants_apart).batchesOf (.numbered 7))) ↔
      (TotalsFit (grantTables 2700 1300 grants_apart).toDatabase (.numbered 7) 0 ∧
          Separated CreditLedgerEntry.createdAt CreditLedgerEntry.id 1
            ((grantTables 2700 1300 grants_apart).ledgerOf (.numbered 7))) ∧
        Separated Batch.createdAt Batch.id 1
          ((grantTables 2700 1300 grants_apart).batchesOf (.numbered 7)) :=
  pages_partition_iff (grantTables 2700 1300 grants_apart) (.numbered 7) 1 (by decide) 0

/-- Of two grants in one millisecond, the second is on no page: the cursor of the first is
before both. -/
theorem pages_skip_a_row :
    ¬ ∀ (db : Tables) (orgId : Uuid) (limit : ℕ) (now : Date), 0 < limit →
      (∃ fuel, follow (usagePage db.toDatabase orgId limit now) fuel none =
          some ((db.ledgerOf orgId).map CreditLedgerEntry.pageEntry)) ∧
        ∃ fuel, follow (batchPage db.toDatabase orgId limit) fuel none =
          some (db.batchesOf orgId) := by
  intro whole
  have ledger := (whole (grantTables 1700 1300 grants_together) (.numbered 7) 1 0
    (by decide)).1
  have separated := ((follow_usagePage_iff _ _ (by decide) 0).1 ledger).2
  have sorted : (grantTables 1700 1300 grants_together).ledgerOf (.numbered 7) =
      [grantAt 1 1700, grantAt 2 1300] :=
    List.mergeSort_of_pairwise (by decide)
  rw [sorted] at separated
  have selects := separated 1 (by decide) (grantAt 1 1700) (grantAt 2 1300) rfl rfl
  exact absurd selects (by decide)

end Tozalist.Db
