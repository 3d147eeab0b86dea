/-
# Tozalist.Db.Batches -- a batch is reserved, claimed, settled or deleted

`packages/db/src/batches.ts`: `createBatchWithReservation`, `claimBatchForProcessing`,
`completeBatch`, `failBatch`, `deleteBatchForOrg`, and the two bulk helpers of the
worker, `findRecentEmailChecksByHashes` and `insertBatchEmailChecks`.

`completeBatch` and `failBatch` update the row by id alone, whatever its status.  The
refund of a completion is an ordinary insert, so a second refund aborts it; the refunds
of a failure and of a deletion skip on a conflict.
-/
import Tozalist.Db.Checks

namespace Tozalist.Db

set_option autoImplicit false

open Theory (Txn)

/-! ## Rows of a batch -/

/-- `CreateBatchInput`. -/
structure CreateBatchInput where
  batchId : Uuid
  orgId : Uuid
  filename : String
  totalRows : Nat
  inputObjectKey : String
  stats : BatchStats
  deriving DecidableEq, Repr

/-- The row a creation inserts. -/
def CreateBatchInput.row (input : CreateBatchInput) (draw : Draw) (expiresAt : Timestamp) :
    Batch :=
  { id := input.batchId
    orgId := input.orgId
    filename := input.filename
    status := .pending
    totalRows := input.totalRows
    processedRows := 0
    error := none
    stats := some input.stats
    inputObjectKey := input.inputObjectKey
    resultObjectKey := none
    createdAt := draw.now
    completedAt := none
    expiresAt := expiresAt }

@[simp] theorem CreateBatchInput.row_id (input : CreateBatchInput) (draw : Draw)
    (expiresAt : Timestamp) : (input.row draw expiresAt).id = input.batchId := rfl

@[simp] theorem CreateBatchInput.row_totalRows (input : CreateBatchInput) (draw : Draw)
    (expiresAt : Timestamp) : (input.row draw expiresAt).totalRows = input.totalRows := rfl

@[simp] theorem CreateBatchInput.row_filename (input : CreateBatchInput) (draw : Draw)
    (expiresAt : Timestamp) : (input.row draw expiresAt).filename = input.filename := rfl

/-- The reservation: the full cost as one negative entry. -/
def reservationEntry (orgId batchId : Uuid) (totalRows : Nat) (draw : Draw) :
    CreditLedgerEntry :=
  { id := draw.ledgerId
    orgId := orgId
    delta := -totalRows
    reason := .batchCheck
    referenceId := some batchId.text
    note := none
    createdAt := draw.now }

/-- A refund entry of a batch. -/
def refundEntry (orgId batchId : Uuid) (amount : Int) (note : String) (draw : Draw) :
    CreditLedgerEntry :=
  { id := draw.ledgerId
    orgId := orgId
    delta := amount
    reason := .refund
    referenceId := some (refundReference batchId)
    note := some (Js.ofString note)
    createdAt := draw.now }

def completionNote : String := "Batch reconciliation: reserved minus charged"

def failureNote : String := "Batch failed: full reservation refunded"

def deletionNote : String := "Batch deleted before processing: full reservation refunded"

@[simp] theorem refKey_reservationEntry (orgId batchId : Uuid) (totalRows : Nat) (draw : Draw) :
    refKey (reservationEntry orgId batchId totalRows draw) = some (held orgId batchId) := rfl

@[simp] theorem refKey_refundEntry (orgId batchId : Uuid) (amount : Int) (note : String)
    (draw : Draw) :
    refKey (refundEntry orgId batchId amount note draw) = some (refunded orgId batchId) := rfl

/-- A refund row fits its columns when its amount does; the notes are plain text. -/
theorem refundEntry_fits {orgId batchId : Uuid} {amount : Int} {note : String} {draw : Draw}
    (plain : note = completionNote ∨ note = failureNote ∨ note = deletionNote) :
    (refundEntry orgId batchId amount note draw).Fits ↔ Int4 amount := by
  have storable : Storable (Js.ofString note) := by
    rcases plain with rfl | rfl | rfl <;> decide
  constructor
  · intro fits
    exact fits.1
  · intro small
    refine ⟨small, ?_⟩
    intro written member
    obtain rfl := Option.mem_some_iff.1 member
    exact storable

/-- Rewrite the rows that `p` selects. -/
def Database.updateBatches (db : Database) (p : Batch → Prop) [DecidablePred p]
    (f : Batch → Batch) : Database :=
  { db with batches := db.batches.map fun b => if p b then f b else b }

@[simp] theorem updateBatches_creditLedger (db : Database) (p : Batch → Prop) [DecidablePred p]
    (f : Batch → Batch) : (db.updateBatches p f).creditLedger = db.creditLedger := rfl

@[simp] theorem updateBatches_organizations (db : Database) (p : Batch → Prop) [DecidablePred p]
    (f : Batch → Batch) : (db.updateBatches p f).organizations = db.organizations := rfl

@[simp] theorem updateBatches_batches (db : Database) (p : Batch → Prop) [DecidablePred p]
    (f : Batch → Batch) :
    (db.updateBatches p f).batches = db.batches.map fun b => if p b then f b else b := rfl

/-! ## Creation -/

/-- `CreateBatchResult`. -/
inductive CreateBatchResult where
  | created (batch : Batch) (balance : Int)
  | insufficient (balance shortfall : Int)
  | orgUnavailable
  deriving DecidableEq, Repr

/-- The creation reserved its credits. -/
def CreateBatchResult.Created : CreateBatchResult → Prop
  | .created _ _ => True
  | _ => False

instance (result : CreateBatchResult) : Decidable result.Created :=
  match result with
  | .created _ _ => .isTrue trivial
  | .insufficient _ _ => .isFalse id
  | .orgUnavailable => .isFalse id

/-- Insert the batch row. -/
def insertBatch (batch : Batch) : Tx Unit := do
  let db ← get
  if ¬ Int4 batch.totalRows then throw .integerOutOfRange
  else if '\x00' ∈ batch.filename.toList then throw .invalidText
  else if ∃ b ∈ db.batches, b.id = batch.id then throw (.uniqueViolation "batches_pkey")
  else modify fun db => { db with batches := db.batches ++ [batch] }

theorem run_insertBatch_bind {β : Type} (batch : Batch) (next : Unit → Tx β) (db : Database) :
    (insertBatch batch >>= next : Tx β).run db =
      if ¬ Int4 batch.totalRows then .error .integerOutOfRange
      else if '\x00' ∈ batch.filename.toList then .error .invalidText
      else if ∃ b ∈ db.batches, b.id = batch.id then .error (.uniqueViolation "batches_pkey")
      else (next ()).run { db with batches := db.batches ++ [batch] } := by
  rw [insertBatch, bind_assoc, run_get_bind]
  split
  · rfl
  · split
    · rfl
    · split <;> rfl

theorem insertBatch_commits {batch : Batch} {db db' : Database} {u : Unit} :
    Txn.Commits (insertBatch batch) db u db' ↔
      Int4 batch.totalRows ∧ '\x00' ∉ batch.filename.toList ∧
        (∀ b ∈ db.batches, b.id ≠ batch.id) ∧
        db' = { db with batches := db.batches ++ [batch] } := by
  simp [insertBatch]

/-- `createBatchWithReservation`. -/
def createBatchWithReservation (input : CreateBatchInput) (draw : Draw) (now : Date) :
    Tx CreateBatchResult := do
  match ← lockOrganization input.orgId with
  | none => return .orgUnavailable
  | some org =>
      let balance ← lockedBalance input.orgId
      if balance < input.totalRows then
        return .insufficient balance (input.totalRows - balance)
      else do
        let batch := input.row draw (now.addDays org.retentionDays).timestamp
        insertBatch batch
        insertLedger (reservationEntry input.orgId input.batchId input.totalRows draw)
        return .created batch (balance - input.totalRows)

/-- **A creation** changes nothing, or adds a pending batch and its reservation, within the
balance. -/
theorem createBatchWithReservation_commits {input : CreateBatchInput} {draw : Draw} {now : Date}
    {db db' : Database} {result : CreateBatchResult}
    (commits : Txn.Commits (createBatchWithReservation input draw now) db result db') :
    (¬ result.Created ∧ db' = db) ∨
      ∃ org ∈ db.organizations, org.id = input.orgId ∧ org.Active ∧ result.Created ∧
        (input.totalRows : Int) ≤ balance input.orgId db.creditLedger ∧
        Int4 input.totalRows ∧ (∀ b ∈ db.batches, b.id ≠ input.batchId) ∧
        ¬ Conflicts (reservationEntry input.orgId input.batchId input.totalRows draw)
          db.creditLedger ∧
        db' = { db.withEntry (reservationEntry input.orgId input.batchId input.totalRows draw) with
          batches := db.batches ++ [input.row draw (now.addDays org.retentionDays).timestamp] } := by
  simp only [createBatchWithReservation, Txn.commits_bind, lockOrganization_commits] at commits
  obtain ⟨_, _, ⟨rfl, rfl⟩, commits⟩ := commits
  split at commits
  · obtain ⟨rfl, rfl⟩ := (Txn.commits_pure _ _ _ _).1 commits
    exact .inl ⟨id, rfl⟩
  · rename_i org found
    have active := List.find?_some found
    simp only [decide_eq_true_eq] at active
    simp only [Txn.commits_bind, lockedBalance_commits, Txn.commits_ite, Txn.commits_pure,
      insertBatch_commits, insertLedger_commits] at commits
    obtain ⟨_, _, ⟨-, rfl, rfl⟩, commits⟩ := commits
    rcases commits with ⟨-, rfl, rfl⟩ |
      ⟨enough, _, _, ⟨small, -, fresh, rfl⟩, _, _, ⟨-, free, rfl⟩, rfl, rfl⟩
    · exact .inl ⟨id, rfl⟩
    · exact .inr ⟨org, List.mem_of_find?_eq_some found, active.1, active.2, trivial, by omega,
        small, fresh, free, rfl⟩

/-! ## Claim -/

/-- `ClaimBatchResult`. -/
inductive ClaimBatchResult where
  | claimed (batch : Batch) (retentionDays : Int)
  | orgUnavailable (batch : Batch)
  | notClaimable
  deriving DecidableEq, Repr

/-- The batch a claim won, whatever its organisation. -/
def ClaimBatchResult.batch? : ClaimBatchResult → Option Batch
  | .claimed batch _ => some batch
  | .orgUnavailable batch => some batch
  | .notClaimable => none

/-- `set({ status: 'processing' })`. -/
def Batch.claim (b : Batch) : Batch := { b with status := .processing }

/-- `claimBatchForProcessing`. -/
def claimBatchForProcessing (id : Uuid) : Tx ClaimBatchResult := do
  let db ← get
  match db.batches.find? fun b => b.id = id ∧ b.status.Claimable with
  | none => return .notClaimable
  | some row => do
      modify fun db => db.updateBatches (fun b => b.id = id ∧ b.status.Claimable) Batch.claim
      match db.organizations.find? fun o => o.id = row.orgId with
      | none => return .orgUnavailable row.claim
      | some org =>
          if ¬ org.Active then return .orgUnavailable row.claim
          else return .claimed row.claim org.retentionDays

/-- **A claim** always commits: it takes the row from a claimable state, or finds none. -/
theorem claimBatchForProcessing_commits (id : Uuid) (db : Database) :
    ∃ result, (Txn.Commits (claimBatchForProcessing id) db result db ∧ result.batch? = none ∧
        ∀ b ∈ db.batches, b.id = id → ¬ b.status.Claimable) ∨
      (∃ row ∈ db.batches, row.id = id ∧ row.status.Claimable ∧ result.batch? = some row.claim ∧
        Txn.Commits (claimBatchForProcessing id) db result
          (db.updateBatches (fun b => b.id = id ∧ b.status.Claimable) Batch.claim)) := by
  simp only [claimBatchForProcessing, Txn.commits_bind, Txn.commits_get]
  cases found : db.batches.find? fun b => b.id = id ∧ b.status.Claimable with
  | none =>
      have none_ : ∀ b ∈ db.batches, b.id = id → ¬ b.status.Claimable := by
        simpa [List.find?_eq_none] using found
      exact ⟨.notClaimable, .inl ⟨⟨db, db, ⟨rfl, rfl⟩, by rw [found]; simp⟩, rfl, none_⟩⟩
  | some row =>
      have here := List.find?_some found
      simp only [decide_eq_true_eq] at here
      have member := List.mem_of_find?_eq_some found
      cases owner : db.organizations.find? fun o => o.id = row.orgId with
      | none =>
          exact ⟨.orgUnavailable row.claim, .inr ⟨row, member, here.1, here.2, rfl,
            ⟨db, db, ⟨rfl, rfl⟩, by rw [found]; simp [owner]⟩⟩⟩
      | some org =>
          by_cases active : org.Active
          · exact ⟨.claimed row.claim org.retentionDays, .inr ⟨row, member, here.1, here.2, rfl,
              ⟨db, db, ⟨rfl, rfl⟩, by rw [found]; simp [owner, active]⟩⟩⟩
          · exact ⟨.orgUnavailable row.claim, .inr ⟨row, member, here.1, here.2, rfl,
              ⟨db, db, ⟨rfl, rfl⟩, by rw [found]; simp [owner, active]⟩⟩⟩

/-! ## Settlement -/

/-- `CompleteBatchInput`. -/
structure CompleteBatchInput where
  batchId : Uuid
  orgId : Uuid
  resultObjectKey : String
  processedRows : Nat
  stats : BatchStats
  chargedCredits : Nat
  reservedCredits : Nat
  retentionDays : Int
  deriving DecidableEq, Repr

/-- The columns a completion sets. -/
def Batch.complete (input : CompleteBatchInput) (now : Date) (b : Batch) : Batch :=
  { b with
    status := .done
    processedRows := input.processedRows
    resultObjectKey := some input.resultObjectKey
    stats := some input.stats
    completedAt := some now.timestamp
    expiresAt := (now.addDays input.retentionDays).timestamp }

/-- The row of a completed batch, wherever it is. -/
def Database.completed (db : Database) (input : CompleteBatchInput) (now : Date) : Database :=
  db.updateBatches (fun b => b.id = input.batchId) (Batch.complete input now)

/-- `completeBatch`. -/
def completeBatch (input : CompleteBatchInput) (draw : Draw) (now : Date) : Tx Unit := do
  let refund : Int := input.reservedCredits - input.chargedCredits
  modify fun db => db.completed input now
  if 0 < refund then
    insertLedger (refundEntry input.orgId input.batchId refund completionNote draw)
  else return ()

/-- **A completion** marks the row, and gives back what was not charged under a fresh
reference: with that reference taken it aborts. -/
theorem completeBatch_commits {input : CompleteBatchInput} {draw : Draw} {now : Date}
    {db db' : Database} {u : Unit} :
    Txn.Commits (completeBatch input draw now) db u db' ↔
      (input.reservedCredits ≤ input.chargedCredits ∧ db' = db.completed input now) ∨
      (input.chargedCredits < input.reservedCredits ∧
        Int4 ((input.reservedCredits : Int) - input.chargedCredits) ∧
        ¬ Conflicts (refundEntry input.orgId input.batchId
          (input.reservedCredits - input.chargedCredits) completionNote draw) db.creditLedger ∧
        db' = (db.completed input now).withEntry (refundEntry input.orgId input.batchId
          (input.reservedCredits - input.chargedCredits) completionNote draw)) := by
  have positive : (0 : Int) < input.reservedCredits - input.chargedCredits ↔
      input.chargedCredits < input.reservedCredits := by omega
  have negative : ¬ input.chargedCredits < input.reservedCredits ↔
      input.reservedCredits ≤ input.chargedCredits := by omega
  simp only [completeBatch, Txn.commits_bind, Txn.commits_modify, Txn.commits_ite,
    insertLedger_commits, Txn.commits_pure, refundEntry_fits (.inl rfl), positive, negative]
  constructor
  · rintro ⟨_, _, rfl, ⟨partial_, small, free, rfl⟩ | ⟨full, -, rfl⟩⟩
    · exact .inr ⟨partial_, small, free, rfl⟩
    · exact .inl ⟨full, rfl⟩
  · rintro (⟨full, rfl⟩ | ⟨partial_, small, free, rfl⟩)
    · exact ⟨⟨⟩, _, rfl, .inr ⟨full, trivial, rfl⟩⟩
    · exact ⟨⟨⟩, _, rfl, .inl ⟨partial_, small, free, rfl⟩⟩

/-- The input of `failBatch`. -/
structure FailBatchInput where
  batchId : Uuid
  orgId : Uuid
  reservedCredits : Nat
  error : String
  deriving DecidableEq, Repr

/-- The columns a failure sets. -/
def Batch.fail (error : String) (b : Batch) : Batch :=
  { b with status := .failed, error := some error }

/-- The row of a failed batch, wherever it is. -/
def Database.failed (db : Database) (input : FailBatchInput) : Database :=
  db.updateBatches (fun b => b.id = input.batchId) (Batch.fail input.error)

/-- `failBatch`. -/
def failBatch (input : FailBatchInput) (draw : Draw) : Tx Unit := do
  modify fun db => db.failed input
  if 0 < input.reservedCredits then do
    let _ ← insertLedgerOnConflictDoNothing
      (refundEntry input.orgId input.batchId input.reservedCredits failureNote draw)
    return ()
  else return ()

/-- **A failure** marks the row, and gives the whole reservation back unless something was
given back already. -/
theorem failBatch_commits {input : FailBatchInput} {draw : Draw} {db db' : Database} {u : Unit} :
    Txn.Commits (failBatch input draw) db u db' ↔
      (input.reservedCredits = 0 ∧ db' = db.failed input) ∨
      (0 < input.reservedCredits ∧ Int4 input.reservedCredits ∧
        ((Conflicts (refundEntry input.orgId input.batchId input.reservedCredits failureNote draw)
            db.creditLedger ∧ db' = db.failed input) ∨
          (¬ Conflicts (refundEntry input.orgId input.batchId input.reservedCredits failureNote
            draw) db.creditLedger ∧ db' = (db.failed input).withEntry
              (refundEntry input.orgId input.batchId input.reservedCredits failureNote draw)))) := by
  have zero : ¬ 0 < input.reservedCredits ↔ input.reservedCredits = 0 := by omega
  simp only [failBatch, Txn.commits_bind, Txn.commits_modify, Txn.commits_ite, Txn.commits_pure,
    insertLedgerOnConflictDoNothing_commits, refundEntry_fits (.inr (.inl rfl)), zero]
  constructor
  · rintro ⟨_, _, rfl, ⟨some_, _, _, ⟨small, ⟨taken, -, rfl⟩ | ⟨free, -, rfl⟩⟩, -, rfl⟩ |
      ⟨none_, -, rfl⟩⟩
    · exact .inr ⟨some_, small, .inl ⟨taken, rfl⟩⟩
    · exact .inr ⟨some_, small, .inr ⟨free, rfl⟩⟩
    · exact .inl ⟨none_, rfl⟩
  · rintro (⟨none_, rfl⟩ | ⟨some_, small, ⟨taken, rfl⟩ | ⟨free, rfl⟩⟩)
    · exact ⟨⟨⟩, _, rfl, .inr ⟨none_, trivial, rfl⟩⟩
    · exact ⟨⟨⟩, _, rfl, .inl ⟨some_, false, _, ⟨small, .inl ⟨taken, rfl, rfl⟩⟩, trivial, rfl⟩⟩
    · exact ⟨⟨⟩, _, rfl, .inl ⟨some_, true, _, ⟨small, .inr ⟨free, rfl, rfl⟩⟩, trivial, rfl⟩⟩

/-! ## Deletion -/

/-- `DeleteBatchResult`. -/
inductive DeleteBatchResult where
  | deleted (inputObjectKey : String) (resultObjectKey : Option String) (refunded : Nat)
  | processing
  | notFound
  deriving DecidableEq, Repr

/-- Remove the rows that `p` selects. -/
def Database.deleteBatches (db : Database) (p : Batch → Prop) [DecidablePred p] : Database :=
  { db with batches := db.batches.filter fun b => ¬ p b }

@[simp] theorem deleteBatches_creditLedger (db : Database) (p : Batch → Prop) [DecidablePred p] :
    (db.deleteBatches p).creditLedger = db.creditLedger := rfl

@[simp] theorem deleteBatches_organizations (db : Database) (p : Batch → Prop)
    [DecidablePred p] : (db.deleteBatches p).organizations = db.organizations := rfl

@[simp] theorem mem_deleteBatches {db : Database} {p : Batch → Prop} [DecidablePred p] {b : Batch} :
    b ∈ (db.deleteBatches p).batches ↔ b ∈ db.batches ∧ ¬ p b := by
  simp [Database.deleteBatches]

/-- The refund of a deletion: whether it went in. -/
def refundDeleted (row : Batch) (draw : Draw) : Tx Nat := do
  if row.status.Claimable then do
    let inserted ← insertLedgerOnConflictDoNothing
      (refundEntry row.orgId row.id row.totalRows deletionNote draw)
    return if inserted then row.totalRows else 0
  else return 0

/-- `deleteBatchForOrg`. -/
def deleteBatchForOrg (id orgId : Uuid) (draw : Draw) : Tx DeleteBatchResult := do
  let db ← get
  match db.batches.find? fun b => b.id = id ∧ b.orgId = orgId with
  | none => return .notFound
  | some row =>
      if row.status = .processing then return .processing
      else do
        let refunded ← refundDeleted row draw
        modify fun db => db.deleteBatches fun b => b.id = row.id
        return .deleted row.inputObjectKey row.resultObjectKey refunded

/-- **A deletion** changes nothing, removes a batch at its end, or removes a batch nobody
claimed and gives its reservation back unless something was given back already. -/
theorem deleteBatchForOrg_commits {id orgId : Uuid} {draw : Draw} {db db' : Database}
    {result : DeleteBatchResult}
    (commits : Txn.Commits (deleteBatchForOrg id orgId draw) db result db') :
    db' = db ∨ ∃ row ∈ db.batches, row.id = id ∧ row.orgId = orgId ∧
      ((row.status.Terminal ∧ db' = db.deleteBatches fun b => b.id = id) ∨
        (row.status.Claimable ∧ Int4 row.totalRows ∧
          ((Conflicts (refundEntry orgId id row.totalRows deletionNote draw) db.creditLedger ∧
              db' = db.deleteBatches fun b => b.id = id) ∨
            (¬ Conflicts (refundEntry orgId id row.totalRows deletionNote draw) db.creditLedger ∧
              db' = (db.withEntry (refundEntry orgId id row.totalRows deletionNote
                draw)).deleteBatches fun b => b.id = id)))) := by
  simp only [deleteBatchForOrg, Txn.commits_bind, Txn.commits_get] at commits
  obtain ⟨_, _, ⟨rfl, rfl⟩, commits⟩ := commits
  split at commits
  · exact .inl ((Txn.commits_pure _ _ _ _).1 commits).2
  · rename_i row found
    have here := List.find?_some found
    simp only [decide_eq_true_eq] at here
    obtain ⟨rfl, rfl⟩ := here
    have member := List.mem_of_find?_eq_some found
    simp only [Txn.commits_ite, Txn.commits_pure, Txn.commits_bind, Txn.commits_modify,
      refundDeleted, insertLedgerOnConflictDoNothing_commits,
      refundEntry_fits (.inr (.inr rfl))] at commits
    rcases commits with ⟨-, -, rfl⟩ |
      ⟨idle, _, _, ⟨claimable, _, _, ⟨small, refund⟩, -, rfl⟩ | ⟨ended, -, rfl⟩, _, _, rfl, -, rfl⟩
    · exact .inl rfl
    · refine .inr ⟨row, member, rfl, rfl, .inr ⟨claimable, small, ?_⟩⟩
      rcases refund with ⟨taken, -, rfl⟩ | ⟨free, -, rfl⟩
      · exact .inl ⟨taken, rfl⟩
      · exact .inr ⟨free, rfl⟩
    · refine .inr ⟨row, member, rfl, rfl, .inl ⟨?_, rfl⟩⟩
      cases status : row.status <;> simp_all [BatchStatus.Claimable, BatchStatus.Terminal]

/-! ## Bulk helpers -/

/-- `findRecentEmailChecksByHashes`: the freshest reusable check of each hash. -/
def Database.findRecentEmailChecksByHashes (db : Database) (orgId : Uuid) (hashes : List String)
    (now : Date) (hash : String) : Option EmailCheck :=
  (db.recentEmailChecks orgId (fun c => c.emailHash ∈ hashes) now).find? fun c =>
    c.emailHash = hash

/-- The bulk lookup finds for each hash what the lookup of that hash finds. -/
theorem findRecentEmailChecksByHashes_eq (db : Database) (orgId : Uuid) {hashes : List String}
    (now : Date) {hash : String} (asked : hash ∈ hashes) :
    db.findRecentEmailChecksByHashes orgId hashes now hash =
      db.findRecentEmailCheck orgId hash now := by
  have same : (fun c : EmailCheck => decide (c.emailHash = hash) && decide (c.emailHash ∈ hashes)) =
      fun c => decide (c.emailHash = hash) := by
    funext c
    by_cases has : c.emailHash = hash <;> simp [has, asked]
  rw [Database.findRecentEmailChecksByHashes, Database.findRecentEmailCheck,
    ← List.head?_filter, filter_recentEmailChecks, same]

/-- Checks of other addresses do not change what a lookup finds. -/
theorem findRecentEmailCheck_append (db : Database) (orgId : Uuid) (now : Date) {hash : String}
    {added : List EmailCheck} (other : ∀ c ∈ added, c.emailHash ≠ hash) :
    { db with emailChecks := db.emailChecks ++ added }.findRecentEmailCheck orgId hash now =
      db.findRecentEmailCheck orgId hash now := by
  have none_ : added.filter (fun c => decide (c.emailHash = hash) &&
      decide (c.Reusable orgId now)) = [] :=
    List.filter_eq_nil_iff.2 fun c member => by simp [other c member]
  rw [Database.findRecentEmailCheck, Database.recentEmailChecks, List.filter_append, none_,
    List.append_nil, Database.findRecentEmailCheck, Database.recentEmailChecks]

/-- A row for `insertBatchEmailChecks`. -/
structure BatchEmailCheck where
  check : NewEmailCheckInput
  expiresAt : Timestamp
  deriving DecidableEq, Repr

/-- `insertBatchEmailChecks`: one statement, so all rows go in or none. -/
def insertBatchEmailChecks (rows : List (BatchEmailCheck × Uuid)) (createdAt : Timestamp) :
    Tx Unit :=
  rows.forM fun row => do
    let _ ← insertEmailCheck row.1.check row.2 createdAt row.1.expiresAt
    return ()

/-- The row that `insertBatchEmailChecks` writes for one of its inputs. -/
def BatchEmailCheck.Written (createdAt : Timestamp) (row : BatchEmailCheck × Uuid)
    (check : EmailCheck) : Prop :=
  ∃ fits : row.1.check.Fits, check = row.1.check.row fits row.2 createdAt row.1.expiresAt

theorem written_map_eq {β : Type} {createdAt : Timestamp} {rows : List (BatchEmailCheck × Uuid)}
    {added : List EmailCheck} {f : EmailCheck → β} {g : BatchEmailCheck × Uuid → β}
    (written : List.Forall₂ (BatchEmailCheck.Written createdAt) rows added)
    (same : ∀ row check, BatchEmailCheck.Written createdAt row check → f check = g row) :
    added.map f = rows.map g := by
  induction written with
  | nil => rfl
  | cons here _ ih => rw [List.map_cons, List.map_cons, ih, same _ _ here]

theorem written_fits {createdAt : Timestamp} {rows : List (BatchEmailCheck × Uuid)}
    {added : List EmailCheck}
    (written : List.Forall₂ (BatchEmailCheck.Written createdAt) rows added) :
    ∀ row ∈ rows, row.1.check.Fits := by
  induction written with
  | nil => exact List.forall_mem_nil _
  | cons here _ ih => exact List.forall_mem_cons.2 ⟨here.1, ih⟩

theorem insertBatchEmailChecks_cons (row : BatchEmailCheck × Uuid)
    (rows : List (BatchEmailCheck × Uuid)) (createdAt : Timestamp) :
    insertBatchEmailChecks (row :: rows) createdAt =
      (do
        let _ ← insertEmailCheck row.1.check row.2 createdAt row.1.expiresAt
        return ()) >>= fun _ => insertBatchEmailChecks rows createdAt := rfl

/-- **A bulk insert** that commits has added the row of every input, in order. -/
theorem insertBatchEmailChecks_commits {rows : List (BatchEmailCheck × Uuid)}
    {createdAt : Timestamp} {db db' : Database} {u : Unit}
    (commits : Txn.Commits (insertBatchEmailChecks rows createdAt) db u db') :
    ∃ added, List.Forall₂ (BatchEmailCheck.Written createdAt) rows added ∧
      db' = { db with emailChecks := db.emailChecks ++ added } := by
  induction rows generalizing db with
  | nil =>
      obtain ⟨-, rfl⟩ := (Txn.commits_pure _ _ _ _).1 commits
      exact ⟨[], .nil, by rw [List.append_nil]⟩
  | cons row rows ih =>
      simp only [insertBatchEmailChecks_cons, Txn.commits_bind, Txn.commits_pure] at commits
      obtain ⟨_, _, ⟨check, _, inserted, -, rfl⟩, rest⟩ := commits
      obtain ⟨fits, rfl, rfl⟩ := insertEmailCheck_commits inserted
      obtain ⟨added, written, rfl⟩ := ih rest
      exact ⟨_ :: added, .cons ⟨fits, rfl⟩ written, by simp⟩

/-- With fresh ids a bulk insert commits exactly when every row fits. -/
theorem insertBatchEmailChecks_iff {rows : List (BatchEmailCheck × Uuid)}
    {createdAt : Timestamp} {db : Database} (distinct : (rows.map (·.2)).Nodup)
    (fresh : ∀ row ∈ rows, ∀ c ∈ db.emailChecks, c.id ≠ row.2) :
    (∃ db', Txn.Commits (insertBatchEmailChecks rows createdAt) db () db') ↔
      ∀ row ∈ rows, row.1.check.Fits := by
  induction rows generalizing db with
  | nil =>
      have empty : Txn.Commits (insertBatchEmailChecks [] createdAt) db () db :=
        (Txn.commits_pure _ _ _ _).2 ⟨rfl, rfl⟩
      exact ⟨fun _ => List.forall_mem_nil _, fun _ => ⟨db, empty⟩⟩
  | cons row rows ih =>
      obtain ⟨new, distinct⟩ := List.nodup_cons.1 distinct
      obtain ⟨freshHere, freshRest⟩ := List.forall_mem_cons.1 fresh
      rw [List.forall_mem_cons]
      simp only [insertBatchEmailChecks_cons, Txn.commits_bind, Txn.commits_pure]
      have inserts : ∀ fits : row.1.check.Fits,
          Txn.Commits (insertEmailCheck row.1.check row.2 createdAt row.1.expiresAt) db
            (row.1.check.row fits row.2 createdAt row.1.expiresAt)
            { db with emailChecks :=
              db.emailChecks ++ [row.1.check.row fits row.2 createdAt row.1.expiresAt] } := by
        intro fits
        simpa [insertEmailCheck, fits] using freshHere
      have later : ∀ fits : row.1.check.Fits, ∀ r ∈ rows,
          ∀ c ∈ { db with emailChecks :=
            db.emailChecks ++ [row.1.check.row fits row.2 createdAt row.1.expiresAt] }.emailChecks,
            c.id ≠ r.2 := by
        intro fits r member c inside
        rcases List.mem_append.1 inside with old | added
        · exact freshRest r member c old
        · obtain rfl := List.mem_singleton.1 added
          intro same
          exact new (List.mem_map.2 ⟨r, member, same.symm⟩)
      constructor
      · rintro ⟨db', _, _, ⟨check, _, inserted, -, rfl⟩, rest⟩
        obtain ⟨fits, rfl, rfl⟩ := insertEmailCheck_commits inserted
        exact ⟨fits, (ih distinct (later fits)).1 ⟨db', rest⟩⟩
      · rintro ⟨fits, rest⟩
        obtain ⟨db', commits⟩ := (ih distinct (later fits)).2 rest
        exact ⟨db', (), _, ⟨_, _, inserts fits, trivial, rfl⟩, commits⟩

end Tozalist.Db
