/-
# Tozalist.Credits.Standing -- one batch, as the database has it

What the rows of a batch say together: the status while the batch has a row, whether
anything was given back, and the sum of its ledger rows.  Each operation on batches is
one function on these three (`Standing.claim`, `.complete`, `.fail`, `.withdraw`,
`.remove`) for the batch it names, and changes nothing for any other
(`standing_of_claim` and the lemmas after it).
-/
import Tozalist.Db.Lifecycle

namespace Tozalist.Credits

set_option autoImplicit false

open Db
open Theory (Txn)
open Theory.Table

/-! ## What the rows say -/

/-- The primary key of `batches`. -/
def rowKey (b : Batch) : Option Uuid := some b.id

/-- The row of a batch. -/
def rowOf (db : Database) (id : Uuid) : Option Batch := lookup rowKey id db.batches

theorem rowOf_id {db : Database} {id : Uuid} {b : Batch} (found : rowOf db id = some b) :
    b ∈ db.batches ∧ b.id = id := by
  obtain ⟨member, key⟩ := mem_of_lookup found
  exact ⟨member, Option.some.inj key⟩

/-- The status of a batch, whether it was given anything back, and what it has paid. -/
structure Standing where
  status : Option BatchStatus
  refunded : Bool
  net : Int
  deriving DecidableEq, Repr

def standing (db : Database) (orgId batchId : Uuid) : Standing where
  status := (rowOf db batchId).map (·.status)
  refunded := decide (Taken refKey (refunded orgId batchId) db.creditLedger)
  net := net orgId batchId db.creditLedger

namespace Standing

/-- A claim that was won. -/
def claim (s : Standing) : Standing := { s with status := some .processing }

/-- A completion, giving back what was not charged. -/
def complete (charged reserved : ℕ) (s : Standing) : Standing :=
  { status := s.status.map fun _ => .done
    refunded := s.refunded || decide (charged < reserved)
    net := s.net + (reserved - charged : ℕ) }

/-- A refund of the whole reservation, unless something was given back. -/
def giveBack (reserved : ℕ) (s : Standing) : Standing :=
  { s with
    refunded := true
    net := if s.refunded then s.net else s.net + reserved }

/-- A failure. -/
def fail (reserved : ℕ) (s : Standing) : Standing :=
  { (if 0 < reserved then s.giveBack reserved else s) with
    status := s.status.map fun _ => .failed }

/-- The row is gone. -/
def remove (s : Standing) : Standing := { s with status := none }

/-- A deletion before anybody claimed the batch. -/
def withdraw (reserved : ℕ) (s : Standing) : Standing := (s.giveBack reserved).remove

end Standing

/-! ## Ledger rows -/

section Ledger

variable {rows : List CreditLedgerEntry} {orgId batchId : Uuid}

theorem net_eq_zero (reserved : ¬ Taken refKey (held orgId batchId) rows)
    (released : ¬ Taken refKey (refunded orgId batchId) rows) : net orgId batchId rows = 0 := by
  rw [net, total_eq_zero_of_free reserved, total_eq_zero_of_free released, add_zero]

/-- A refund of the batch itself adds its amount. -/
theorem net_append_refund (amount : Int) (note : String) (draw : Draw) :
    net orgId batchId (rows ++ [refundEntry orgId batchId amount note draw]) =
      net orgId batchId rows + amount := by
  simp [net, refundEntry, refKey, held, refunded, refundReference_ne_text]
  omega

/-- Its reservation takes off its rows. -/
theorem net_append_reservation (totalRows : ℕ) (draw : Draw) :
    net orgId batchId (rows ++ [reservationEntry orgId batchId totalRows draw]) =
      net orgId batchId rows - totalRows := by
  have other : refundReference batchId ≠ batchId.text := refundReference_ne_text _ _
  simp [net, reservationEntry, refKey, held, refunded, other.symm]
  omega

theorem conflicts_refundEntry {amount : Int} {note : String} {draw : Draw} :
    Conflicts (refundEntry orgId batchId amount note draw) rows ↔
      Taken refKey (refunded orgId batchId) rows := by
  simp [Conflicts]

end Ledger

section Entry

variable {db : Database} {orgId batchId : Uuid} {entry : CreditLedgerEntry}

/-- A ledger row of something else. -/
theorem standing_withEntry_of_ne (other : refKey entry ≠ some (held orgId batchId))
    (another : refKey entry ≠ some (refunded orgId batchId)) :
    standing (db.withEntry entry) orgId batchId = standing db orgId batchId := by
  simp only [standing, rowOf, withEntry_batches, withEntry_creditLedger, taken_append,
    taken_singleton, another, or_false, net_append_of_ne other another]

/-- A refund of the batch. -/
theorem standing_withEntry_refund (amount : Int) (note : String) (draw : Draw) :
    standing (db.withEntry (refundEntry orgId batchId amount note draw)) orgId batchId =
      { standing db orgId batchId with
        refunded := true
        net := (standing db orgId batchId).net + amount } := by
  simp only [standing, rowOf, withEntry_batches, withEntry_creditLedger, net_append_refund,
    taken_append, taken_singleton, refKey_refundEntry, or_true, decide_true]

/-- A refund of another batch. -/
theorem standing_withEntry_refund_of_ne {orgId' batchId' : Uuid} (other : batchId ≠ batchId')
    (amount : Int) (note : String) (draw : Draw) :
    standing (db.withEntry (refundEntry orgId' batchId' amount note draw)) orgId batchId =
      standing db orgId batchId := by
  refine standing_withEntry_of_ne ?_ ?_
  · simp
  · intro same
    exact other (refunded_inj.1 (Option.some.inj same)).2.symm

end Entry

/-! ## Rows of the batch table -/

section Rows

variable {db : Database} {orgId batchId id : Uuid}

/-- With the ledger left alone only the status can have changed. -/
theorem standing_of_status {db' : Database} {status : Option BatchStatus}
    (row : (rowOf db' batchId).map (·.status) = status)
    (ledger : db'.creditLedger = db.creditLedger) :
    standing db' orgId batchId = { standing db orgId batchId with status := status } := by
  simp only [standing, row, ledger]

theorem standing_congr {db' : Database} (batches : db'.batches = db.batches)
    (ledger : db'.creditLedger = db.creditLedger) :
    standing db' orgId batchId = standing db orgId batchId := by
  have row : (rowOf db' batchId).map (·.status) = (rowOf db batchId).map (·.status) := by
    rw [rowOf, rowOf, batches]
  exact standing_of_status row ledger

/-- An update that keeps the ids. -/
theorem rowOf_update (p : Batch → Prop) [DecidablePred p] {f : Batch → Batch}
    (keeps : ∀ b, (f b).id = b.id) :
    rowOf (db.updateBatches p f) id = (rowOf db id).map fun b => if p b then f b else b := by
  apply lookup_map
  intro b
  show some _ = some _
  split
  · exact congrArg some (keeps b)
  · rfl

/-- An update of the row by its id. -/
theorem rowOf_updateById {f : Batch → Batch} (keeps : ∀ b, (f b).id = b.id) :
    rowOf (db.updateBatches (fun b => b.id = id) f) id = (rowOf db id).map f := by
  rw [rowOf_update _ keeps]
  exact Option.map_congr fun b found => if_pos (rowOf_id found).2

/-- An update of rows with another id. -/
theorem standing_update_of_ne (p : Batch → Prop) [DecidablePred p] {f : Batch → Batch}
    (keeps : ∀ b, (f b).id = b.id) (only : ∀ b, p b → b.id ≠ batchId) :
    standing (db.updateBatches p f) orgId batchId = standing db orgId batchId := by
  have same : (rowOf (db.updateBatches p f) batchId).map (·.status) =
      (rowOf db batchId).map (·.status) := by
    rw [rowOf_update p keeps]
    cases found : rowOf db batchId with
    | none => rfl
    | some b =>
        have here : ¬ p b := fun selected => only b selected (rowOf_id found).2
        simp [here]
  exact standing_of_status same rfl

/-- An update of the row by its id, to one status. -/
theorem standing_updateById {f : Batch → Batch} {status : BatchStatus}
    (keeps : ∀ b, (f b).id = b.id) (sets : ∀ b, (f b).status = status) :
    standing (db.updateBatches (fun b => b.id = batchId) f) orgId batchId =
      { standing db orgId batchId with
        status := (standing db orgId batchId).status.map fun _ => status } := by
  have changed : (rowOf (db.updateBatches (fun b => b.id = batchId) f) batchId).map (·.status) =
      ((rowOf db batchId).map (·.status)).map fun _ => status := by
    rw [rowOf_updateById keeps, Option.map_map, Option.map_map]
    exact Option.map_congr fun b _ => sets b
  exact standing_of_status changed rfl

/-- A deletion keeps the row of a batch or takes it. -/
theorem rowOf_delete (unique : Unique rowKey db.batches) (p : Batch → Prop) [DecidablePred p] :
    rowOf (db.deleteBatches p) id = (rowOf db id).filter fun b => ¬ p b :=
  unique.lookup_filter _

theorem standing_delete_of_not (unique : Unique rowKey db.batches) (p : Batch → Prop)
    [DecidablePred p] (spared : ∀ b ∈ rowOf db batchId, ¬ p b) :
    standing (db.deleteBatches p) orgId batchId = standing db orgId batchId := by
  have same : rowOf (db.deleteBatches p) batchId = rowOf db batchId := by
    rw [rowOf_delete unique]
    cases found : rowOf db batchId with
    | none => rfl
    | some b => simp [spared b found]
  exact standing_of_status (congrArg _ same) rfl

theorem standing_delete (unique : Unique rowKey db.batches) (p : Batch → Prop)
    [DecidablePred p] (taken : ∀ b ∈ rowOf db batchId, p b) :
    standing (db.deleteBatches p) orgId batchId = (standing db orgId batchId).remove := by
  have gone : rowOf (db.deleteBatches p) batchId = none := by
    rw [rowOf_delete unique]
    cases found : rowOf db batchId with
    | none => rfl
    | some b => simp [taken b found]
  exact standing_of_status (congrArg _ gone) rfl

theorem unique_update (unique : Unique rowKey db.batches) (p : Batch → Prop) [DecidablePred p]
    {f : Batch → Batch} (keeps : ∀ b, (f b).id = b.id) :
    Unique rowKey (db.updateBatches p f).batches := by
  apply unique.map _
  intro b
  show some _ = some _
  split
  · exact congrArg some (keeps b)
  · rfl

end Rows

/-! ## What one operation can reach -/

/-- Every batch row of `db'` is a row of `db`, up to columns nobody owes credits for. -/
def Inherits (db db' : Database) : Prop :=
  ∀ b' ∈ db'.batches, ∃ b ∈ db.batches,
    b.orgId = b'.orgId ∧ b.id = b'.id ∧ b.totalRows = b'.totalRows

theorem Inherits.refl {db db' : Database} (same : db'.batches = db.batches) : Inherits db db' :=
  fun b' member => ⟨b', same ▸ member, rfl, rfl, rfl⟩

theorem Inherits.update (db : Database) (p : Batch → Prop) [DecidablePred p] {f : Batch → Batch}
    (keeps : ∀ b, (f b).orgId = b.orgId ∧ (f b).id = b.id ∧ (f b).totalRows = b.totalRows) :
    Inherits db (db.updateBatches p f) := by
  intro b' member
  obtain ⟨b, inside, rfl⟩ := List.mem_map.1 member
  refine ⟨b, inside, ?_⟩
  split
  · exact ⟨(keeps b).1.symm, (keeps b).2.1.symm, (keeps b).2.2.symm⟩
  · exact ⟨rfl, rfl, rfl⟩

theorem Inherits.delete (db : Database) (p : Batch → Prop) [DecidablePred p] :
    Inherits db (db.deleteBatches p) :=
  fun b' member => ⟨b', (mem_deleteBatches.1 member).1, rfl, rfl, rfl⟩

/-- What a step between two databases can have touched: the batches of `ids`, with
refunds to `payee`.  Every other batch that was reserved for stands as it did. -/
structure Confined (ids : Uuid → Prop) (payee : Option Uuid) (db db' : Database) : Prop where
  others : ∀ o i, Taken refKey (held o i) db.creditLedger → ¬ ids i →
    standing db' o i = standing db o i
  unique : Unique rowKey db'.batches
  inherits : Inherits db db'
  ledger : ∀ k, Taken refKey k db.creditLedger → Taken refKey k db'.creditLedger
  refunds : ∀ o i, Taken refKey (refunded o i) db'.creditLedger →
    Taken refKey (refunded o i) db.creditLedger ∨ (payee = some o ∧ ids i)
  active : ∀ o, db'.ActiveOrg o → db.ActiveOrg o

section Operations

variable {db db' : Database} {orgId batchId : Uuid} {payee : Option Uuid}

/-- More batches may be touched. -/
theorem Confined.mono {ids ids' : Uuid → Prop} (confined : Confined ids payee db db')
    (more : ∀ i, ids i → ids' i) : Confined ids' payee db db' :=
  { confined with
    others := fun o i reserved other => confined.others o i reserved fun h => other (more i h)
    refunds := fun o i taken => (confined.refunds o i taken).imp_right fun h =>
      ⟨h.1, more i h.2⟩ }

/-- Only batches, ledger and organisations matter. -/
theorem Confined.congr {ids : Uuid → Prop} {db'' : Database}
    (confined : Confined ids payee db db') (batches : db''.batches = db'.batches)
    (ledger : db''.creditLedger = db'.creditLedger)
    (organizations : db''.organizations = db'.organizations) : Confined ids payee db db'' where
  others := by
    intro o i reserved other
    rw [standing_congr batches ledger]
    exact confined.others o i reserved other
  unique := by
    rw [batches]
    exact confined.unique
  inherits := by
    rw [Inherits, batches]
    exact confined.inherits
  ledger := by
    rw [ledger]
    exact confined.ledger
  refunds := by
    rw [ledger]
    exact confined.refunds
  active := by
    intro o active
    rw [Database.ActiveOrg, organizations] at active
    exact confined.active o active

/-- Neither batches nor ledger changed. -/
theorem Confined.aside (unique : Unique rowKey db.batches) (batches : db'.batches = db.batches)
    (ledger : db'.creditLedger = db.creditLedger)
    (active : ∀ o, db'.ActiveOrg o → db.ActiveOrg o) (ids : Uuid → Prop) :
    Confined ids payee db db' where
  others := by
    intro o i _ _
    exact standing_congr batches ledger
  unique := by
    rw [batches]
    exact unique
  inherits := .refl batches
  ledger := fun k taken => ledger.symm ▸ taken
  refunds := fun o i taken => .inl (ledger ▸ taken)
  active := active

/-- A ledger row under a fresh reference, which is no refund. -/
theorem Confined.entry (unique : Unique rowKey db.batches) (batches : db'.batches = db.batches)
    {entry : CreditLedgerEntry} (ledger : db'.creditLedger = db.creditLedger ++ [entry])
    (organizations : db'.organizations = db.organizations)
    (fresh : ¬ Conflicts entry db.creditLedger)
    (other : ∀ o i, refKey entry ≠ some (refunded o i)) (ids : Uuid → Prop) :
    Confined ids payee db db' where
  others := by
    intro o i reserved _
    have notHeld : refKey entry ≠ some (held o i) := fun same => fresh ⟨_, same, reserved⟩
    have same : standing db' o i = standing (db.withEntry entry) o i :=
      standing_congr batches ledger
    rw [same, standing_withEntry_of_ne notHeld (other o i)]
  unique := by
    rw [batches]
    exact unique
  inherits := .refl batches
  ledger := by
    intro k taken
    rw [ledger]
    exact (taken_append [entry]).2 (.inl taken)
  refunds := by
    intro o i taken
    rw [ledger] at taken
    rcases (taken_append [entry]).1 taken with before | now
    · exact .inl before
    · exact absurd (taken_singleton.1 now) (other o i)
  active := by
    intro o active
    rwa [Database.ActiveOrg, organizations] at active

/-- An update of the row by its id. -/
theorem Confined.update (unique : Unique rowKey db.batches) (p : Batch → Prop) [DecidablePred p]
    {f : Batch → Batch} (only : ∀ b, p b → b.id = batchId)
    (keeps : ∀ b, (f b).orgId = b.orgId ∧ (f b).id = b.id ∧ (f b).totalRows = b.totalRows) :
    Confined (· = batchId) payee db (db.updateBatches p f) where
  others := by
    intro o i _ other
    refine standing_update_of_ne p (fun b => (keeps b).2.1) fun b selected here => other ?_
    rw [← here, only b selected]
  unique := unique_update unique p fun b => (keeps b).2.1
  inherits := .update db p keeps
  ledger := fun _ => id
  refunds := fun _ _ => .inl
  active := fun _ => id

/-- A removal of rows. -/
theorem Confined.delete (unique : Unique rowKey db.batches) (p : Batch → Prop)
    [DecidablePred p] :
    Confined (fun i => ∃ b ∈ db.batches, b.id = i ∧ p b) payee db (db.deleteBatches p) where
  others := by
    intro o i _ other
    refine standing_delete_of_not unique p fun b found selected => other ?_
    exact ⟨b, (rowOf_id found).1, (rowOf_id found).2, selected⟩
  unique := unique.filter _
  inherits := .delete db p
  ledger := fun _ => id
  refunds := fun _ _ => .inl
  active := fun _ => id

/-- A refund on top. -/
theorem Confined.refund (confined : Confined (· = batchId) (some orgId) db db') (amount : Int)
    (note : String) (draw : Draw) :
    Confined (· = batchId) (some orgId) db
      (db'.withEntry (refundEntry orgId batchId amount note draw)) where
  others := by
    intro o i reserved other
    rw [standing_withEntry_refund_of_ne other]
    exact confined.others o i reserved other
  unique := confined.unique
  inherits := confined.inherits
  ledger := fun k taken => (taken_append _).2 (.inl (confined.ledger k taken))
  refunds := by
    intro o i taken
    rcases (taken_append _).1 taken with before | now
    · exact confined.refunds o i before
    · have same : refKey (refundEntry orgId batchId amount note draw) = _ := taken_singleton.1 now
      obtain ⟨rfl, rfl⟩ := refunded_inj.1 (Option.some.inj same)
      exact .inr ⟨rfl, rfl⟩
  active := confined.active

theorem claim_id (b : Batch) : b.claim.id = b.id := rfl

theorem complete_id (input : CompleteBatchInput) (now : Date) (b : Batch) :
    (b.complete input now).id = b.id := rfl

theorem fail_id (error : String) (b : Batch) : (b.fail error).id = b.id := rfl

/-- **A claim**, won or lost. -/
theorem claimBatch_standing (unique : Unique rowKey db.batches) (batchId : Uuid)
    (payee : Option Uuid) :
    ∃ result db', Txn.transaction (claimBatchForProcessing batchId) db = (.ok result, db') ∧
      Confined (· = batchId) payee db db' ∧
      ((result.batch? = none ∧ db' = db ∧
          ∀ b, rowOf db batchId = some b → ¬ b.status.Claimable) ∨
        ∃ row, rowOf db batchId = some row ∧ row.status.Claimable ∧
          result.batch? = some row.claim ∧ rowOf db' batchId = some row.claim ∧
          ∀ o, standing db' o batchId = (standing db o batchId).claim) := by
  obtain ⟨result, ⟨commits, nothing, spared⟩ | ⟨row, member, here, claimable, won, commits⟩⟩ :=
    claimBatchForProcessing_commits batchId db
  · exact ⟨result, db, Txn.transaction_of_commits commits,
      .aside unique rfl rfl (fun _ => id) _, .inl ⟨nothing, rfl, fun b found =>
        spared b (rowOf_id found).1 (rowOf_id found).2⟩⟩
  · have found : rowOf db batchId = some row := unique.lookup_eq member (congrArg some here)
    have claimed : rowOf (db.updateBatches (fun b => b.id = batchId ∧ b.status.Claimable)
        Batch.claim) batchId = some row.claim := by
      rw [rowOf_update _ claim_id, found, Option.map_some,
        if_pos ⟨here, claimable⟩]
    refine ⟨result, _, Txn.transaction_of_commits commits,
      .update unique _ (fun _ selected => selected.1) fun _ => ⟨rfl, rfl, rfl⟩,
      .inr ⟨row, found, claimable, won, claimed, ?_⟩⟩
    intro o
    exact standing_of_status (by rw [claimed]; rfl) rfl

/-- **A completion** gives back what was not charged, when nothing was given back before. -/
theorem completeBatch_standing (unique : Unique rowKey db.batches) {input : CompleteBatchInput}
    {draw : Draw} {now : Date} {u : Unit}
    (commits : Txn.Commits (completeBatch input draw now) db u db') :
    Confined (· = input.batchId) (some input.orgId) db db' ∧
      (input.chargedCredits < input.reservedCredits →
        (standing db input.orgId input.batchId).refunded = false) ∧
      standing db' input.orgId input.batchId =
        (standing db input.orgId input.batchId).complete input.chargedCredits
          input.reservedCredits := by
  have marked : Confined (· = input.batchId) (some input.orgId) db (db.completed input now) :=
    .update unique _ (fun _ => id) fun _ => ⟨rfl, rfl, rfl⟩
  have done : standing (db.completed input now) input.orgId input.batchId = _ :=
    standing_updateById (fun _ => rfl) fun _ => rfl
  rcases completeBatch_commits.1 commits with ⟨full, rfl⟩ | ⟨partial_, -, fresh, rfl⟩
  · refine ⟨marked, fun partial_ => absurd full (not_le.2 partial_), ?_⟩
    rw [done]
    simp [Standing.complete, not_lt.2 full, Nat.sub_eq_zero_of_le full]
  · rw [conflicts_refundEntry] at fresh
    refine ⟨marked.refund _ _ _, fun _ => by simpa [standing] using fresh, ?_⟩
    have amount : (input.reservedCredits : Int) - input.chargedCredits =
        ((input.reservedCredits - input.chargedCredits : ℕ) : Int) := by omega
    rw [standing_withEntry_refund, done]
    simp [Standing.complete, partial_, amount]

/-- The row of a completed batch. -/
theorem completeBatch_row {input : CompleteBatchInput} {draw : Draw} {now : Date} {u : Unit}
    (commits : Txn.Commits (completeBatch input draw now) db u db') :
    rowOf db' input.batchId = (rowOf db input.batchId).map (Batch.complete input now) := by
  have completed : rowOf (db.completed input now) input.batchId =
      (rowOf db input.batchId).map (Batch.complete input now) :=
    rowOf_updateById (complete_id input now)
  rcases completeBatch_commits.1 commits with ⟨-, rfl⟩ | ⟨-, -, -, rfl⟩
  · exact completed
  · exact completed

/-- **A failure** gives the reservation back, unless something was given back before. -/
theorem failBatch_standing (unique : Unique rowKey db.batches) {input : FailBatchInput}
    {draw : Draw} {u : Unit} (commits : Txn.Commits (failBatch input draw) db u db') :
    Confined (· = input.batchId) (some input.orgId) db db' ∧
      standing db' input.orgId input.batchId =
        (standing db input.orgId input.batchId).fail input.reservedCredits := by
  have marked : Confined (· = input.batchId) (some input.orgId) db (db.failed input) :=
    .update unique _ (fun _ => id) fun _ => ⟨rfl, rfl, rfl⟩
  have failed : standing (db.failed input) input.orgId input.batchId = _ :=
    standing_updateById (fun _ => rfl) fun _ => rfl
  rcases failBatch_commits.1 commits with
    ⟨zero, rfl⟩ | ⟨some_, -, ⟨taken, rfl⟩ | ⟨fresh, rfl⟩⟩
  · refine ⟨marked, ?_⟩
    rw [failed]
    simp [Standing.fail, zero]
  · rw [conflicts_refundEntry] at taken
    refine ⟨marked, ?_⟩
    rw [failed]
    simp [Standing.fail, Standing.giveBack, standing, taken, some_]
  · rw [conflicts_refundEntry] at fresh
    refine ⟨marked.refund _ _ _, ?_⟩
    rw [standing_withEntry_refund, failed]
    simp [Standing.fail, Standing.giveBack, standing, fresh, some_]

/-- The row of a failed batch. -/
theorem failBatch_row {input : FailBatchInput} {draw : Draw} {u : Unit}
    (commits : Txn.Commits (failBatch input draw) db u db') :
    rowOf db' input.batchId = (rowOf db input.batchId).map (Batch.fail input.error) := by
  have failed : rowOf (db.failed input) input.batchId =
      (rowOf db input.batchId).map (Batch.fail input.error) :=
    rowOf_updateById (fail_id input.error)
  rcases failBatch_commits.1 commits with ⟨-, rfl⟩ | ⟨-, -, ⟨-, rfl⟩ | ⟨-, rfl⟩⟩
  · exact failed
  · exact failed
  · exact failed

/-- A failure of a reservation that fits its column always commits. -/
theorem failBatch_effective (input : FailBatchInput) (draw : Draw)
    (small : Int4 input.reservedCredits) (db : Database) :
    ∃ db', Txn.Commits (failBatch input draw) db () db' := by
  rcases Nat.eq_zero_or_pos input.reservedCredits with zero | some_
  · exact ⟨_, failBatch_commits.2 (.inl ⟨zero, rfl⟩)⟩
  · by_cases taken : Conflicts (refundEntry input.orgId input.batchId input.reservedCredits
        failureNote draw) db.creditLedger
    · exact ⟨_, failBatch_commits.2 (.inr ⟨some_, small, .inl ⟨taken, rfl⟩⟩)⟩
    · exact ⟨_, failBatch_commits.2 (.inr ⟨some_, small, .inr ⟨taken, rfl⟩⟩)⟩

/-- **A deletion** takes a batch at its end, or one nobody claimed and gives its
reservation back. -/
theorem deleteBatch_standing (unique : Unique rowKey db.batches) {draw : Draw}
    {result : DeleteBatchResult}
    (commits : Txn.Commits (deleteBatchForOrg batchId orgId draw) db result db') :
    db' = db ∨ ∃ row, rowOf db batchId = some row ∧ row.orgId = orgId ∧
      Confined (· = batchId) (some orgId) db db' ∧
      ((row.status.Terminal ∧
          standing db' orgId batchId = (standing db orgId batchId).remove) ∨
        (row.status.Claimable ∧
          standing db' orgId batchId =
            (standing db orgId batchId).withdraw row.totalRows)) := by
  have only : ∀ db : Database, ∀ b ∈ rowOf db batchId, b.id = batchId :=
    fun db b found => (rowOf_id found).2
  have removed :
      Confined (· = batchId) (some orgId) db (db.deleteBatches fun b => b.id = batchId) :=
    (Confined.delete unique _).mono fun i ⟨b, _, here, selected⟩ => here ▸ selected
  rcases deleteBatchForOrg_commits commits with
    same | ⟨row, member, here, owner, ⟨ended, rfl⟩ | ⟨claimable, -, ⟨taken, rfl⟩ | ⟨fresh, rfl⟩⟩⟩
  · exact .inl same
  all_goals
    have found : rowOf db batchId = some row := unique.lookup_eq member (congrArg some here)
    refine .inr ⟨row, found, owner, ?_⟩
  · exact ⟨removed, .inl ⟨ended, standing_delete unique _ (only db)⟩⟩
  · rw [conflicts_refundEntry] at taken
    refine ⟨removed, .inr ⟨claimable, ?_⟩⟩
    rw [standing_delete unique _ (only db)]
    simp [Standing.withdraw, Standing.giveBack, Standing.remove, standing, taken]
  · rw [conflicts_refundEntry] at fresh
    refine ⟨removed.refund _ _ _, .inr ⟨claimable, ?_⟩⟩
    rw [standing_delete (by exact unique) _ (only _), standing_withEntry_refund]
    simp [Standing.withdraw, Standing.giveBack, Standing.remove, standing, fresh]

/-- The database after a creation: the row and its reservation. -/
def withReservation (db : Database) (row : Batch) (draw : Draw) : Database :=
  { db.withEntry (reservationEntry row.orgId row.id row.totalRows draw) with
    batches := db.batches ++ [row] }

theorem rowOf_withReservation (row : Batch) (draw : Draw) (i : Uuid) :
    rowOf (withReservation db row draw) i =
      (rowOf db i).or (if row.id = i then some row else none) := by
  have key : (rowKey row = some i) = (row.id = i) := by simp [rowKey]
  simp only [rowOf, withReservation, lookup_append_singleton, key]

/-- **A creation** leaves the other batches alone. -/
theorem standing_withReservation_of_ne {row : Batch} (other : batchId ≠ row.id) (draw : Draw) :
    standing (withReservation db row draw) orgId batchId = standing db orgId batchId := by
  have same : rowOf (withReservation db row draw) batchId = rowOf db batchId := by
    rw [rowOf_withReservation, if_neg (Ne.symm other), Option.or_none]
  have notHeld : refKey (reservationEntry row.orgId row.id row.totalRows draw) ≠
      some (held orgId batchId) := by
    intro clash
    exact other (held_inj.1 (Option.some.inj clash)).2.symm
  calc standing (withReservation db row draw) orgId batchId
      = standing (db.withEntry (reservationEntry row.orgId row.id row.totalRows draw)) orgId
          batchId := standing_of_status (congrArg _ same) rfl
    _ = standing db orgId batchId := standing_withEntry_of_ne notHeld (by simp)

/-- **A creation** of a batch nobody knew. -/
theorem standing_withReservation {row : Batch} {draw : Draw}
    (free : ∀ b ∈ db.batches, b.id ≠ row.id)
    (fresh : ¬ Taken refKey (held row.orgId row.id) db.creditLedger)
    (unpaid : ¬ Taken refKey (refunded row.orgId row.id) db.creditLedger) :
    standing (withReservation db row draw) row.orgId row.id =
      ⟨some row.status, false, -row.totalRows⟩ := by
  have missing : rowOf db row.id = none := by
    refine lookup_eq_none.2 fun ⟨b, member, key⟩ => ?_
    exact free b member (Option.some.inj key)
  have zero := net_eq_zero fresh unpaid
  have ledger : (withReservation db row draw).creditLedger = db.creditLedger ++
      [reservationEntry row.orgId row.id row.totalRows draw] := rfl
  rw [standing, Standing.mk.injEq, rowOf_withReservation, missing, if_pos rfl, ledger]
  refine ⟨rfl, ?_, ?_⟩
  · simp [unpaid]
  · rw [net_append_reservation, zero, zero_sub]

end Operations

end Tozalist.Credits
