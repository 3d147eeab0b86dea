/-
# Tozalist.Credits.Safety -- credits over every run

A world is the database and a record of the batches created so far.  Its actions are
the eight operations that move credits or take a batch further, each one transaction,
called in any order, as often as one likes and with whatever ids and amounts: a
settlement only has to be for a batch that was created, with its own organisation and
total, and to charge at most that total.

Every run is a path of the account book (`run_represents`): each action is no step of
it or one.  `credit_safety` reads off what that means for the ledger.
-/
import Tozalist.Credits.Book
import Tozalist.Theory.Run

namespace Tozalist.Credits

set_option autoImplicit false

open Db
open Theory (Run Reachable StepOf Executable Txn)
open Theory.Table
open Theory.Escrow (Hold Book Step Path)

/-- A batch that was created: whose, under which id, and of how many rows. -/
structure Created where
  orgId : Uuid
  batchId : Uuid
  totalRows : ℕ
  deriving DecidableEq, Repr

/-- The batch a row stands for. -/
def rowCreated (b : Batch) : Created := ⟨b.orgId, b.id, b.totalRows⟩

/-- The failure the upload route reports when the queue refuses a job. -/
def queueUnavailable (c : Created) : FailBatchInput :=
  ⟨c.batchId, c.orgId, c.totalRows, "queue_unavailable"⟩

/-- The failure a worker reports. -/
def failInput (b : Batch) (error : String) : FailBatchInput :=
  ⟨b.id, b.orgId, b.totalRows, error⟩

structure World where
  db : Database
  created : List Created

/-- The operations on credits and batches, with their arguments. -/
inductive Action where
  | grant (input : GrantInput) (draw : Draw) (now : Date)
  | emailCheck (input : NewEmailCheckInput) (draw : Draw) (now : Date)
  | phoneCheck (input : NewPhoneCheckInput) (draw : Draw) (now : Date)
  | createBatch (input : CreateBatchInput) (draw : Draw) (now : Date)
  | claimBatch (id : Uuid)
  | completeBatch (input : CompleteBatchInput) (draw : Draw) (now : Date)
  | failBatch (input : FailBatchInput) (draw : Draw)
  | deleteBatch (id orgId : Uuid) (draw : Draw)

variable (sha256Hex : JsString → String)

/-- What an action leaves of a world. -/
def World.after (w : World) : Action → World
  | .grant input draw now =>
      { w with db := (grantCreditsWithAudit sha256Hex input draw now w.db).2 }
  | .emailCheck input draw now =>
      { w with db := (Txn.transaction (createEmailCheckWithDebit input draw now) w.db).2 }
  | .phoneCheck input draw now =>
      { w with db := (Txn.transaction (createPhoneCheckWithDebit input draw now) w.db).2 }
  | .createBatch input draw now =>
      match Txn.transaction (createBatchWithReservation input draw now) w.db with
      | (.ok (.created _ _), db) =>
          ⟨db, w.created ++ [⟨input.orgId, input.batchId, input.totalRows⟩]⟩
      | (_, db) => { w with db := db }
  | .claimBatch id => { w with db := (Txn.transaction (claimBatchForProcessing id) w.db).2 }
  | .completeBatch input draw now =>
      { w with db := (Txn.transaction (Db.completeBatch input draw now) w.db).2 }
  | .failBatch input draw => { w with db := (Txn.transaction (Db.failBatch input draw) w.db).2 }
  | .deleteBatch id orgId draw =>
      { w with db := (Txn.transaction (deleteBatchForOrg id orgId draw) w.db).2 }

/-- Which calls there are: a batch has rows, and a settlement is of a created batch. -/
def World.Allows (w : World) : Action → Prop
  | .createBatch input _ _ => 1 ≤ input.totalRows
  | .completeBatch input _ _ =>
      ⟨input.orgId, input.batchId, input.reservedCredits⟩ ∈ w.created ∧
        input.chargedCredits ≤ input.reservedCredits
  | .failBatch input _ => ⟨input.orgId, input.batchId, input.reservedCredits⟩ ∈ w.created
  | _ => True

instance (w : World) (a : Action) : Decidable (w.Allows a) := by
  cases a <;> simp only [World.Allows] <;> infer_instance

/-- One call. -/
def step : World → Action → World → Prop := StepOf World.Allows (World.after sha256Hex)

/-- Any organisations and stored checks, no credits and no batches. -/
def Initial (w : World) : Prop :=
  w.db.creditLedger = [] ∧ w.db.batches = [] ∧ w.created = []

/-! ## Every run is a path of the book -/

/-- The world's ledger stands for the book, its holds are the created batches, and every
batch row is of a created batch. -/
structure Related (w : World) (book : CreditBook) : Prop where
  rows : Represents w.db.creditLedger book
  created : ∀ orgId batchId n, ⟨orgId, batchId, n⟩ ∈ w.created ↔ book.HoldsOf orgId batchId n
  batches : ∀ b ∈ w.db.batches, ⟨b.orgId, b.id, b.totalRows⟩ ∈ w.created
  rowed : ∀ c ∈ w.created, 1 ≤ c.totalRows

theorem Inherits.created {db db' : Database} (inherits : Inherits db db') {created : List Created}
    (known : ∀ b ∈ db.batches, ⟨b.orgId, b.id, b.totalRows⟩ ∈ created) :
    ∀ b' ∈ db'.batches, ⟨b'.orgId, b'.id, b'.totalRows⟩ ∈ created := by
  intro b' member
  obtain ⟨b, inside, orgId, id, totalRows⟩ := inherits b' member
  rw [← orgId, ← id, ← totalRows]
  exact known b inside

namespace Related

variable {w : World} {book : CreditBook} {db : Database}

/-- The ledger was not touched. -/
theorem quiet (related : Related w book) (ledger : db.creditLedger = w.db.creditLedger)
    (inherits : Inherits w.db db) : Related { w with db := db } book where
  rows := by
    show Represents db.creditLedger book
    rw [ledger]
    exact related.rows
  created := related.created
  batches := inherits.created related.batches
  rowed := related.rowed

/-- The ledger has one more row, which moves free credits only. -/
theorem moved (related : Related w book) {book' : CreditBook}
    (rows : Represents db.creditLedger book') (same : book'.holds = book.holds)
    (inherits : Inherits w.db db) : Related { w with db := db } book' where
  rows := rows
  created := by
    intro orgId batchId n
    rw [Book.HoldsOf, same]
    exact related.created orgId batchId n
  batches := inherits.created related.batches
  rowed := related.rowed

/-- A refund of a created batch, when its reference was free. -/
theorem refunded (related : Related w book) {orgId batchId : Uuid} {total amount : ℕ}
    {note : String} {draw : Draw} (created : ⟨orgId, batchId, total⟩ ∈ w.created)
    (positive : 0 < amount) (le : amount ≤ total)
    (fresh : ¬ Conflicts (refundEntry orgId batchId amount note draw) w.db.creditLedger)
    (ledger : db.creditLedger =
      w.db.creditLedger ++ [refundEntry orgId batchId amount note draw])
    (inherits : Inherits w.db db) :
    ∃ book', Path book book' ∧ Related { w with db := db } book' := by
  obtain ⟨h, present, rfl⟩ := (related.created _ _ _).1 created
  obtain ⟨unreleased, rows⟩ := related.rows.refund present positive le fresh
  rw [← ledger] at rows
  refine ⟨_, .single (.release book orgId batchId h amount le present unreleased), rows, ?_, ?_,
    related.rowed⟩
  · intro orgId' batchId' n
    rw [Book.holdsOf_release le present]
    exact related.created orgId' batchId' n
  · exact inherits.created related.batches

/-- A transaction is matched when its commits are: a rollback leaves the world alone. -/
theorem transaction {α : Type} {body : Tx α} (related : Related w book)
    (commit : ∀ result db, Txn.Commits body w.db result db →
      ∃ book', Path book book' ∧ Related { w with db := db } book') :
    ∃ book', Path book book' ∧ Related { w with db := (Txn.transaction body w.db).2 } book' := by
  rcases Txn.transaction_store body w.db with same | ⟨result, commits⟩
  · rw [same]
    exact ⟨book, .refl, related⟩
  · exact commit result _ commits

theorem grant (related : Related w book) (input : GrantInput) (draw : Draw) (now : Date) :
    ∃ book', Path book book' ∧
      Related { w with db := (grantCreditsWithAudit sha256Hex input draw now w.db).2 } book' := by
  rcases grantCreditsWithAudit_cases sha256Hex input draw now w.db with
    same | ⟨positive, fresh, after⟩
  · rw [same]
    exact ⟨book, .refl, related⟩
  · rw [after]
    exact ⟨_, .single (.deposit book input.orgId input.credits.toNat),
      related.moved (related.rows.grant positive fresh) rfl (.refl rfl)⟩

theorem emailCheck (related : Related w book) (input : NewEmailCheckInput) (draw : Draw)
    (now : Date) :
    ∃ book', Path book book' ∧
      Related { w with db := (Txn.transaction (createEmailCheckWithDebit input draw now) w.db).2 }
        book' := by
  apply related.transaction
  intro result db commits
  rcases createEmailCheckWithDebit_commits commits with
    rfl | ⟨org, check, -, -, -, -, enough, fresh, rfl⟩
  · exact ⟨book, .refl, related⟩
  · obtain ⟨funded, rows⟩ := related.rows.check enough fresh
    exact ⟨_, .single (.spend book input.orgId 1 funded), related.moved rows rfl (.refl rfl)⟩

theorem phoneCheck (related : Related w book) (input : NewPhoneCheckInput) (draw : Draw)
    (now : Date) :
    ∃ book', Path book book' ∧
      Related { w with db := (Txn.transaction (createPhoneCheckWithDebit input draw now) w.db).2 }
        book' := by
  apply related.transaction
  intro result db commits
  rcases createPhoneCheckWithDebit_commits commits with
    rfl | ⟨org, check, -, -, -, -, enough, fresh, rfl⟩
  · exact ⟨book, .refl, related⟩
  · obtain ⟨funded, rows⟩ := related.rows.check enough fresh
    exact ⟨_, .single (.spend book input.orgId 1 funded), related.moved rows rfl (.refl rfl)⟩

/-- A committed creation, with the batch on record. -/
theorem reserved (related : Related w book) {input : CreateBatchInput} {draw : Draw} {now : Date}
    {db : Database} {result : CreateBatchResult} (rows : 1 ≤ input.totalRows)
    (created : result.Created)
    (commits : Txn.Commits (createBatchWithReservation input draw now) w.db result db) :
    ∃ book', Path book book' ∧
      Related ⟨db, w.created ++ [⟨input.orgId, input.batchId, input.totalRows⟩]⟩ book' := by
  rcases createBatchWithReservation_commits commits with
    ⟨nothing, -⟩ | ⟨org, -, -, -, -, enough, -, -, fresh, rfl⟩
  · exact absurd created nothing
  · obtain ⟨funded, none_, held⟩ := related.rows.reservation enough fresh
    refine ⟨_, .single (.setAside book input.orgId input.batchId input.totalRows none_ funded),
      held, ?_, ?_, ?_⟩
    · intro orgId batchId n
      rw [Book.holdsOf_setAside none_, ← related.created]
      simp
    · intro b member
      rcases List.mem_append.1 member with old | new
      · exact List.mem_append_left _ (related.batches b old)
      · obtain rfl := List.mem_singleton.1 new
        exact List.mem_append_right _ (List.mem_singleton.2 rfl)
    · intro c member
      rcases List.mem_append.1 member with old | new
      · exact related.rowed c old
      · obtain rfl := List.mem_singleton.1 new
        exact rows

theorem createBatch (related : Related w book) {input : CreateBatchInput}
    (rows : 1 ≤ input.totalRows) (draw : Draw) (now : Date) :
    ∃ book', Path book book' ∧
      Related (w.after sha256Hex (.createBatch input draw now)) book' := by
  simp only [World.after]
  rcases Txn.transaction_cases (createBatchWithReservation input draw now) w.db with
    ⟨result, db, commits, eq⟩ | ⟨err, -, eq⟩
  · rw [eq]
    cases result with
    | created batch balance =>
        have done : CreateBatchResult.Created (.created batch balance) := trivial
        exact related.reserved rows done commits
    | insufficient balance shortfall =>
        rcases createBatchWithReservation_commits commits with ⟨-, rfl⟩ | ⟨_, _, _, _, done, _⟩
        · exact ⟨book, .refl, related⟩
        · exact done.elim
    | orgUnavailable =>
        rcases createBatchWithReservation_commits commits with ⟨-, rfl⟩ | ⟨_, _, _, _, done, _⟩
        · exact ⟨book, .refl, related⟩
        · exact done.elim
  · rw [eq]
    exact ⟨book, .refl, related⟩

theorem claimBatch (related : Related w book) (id : Uuid) :
    ∃ book', Path book book' ∧
      Related { w with db := (Txn.transaction (claimBatchForProcessing id) w.db).2 } book' := by
  obtain ⟨result, ⟨commits, -⟩ | ⟨row, -, -, -, -, commits⟩⟩ :=
    claimBatchForProcessing_commits id w.db
  · rw [Txn.transaction_of_commits commits]
    exact ⟨book, .refl, related⟩
  · rw [Txn.transaction_of_commits commits]
    exact ⟨book, .refl, related.quiet rfl (.update _ _ fun _ => ⟨rfl, rfl, rfl⟩)⟩

theorem completeBatch (related : Related w book) {input : CompleteBatchInput}
    (created : ⟨input.orgId, input.batchId, input.reservedCredits⟩ ∈ w.created) (draw : Draw)
    (now : Date) :
    ∃ book', Path book book' ∧
      Related { w with db := (Txn.transaction (Db.completeBatch input draw now) w.db).2 }
        book' := by
  apply related.transaction
  intro _ db commits
  have inherits : Inherits w.db (w.db.completed input now) :=
    .update _ _ fun _ => ⟨rfl, rfl, rfl⟩
  rcases completeBatch_commits.1 commits with ⟨-, rfl⟩ | ⟨partial_, -, fresh, rfl⟩
  · exact ⟨book, .refl, related.quiet rfl inherits⟩
  · have amount : (input.reservedCredits : Int) - input.chargedCredits =
        ((input.reservedCredits - input.chargedCredits : ℕ) : Int) := by omega
    rw [amount] at fresh ⊢
    exact related.refunded created (by omega) (Nat.sub_le _ _) fresh rfl inherits

theorem failBatch (related : Related w book) {input : FailBatchInput}
    (created : ⟨input.orgId, input.batchId, input.reservedCredits⟩ ∈ w.created) (draw : Draw) :
    ∃ book', Path book book' ∧
      Related { w with db := (Txn.transaction (Db.failBatch input draw) w.db).2 } book' := by
  apply related.transaction
  intro _ db commits
  have inherits : Inherits w.db (w.db.failed input) := .update _ _ fun _ => ⟨rfl, rfl, rfl⟩
  rcases failBatch_commits.1 commits with
    ⟨-, rfl⟩ | ⟨some_, -, ⟨-, rfl⟩ | ⟨fresh, rfl⟩⟩
  · exact ⟨book, .refl, related.quiet rfl inherits⟩
  · exact ⟨book, .refl, related.quiet rfl inherits⟩
  · exact related.refunded created some_ le_rfl fresh rfl inherits

theorem deleteBatch (related : Related w book) (id orgId : Uuid) (draw : Draw) :
    ∃ book', Path book book' ∧
      Related { w with db := (Txn.transaction (deleteBatchForOrg id orgId draw) w.db).2 }
        book' := by
  apply related.transaction
  intro _ db commits
  rcases deleteBatchForOrg_commits commits with
    rfl | ⟨row, member, rfl, rfl, ⟨-, rfl⟩ | ⟨-, -, ⟨-, rfl⟩ | ⟨fresh, rfl⟩⟩⟩
  · exact ⟨book, .refl, related⟩
  · exact ⟨book, .refl, related.quiet rfl (.delete _ _)⟩
  · exact ⟨book, .refl, related.quiet rfl (.delete _ _)⟩
  · have created := related.batches row member
    exact related.refunded created (related.rowed _ created) le_rfl fresh rfl (.delete _ _)

/-- **Every action is matched by the book**, by no step or by one. -/
theorem step {w' : World} {a : Action} (related : Related w book)
    (taken : Credits.step sha256Hex w a w') : ∃ book', Path book book' ∧ Related w' book' := by
  obtain ⟨allowed, rfl⟩ := taken
  cases a with
  | grant input draw now => exact related.grant sha256Hex input draw now
  | emailCheck input draw now => exact related.emailCheck input draw now
  | phoneCheck input draw now => exact related.phoneCheck input draw now
  | createBatch input draw now => exact related.createBatch sha256Hex allowed draw now
  | claimBatch id => exact related.claimBatch id
  | completeBatch input draw now => exact related.completeBatch allowed.1 draw now
  | failBatch input draw => exact related.failBatch allowed draw
  | deleteBatch id orgId draw => exact related.deleteBatch id orgId draw

end Related

/-- **Every run is a path of the account book** from the empty book on. -/
theorem run_represents {w : World} (reach : Reachable Initial (step sha256Hex) w) :
    ∃ book, Path ⟨fun _ => 0, fun _ _ => none⟩ book ∧ Related w book := by
  obtain ⟨start, _, ⟨noRows, noBatches, noneCreated⟩, run⟩ := reach
  apply run.simulates (fun s a t book related taken => Related.step sha256Hex related taken)
  refine ⟨noRows ▸ Represents.empty, ?_, ?_, ?_⟩
  · simp [noneCreated, Book.HoldsOf]
  · simp [noBatches]
  · simp [noneCreated]

/-! ## What it means for the ledger -/

/-- Credits are safe in a world. -/
structure CreditSafe (w : World) : Prop where
  /-- `SUM(delta)` of every organisation. -/
  balance : ∀ orgId, 0 ≤ balance orgId w.db.creditLedger
  /-- A batch has one row under its id, the reservation. -/
  reservation : ∀ c ∈ w.created, ∃ e,
    (w.db.creditLedger.filter fun r => refKey r = some (held c.orgId c.batchId)) = [e] ∧
      e.delta = -(c.totalRows : Int)
  /-- No reference of a batch is used twice. -/
  once : ∀ orgId batchId,
    (w.db.creditLedger.filter fun r => refKey r = some (held orgId batchId)).length ≤ 1 ∧
      (w.db.creditLedger.filter fun r => refKey r = some (refunded orgId batchId)).length ≤ 1
  /-- A refund is of a created batch, and gives back between one credit and all of them. -/
  refund : ∀ orgId batchId, ∀ e ∈ w.db.creditLedger,
    refKey e = some (refunded orgId batchId) →
      ∃ c ∈ w.created, c.orgId = orgId ∧ c.batchId = batchId ∧ 1 ≤ e.delta ∧
        e.delta ≤ c.totalRows
  /-- What a batch costs in the end. -/
  cost : ∀ c ∈ w.created, 0 ≤ -net c.orgId c.batchId w.db.creditLedger ∧
    -net c.orgId c.batchId w.db.creditLedger ≤ c.totalRows

theorem Related.creditSafe {w : World} {book : CreditBook} (related : Related w book) :
    CreditSafe w where
  balance := by
    intro orgId
    rw [related.rows.free]
    exact Int.natCast_nonneg _
  reservation := by
    intro c member
    obtain ⟨h, present, amount⟩ := (related.created _ _ _).1 member
    obtain ⟨e, inside, key, delta⟩ := (related.rows.holds _ _ _ present).reserved
    have inFilter : e ∈ w.db.creditLedger.filter fun r =>
        refKey r = some (held c.orgId c.batchId) := by
      simp [inside, key]
    have atMost := related.rows.unique.length_le_one (held c.orgId c.batchId)
    obtain ⟨e', only⟩ := List.length_eq_one_iff.1
      (le_antisymm atMost (List.length_pos_of_mem inFilter))
    rw [only] at inFilter
    obtain rfl := List.mem_singleton.1 inFilter
    exact ⟨e, only, by rw [delta, amount]⟩
  once := fun orgId batchId =>
    ⟨related.rows.unique.length_le_one _, related.rows.unique.length_le_one _⟩
  refund := by
    intro orgId batchId e member key
    cases present : book.holds orgId batchId with
    | none => exact absurd ⟨e, member, key⟩ (related.rows.absent _ _ present)
    | some h =>
        have created := (related.created orgId batchId h.amount).2 ⟨h, present, rfl⟩
        have onLedger := related.rows.holds _ _ _ present
        have le := h.le
        rcases Nat.eq_zero_or_pos h.released with zero | some_
        · exact absurd ⟨e, member, key⟩ (onLedger.unreleased zero)
        · obtain ⟨back, backMember, backKey, delta⟩ := onLedger.released some_
          obtain rfl := related.rows.unique.eq_of_key member backMember key backKey
          exact ⟨_, created, rfl, rfl, by omega, by simp only; omega⟩
  cost := by
    intro c member
    obtain ⟨h, present, amount⟩ := (related.created _ _ _).1 member
    have le := h.cost_le
    rw [(related.rows.holds _ _ _ present).net related.rows.unique]
    omega

/-- **Credits are safe over every run.**  Whatever is called, in whatever order and how
often, no balance is ever negative, a batch is reserved for once and refunded at most
once, and it costs between nothing and its rows. -/
theorem credit_safety {w : World} (reach : Reachable Initial (step sha256Hex) w) :
    CreditSafe w := by
  obtain ⟨book, -, related⟩ := run_represents sha256Hex reach
  exact related.creditSafe

/-! ### A batch settled, then failed again -/

/-- One organisation, nothing else. -/
def oneOrganization : World where
  db :=
    { organizations := [⟨.numbered 1, none, 30, false⟩]
      creditLedger := []
      emailChecks := []
      phoneChecks := []
      batches := []
      auditEvents := [] }
  created := []

/-- What the database supplies, with a new ledger id. -/
def drawn (ledgerId : ℕ) : Draw := ⟨0, .numbered ledgerId, .numbered 8, .numbered 9⟩

/-- A grant of a hundred credits, a batch of ten rows, four of them charged. -/
def settlement : List Action :=
  [.grant ⟨.numbered 1, 100, Js.ofString "INV-1"⟩ (drawn 1) 0,
    .createBatch ⟨.numbered 2, .numbered 1, "list.csv", 10, "in", ⟨0, true, 0, 0, 0, 0, 0,
      ⟨0, 0, 0, 0⟩⟩⟩ (drawn 2) 0,
    .claimBatch (.numbered 2),
    .completeBatch ⟨.numbered 2, .numbered 1, "out", 10, ⟨0, true, 0, 4, 0, 6, 0, ⟨4, 6, 0, 0⟩⟩, 4,
      10, 30⟩ (drawn 3) 0,
    .failBatch ⟨.numbered 2, .numbered 1, 10, "processing_failed"⟩ (drawn 4)]

/-- The late failure finds the refund of the completion and adds nothing. -/
theorem credit_safety_settlement :
    CreditSafe (settlement.foldl (World.after fun _ => "") oneOrganization) := by
  have executable : Executable World.Allows (World.after fun _ => "") oneOrganization
      settlement := by decide +kernel
  obtain ⟨tr, run⟩ := executable.run
  exact credit_safety (fun _ => "") ⟨oneOrganization, tr, ⟨rfl, rfl, rfl⟩, run⟩

end Tozalist.Credits
