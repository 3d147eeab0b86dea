/-
# Tozalist.Db.Ledger -- the credit ledger and the references on it

`credit_ledger`: an organisation's balance is the sum of its deltas, and the partial
unique index on `(org_id, reference_id)` lets one operation move credits once.  The
insert with and without `onConflictDoNothing`, `getCreditBalance` and `lockedBalance`
are here, with the texts the operations refer to themselves by.

Two facts carry every result about credits.  The references of checks and batches,
of refunds and of grants are texts of different shapes, so they never meet
(`refundReference_ne_text`, `grantReference_ne_refund`).
And a row that was inserted has a reference nobody had (`insertLedger_commits`).

`held` and `refunded` are the two rows a batch can have on the ledger; `net` is their
sum.
-/
import Tozalist.Db.Schema

namespace Tozalist.Db

set_option autoImplicit false

open Theory (Txn)
open Theory.Table

/-! ## References -/

/-- `refundReference`. -/
def refundReference (batchId : Uuid) : String := batchId.text ++ ":refund"

/-- `grantReference`: what is being granted, hashed. -/
def grantReference (sha256Hex : JsString → String) (credits : Int) (note : JsString) : String :=
  "grant:" ++ String.ofList
    ((sha256Hex (Js.ofString (toString credits) ++ Js.ofString ":" ++ note)).toList.take 32)

theorem refundReference_injective {a b : Uuid} (same : refundReference a = refundReference b) :
    a = b := by
  have lists := congrArg String.toList same
  simp only [refundReference, String.toList_append] at lists
  exact Uuid.ext_text (String.toList_inj.1 (List.append_cancel_right lists))

/-- A refund is never referred to as a check or a batch is. -/
theorem refundReference_ne_text (a b : Uuid) : refundReference a ≠ b.text := by
  intro same
  have lengths := congrArg (fun s => s.toList.length) same
  simp only [refundReference, String.toList_append, List.length_append, a.canonical.1,
    b.canonical.1] at lengths
  simp at lengths

/-- The first character of a grant's reference occurs in no `uuid`. -/
theorem grantReference_head (sha256Hex : JsString → String) (credits : Int) (note : JsString) :
    (grantReference sha256Hex credits note).toList.head? = some 'g' := by
  simp [grantReference]

theorem Uuid.head_ne (a : Uuid) : a.text.toList.head? ≠ some 'g' := by
  intro starts
  have member : 'g' ∈ a.text.toList := List.mem_of_mem_head? starts
  rcases a.canonical.2 _ member with h | h | h
  · exact absurd h (by decide)
  · exact absurd h (by decide)
  · exact absurd h (by decide)

/-- A grant is never referred to as a refund is. -/
theorem grantReference_ne_refund (sha256Hex : JsString → String) (credits : Int) (note : JsString)
    (a : Uuid) : grantReference sha256Hex credits note ≠ refundReference a := by
  intro same
  have head := grantReference_head sha256Hex credits note
  rw [same, refundReference, String.toList_append, List.head?_append] at head
  cases starts : a.text.toList.head? with
  | none =>
      have empty : a.text.toList = [] := List.head?_eq_none_iff.1 starts
      have length := a.canonical.1
      rw [empty] at length
      cases length
  | some c =>
      rw [starts] at head
      exact a.head_ne (starts.trans head)

/-! ## The index and the sum -/

/-- The columns of `credit_ledger_org_id_reference_id_uniq`. -/
def refKey (entry : CreditLedgerEntry) : Option (Uuid × String) :=
  entry.referenceId.map fun reference => (entry.orgId, reference)

/-- A row of the table has the entry's reference already. -/
def Conflicts (entry : CreditLedgerEntry) (rows : List CreditLedgerEntry) : Prop :=
  ∃ k ∈ refKey entry, Taken refKey k rows

instance (entry : CreditLedgerEntry) (rows : List CreditLedgerEntry) :
    Decidable (Conflicts entry rows) :=
  inferInstanceAs (Decidable (∃ k ∈ refKey entry, Taken refKey k rows))

theorem free_of_not_conflicts {entry : CreditLedgerEntry} {rows : List CreditLedgerEntry}
    (free : ¬ Conflicts entry rows) : ∀ k, refKey entry = some k → ¬ Taken refKey k rows :=
  fun k has taken => free ⟨k, has, taken⟩

/-- `SUM(delta)` of an organisation. -/
def balance (orgId : Uuid) (rows : List CreditLedgerEntry) : Int :=
  total (fun e => e.orgId = orgId) (·.delta) rows

@[simp] theorem balance_nil (orgId : Uuid) : balance orgId [] = 0 := rfl

@[simp] theorem balance_append (orgId : Uuid) (rows : List CreditLedgerEntry)
    (entry : CreditLedgerEntry) :
    balance orgId (rows ++ [entry]) =
      balance orgId rows + if entry.orgId = orgId then entry.delta else 0 := by
  simp [balance]

/-- `coalesce(sum(delta), 0)::int`, as `getCreditBalance` and both `lockedBalance`s read it. -/
def lockedBalance (orgId : Uuid) : Tx Int := do
  let db ← get
  if Int4 (balance orgId db.creditLedger) then
    return balance orgId db.creditLedger
  else throw .integerOutOfRange

theorem run_get_bind {β : Type} (next : Database → Tx β) (db : Database) :
    (get >>= next : Tx β).run db = (next db).run db := rfl

theorem run_lockedBalance_bind {β : Type} (orgId : Uuid) (next : Int → Tx β) (db : Database) :
    (lockedBalance orgId >>= next : Tx β).run db =
      if Int4 (balance orgId db.creditLedger) then
        (next (balance orgId db.creditLedger)).run db
      else .error .integerOutOfRange := by
  rw [lockedBalance, bind_assoc, run_get_bind]
  split
  · rw [pure_bind]
  · rfl

theorem lockedBalance_commits {orgId : Uuid} {db db' : Database} {sum : Int} :
    Txn.Commits (lockedBalance orgId) db sum db' ↔
      Int4 (balance orgId db.creditLedger) ∧ sum = balance orgId db.creditLedger ∧ db' = db := by
  simp [lockedBalance]

/-! ## Inserts -/

/-- The columns hold what they can: a 32-bit delta and texts without NUL. -/
def CreditLedgerEntry.Fits (entry : CreditLedgerEntry) : Prop :=
  Int4 entry.delta ∧ ∀ note ∈ entry.note, Storable note

instance (entry : CreditLedgerEntry) : Decidable entry.Fits :=
  inferInstanceAs (Decidable (Int4 entry.delta ∧ ∀ note ∈ entry.note, Storable note))

def referenceUniq : String := "credit_ledger_org_id_reference_id_uniq"

/-- What PostgreSQL says to a row whose columns do not fit. -/
def CreditLedgerEntry.misfit (entry : CreditLedgerEntry) : DbError :=
  if Int4 entry.delta then .invalidText else .integerOutOfRange

/-- `insert(creditLedger).values(entry)`. -/
def insertLedger (entry : CreditLedgerEntry) : Tx Unit := do
  let db ← get
  if ¬ entry.Fits then throw entry.misfit
  else if Conflicts entry db.creditLedger then throw (.uniqueViolation referenceUniq)
  else modify fun db => { db with creditLedger := db.creditLedger ++ [entry] }

/-- The same with `.onConflictDoNothing()`: whether the row went in. -/
def insertLedgerOnConflictDoNothing (entry : CreditLedgerEntry) : Tx Bool := do
  let db ← get
  if ¬ entry.Fits then throw entry.misfit
  else if Conflicts entry db.creditLedger then return false
  else do
    modify fun db => { db with creditLedger := db.creditLedger ++ [entry] }
    return true

/-- The database with one more ledger row. -/
def Database.withEntry (db : Database) (entry : CreditLedgerEntry) : Database :=
  { db with creditLedger := db.creditLedger ++ [entry] }

@[simp] theorem withEntry_creditLedger (db : Database) (entry : CreditLedgerEntry) :
    (db.withEntry entry).creditLedger = db.creditLedger ++ [entry] := rfl

@[simp] theorem withEntry_batches (db : Database) (entry : CreditLedgerEntry) :
    (db.withEntry entry).batches = db.batches := rfl

@[simp] theorem withEntry_organizations (db : Database) (entry : CreditLedgerEntry) :
    (db.withEntry entry).organizations = db.organizations := rfl

theorem run_insertLedger_bind {β : Type} (entry : CreditLedgerEntry) (next : Unit → Tx β)
    (db : Database) :
    (insertLedger entry >>= next : Tx β).run db =
      if ¬ entry.Fits then .error entry.misfit
      else if Conflicts entry db.creditLedger then .error (.uniqueViolation referenceUniq)
      else (next ()).run (db.withEntry entry) := by
  rw [insertLedger, bind_assoc, run_get_bind]
  split
  · rfl
  · split <;> rfl

theorem run_insertLedgerOnConflictDoNothing_bind {β : Type} (entry : CreditLedgerEntry)
    (next : Bool → Tx β) (db : Database) :
    (insertLedgerOnConflictDoNothing entry >>= next : Tx β).run db =
      if ¬ entry.Fits then .error entry.misfit
      else if Conflicts entry db.creditLedger then (next false).run db
      else (next true).run (db.withEntry entry) := by
  rw [insertLedgerOnConflictDoNothing, bind_assoc, run_get_bind]
  split
  · rfl
  · split <;> rfl

theorem insertLedger_commits {entry : CreditLedgerEntry} {db db' : Database} {u : Unit} :
    Txn.Commits (insertLedger entry) db u db' ↔
      entry.Fits ∧ ¬ Conflicts entry db.creditLedger ∧ db' = db.withEntry entry := by
  simp [insertLedger, Database.withEntry]

theorem insertLedgerOnConflictDoNothing_commits {entry : CreditLedgerEntry} {db db' : Database}
    {inserted : Bool} :
    Txn.Commits (insertLedgerOnConflictDoNothing entry) db inserted db' ↔
      entry.Fits ∧ ((Conflicts entry db.creditLedger ∧ inserted = false ∧ db' = db) ∨
        (¬ Conflicts entry db.creditLedger ∧ inserted = true ∧ db' = db.withEntry entry)) := by
  simp [insertLedgerOnConflictDoNothing, Database.withEntry]

/-! ## What a batch has on the ledger -/

/-- The index key of a batch's reservation. -/
def held (orgId batchId : Uuid) : Uuid × String := (orgId, batchId.text)

/-- The index key of a batch's refund. -/
def refunded (orgId batchId : Uuid) : Uuid × String := (orgId, refundReference batchId)

/-- The sum of the rows of a batch. -/
def net (orgId batchId : Uuid) (rows : List CreditLedgerEntry) : Int :=
  total (fun e => refKey e = some (held orgId batchId)) (·.delta) rows +
    total (fun e => refKey e = some (refunded orgId batchId)) (·.delta) rows

@[simp] theorem held_inj {orgId orgId' batchId batchId' : Uuid} :
    held orgId batchId = held orgId' batchId' ↔ orgId = orgId' ∧ batchId = batchId' := by
  simp only [held, Prod.mk.injEq]
  exact and_congr_right fun _ => ⟨Uuid.ext_text, congrArg Uuid.text⟩

@[simp] theorem refunded_inj {orgId orgId' batchId batchId' : Uuid} :
    refunded orgId batchId = refunded orgId' batchId' ↔ orgId = orgId' ∧ batchId = batchId' := by
  simp only [refunded, Prod.mk.injEq]
  exact and_congr_right fun _ => ⟨refundReference_injective, congrArg refundReference⟩

@[simp] theorem held_ne_refunded (orgId orgId' batchId batchId' : Uuid) :
    held orgId batchId ≠ refunded orgId' batchId' := by
  simp only [held, refunded, ne_eq, Prod.mk.injEq, not_and]
  exact fun _ same => refundReference_ne_text batchId' batchId same.symm

@[simp] theorem refunded_ne_held (orgId orgId' batchId batchId' : Uuid) :
    refunded orgId batchId ≠ held orgId' batchId' :=
  (held_ne_refunded _ _ _ _).symm

/-- A row of something else leaves the sum of a batch alone. -/
theorem net_append_of_ne {orgId batchId : Uuid} {rows : List CreditLedgerEntry}
    {entry : CreditLedgerEntry} (other : refKey entry ≠ some (held orgId batchId))
    (another : refKey entry ≠ some (refunded orgId batchId)) :
    net orgId batchId (rows ++ [entry]) = net orgId batchId rows := by
  simp [net, other, another]

/-- A batch that only has its reservation has paid all of it. -/
theorem net_of_open {orgId batchId : Uuid} {rows : List CreditLedgerEntry}
    {entry : CreditLedgerEntry} (unique : Unique refKey rows) (member : entry ∈ rows)
    (key : refKey entry = some (held orgId batchId))
    (open_ : ¬ Taken refKey (refunded orgId batchId) rows) :
    net orgId batchId rows = entry.delta := by
  rw [net, unique.total_eq member key, total_eq_zero_of_free open_, add_zero]

/-- A batch with both rows has paid their difference. -/
theorem net_of_settled {orgId batchId : Uuid} {rows : List CreditLedgerEntry}
    {entry back : CreditLedgerEntry} (unique : Unique refKey rows) (member : entry ∈ rows)
    (key : refKey entry = some (held orgId batchId)) (backMember : back ∈ rows)
    (backKey : refKey back = some (refunded orgId batchId)) :
    net orgId batchId rows = entry.delta + back.delta := by
  rw [net, unique.total_eq member key, unique.total_eq backMember backKey]

end Tozalist.Db
