/-
# Tozalist.Credits.GrantReplay -- a grant that is submitted again

The reference of a grant is derived from what is granted, the amount and the trimmed note,
and the unique index on references keeps the second row out.  Calls of
`grantCreditsWithAudit` for one organisation, repeated at will and between any other
operations on credits:

* `grantReference_injective` -- two grants with one reference are one amount and one note;
* `after_operational` -- no other operation writes a reference that a grant could have;
* `grants_replayed` -- what the calls add is the sum over the different grants among them,
  each with one row and one audit event;
* `nul_note_lost` -- but a note with a NUL passes the validation and is then refused by
  PostgreSQL, so its credits are not added.
-/
import Mathlib.Algebra.BigOperators.Group.Finset.Basic
import Tozalist.Credits.Safety

namespace Tozalist.Credits

set_option autoImplicit false

open Db
open Theory (Executable Run StepOf Transition Txn map_action_transitions transitions)
open Theory.Table

/-! ## What a grant is for -/

/-- The amount and the trimmed note of a grant. -/
abbrev Submission : Type := Int × JsString

variable (sha256Hex : JsString → String)

/-- The text that is hashed. -/
def Submission.text (p : Submission) : JsString :=
  Js.ofString (toString p.1) ++ Js.ofString ":" ++ p.2

/-- The reference of a grant. -/
def Submission.reference (p : Submission) : String := grantReference sha256Hex p.1 p.2

/-- What of a hash the reference keeps. -/
def truncated (text : JsString) : List Char := (sha256Hex text).toList.take 32

/-- No two of the grants have texts with the same truncated hash. -/
def NoCollision (grants : List Submission) : Prop :=
  ∀ p ∈ grants, ∀ q ∈ grants, truncated sha256Hex p.text = truncated sha256Hex q.text →
    p.text = q.text

/-- A text is cut at its first separator in one way. -/
theorem cut_unique {u : UInt16} {x y m n : JsString} (hx : u ∉ x) (hy : u ∉ y)
    (same : x ++ u :: m = y ++ u :: n) : x = y ∧ m = n := by
  rcases List.append_eq_append_iff.1 same with ⟨c, rfl, rest⟩ | ⟨c, rfl, rest⟩
  · cases c with
    | nil => exact ⟨(List.append_nil x).symm, (List.cons.inj rest).2⟩
    | cons v c =>
        obtain ⟨rfl, -⟩ := List.cons.inj rest
        exact absurd (List.mem_append_right x List.mem_cons_self) hy
  · cases c with
    | nil => exact ⟨List.append_nil y, (List.cons.inj rest).2.symm⟩
    | cons v c =>
        obtain ⟨rfl, -⟩ := List.cons.inj rest
        exact absurd (List.mem_append_right y List.mem_cons_self) hx

/-- The text says what is granted. -/
theorem Submission.text_injective {p q : Submission} (hp : 0 < p.1) (hq : 0 < q.1)
    (same : p.text = q.text) : p = q := by
  obtain ⟨a, m⟩ := p
  obtain ⟨b, n⟩ := q
  lift a to ℕ using hp.le
  lift b to ℕ using hq.le
  have colon : ∀ k : ℕ, (58 : UInt16) ∉ Js.ofNat k := Js.not_mem_ofNat (by decide)
  have shape : ∀ (k : ℕ) (l : JsString),
      Submission.text ((k : Int), l) = Js.ofNat k ++ 58 :: l := by
    intro k l
    simp only [Submission.text, List.append_assoc]
    rfl
  rw [shape, shape] at same
  obtain ⟨digits, notes⟩ := cut_unique (colon a) (colon b) same
  have numbers := congrArg Js.toNat? digits
  rw [Js.toNat?_ofNat, Js.toNat?_ofNat] at numbers
  obtain rfl := Option.some.inj numbers
  rw [notes]

/-- **Two grants with one reference are one grant.** -/
theorem grantReference_injective {grants : List Submission}
    (noCollision : NoCollision sha256Hex grants) {p q : Submission} (hp : p ∈ grants)
    (hq : q ∈ grants) (positive : ∀ p ∈ grants, 0 < p.1)
    (same : p.reference sha256Hex = q.reference sha256Hex) : p = q := by
  refine Submission.text_injective (positive p hp) (positive q hq) (noCollision p hp q hq ?_)
  have lists := congrArg String.toList same
  simp only [Submission.reference, grantReference, String.toList_append, String.toList_ofList]
    at lists
  exact List.append_cancel_left lists

/-- **A grant is never referred to as a check, a batch or a refund is.** -/
theorem reference_ne (p : Submission) (operation : Uuid) :
    p.reference sha256Hex ≠ operation.text ∧
      p.reference sha256Hex ≠ refundReference operation := by
  refine ⟨?_, grantReference_ne_refund sha256Hex p.1 p.2 operation⟩
  intro same
  have head := grantReference_head sha256Hex p.1 p.2
  rw [show grantReference sha256Hex p.1 p.2 = operation.text from same] at head
  exact operation.head_ne head

/-! ## One call -/

/-- The organisation of the calls: there, and not deleted. -/
def ActiveOrganization (orgId : Uuid) (db : Database) : Prop :=
  ∃ org, db.organizations.find? (fun o => o.id = orgId) = some org ∧ org.Active

/-- The validation lets the grant through. -/
def GrantInput.Passes (input : GrantInput) : Prop :=
  ValidCredits input.credits ∧ Js.trim input.note ≠ []

instance (input : GrantInput) : Decidable (GrantInput.Passes input) :=
  inferInstanceAs (Decidable (_ ∧ _))

/-- The row a call writes, on the trimmed note. -/
def grantRow (input : GrantInput) (draw : Draw) : CreditLedgerEntry :=
  grantEntry sha256Hex input (Js.trim input.note) draw

/-- What a call leaves when it is applied: its row and its event. -/
def withGrant (input : GrantInput) (draw : Draw) (now : Date) (db : Database) : Database :=
  { db.withEntry (grantRow sha256Hex input draw) with
    auditEvents := db.auditEvents ++
      [(grantEvent sha256Hex input (Js.trim input.note) draw).row draw now] }

variable {sha256Hex} {input : GrantInput} {draw : Draw} {now : Date} {db : Database}

/-- A call that the validation refuses. -/
theorem grant_invalid (refused : ¬ GrantInput.Passes input) :
    grantCreditsWithAudit sha256Hex input draw now db = (.ok .invalidInput, db) := by
  rw [grantCreditsWithAudit]
  by_cases valid : ValidCredits input.credits
  · rw [if_neg (not_not.2 valid), if_pos (not_not.1 fun note => refused ⟨valid, note⟩)]
  · rw [if_pos valid]

/-- **A call that passes**: refused by PostgreSQL, a replay, or applied. -/
theorem grant_passed (active : ActiveOrganization input.orgId db)
    (passes : GrantInput.Passes input) :
    grantCreditsWithAudit sha256Hex input draw now db =
      if ¬ (grantRow sha256Hex input draw).Fits then
        (.error (grantRow sha256Hex input draw).misfit, db)
      else if Conflicts (grantRow sha256Hex input draw) db.creditLedger then
        (.ok .duplicateReference, db)
      else (.ok (.ok draw.ledgerId (grantReference sha256Hex input.credits (Js.trim input.note))),
        withGrant sha256Hex input draw now db) := by
  obtain ⟨org, found, alive⟩ := active
  have run : (grantTx sha256Hex input (Js.trim input.note) draw now).run db =
      (insertLedger (grantRow sha256Hex input draw) >>= fun _ => do
        recordAuditEvent (grantEvent sha256Hex input (Js.trim input.note) draw) draw now
        return GrantResult.ok draw.ledgerId
          (grantReference sha256Hex input.credits (Js.trim input.note))).run db := by
    rw [grantTx, run_get_bind, found]
    dsimp only
    rw [if_neg (not_not.2 alive)]
    rfl
  rw [run_insertLedger_bind] at run
  rw [grantCreditsWithAudit, if_neg (not_not.2 passes.1), if_neg passes.2, Txn.transaction, run]
  by_cases unfit : ¬ (grantRow sha256Hex input draw).Fits
  · rw [if_pos unfit, if_pos unfit]
    have other : (grantRow sha256Hex input draw).misfit ≠ .uniqueViolation referenceUniq := by
      rw [CreditLedgerEntry.misfit]
      split <;> exact fun same => by cases same
    dsimp only
    rw [if_neg other]
  rw [if_neg unfit, if_neg unfit]
  by_cases conflicts : Conflicts (grantRow sha256Hex input draw) db.creditLedger
  · rw [if_pos conflicts, if_pos conflicts]
    rfl
  · rw [if_neg conflicts, if_neg conflicts]
    rfl

/-! ## The other operations -/

/-- The row of a check, of a batch or of a refund. -/
structure Operational (e : CreditLedgerEntry) : Prop where
  reason : e.reason ≠ .grant
  reference : ∃ operation : Uuid,
    e.referenceId = some operation.text ∨ e.referenceId = some (refundReference operation)

theorem checkEntry_operational (orgId checkId : Uuid) (draw : Draw) :
    Operational (checkEntry orgId checkId draw) :=
  ⟨nofun, checkId, .inl rfl⟩

theorem reservationEntry_operational (orgId batchId : Uuid) (totalRows : ℕ) (draw : Draw) :
    Operational (reservationEntry orgId batchId totalRows draw) :=
  ⟨nofun, batchId, .inl rfl⟩

theorem refundEntry_operational (orgId batchId : Uuid) (amount : Int) (note : String)
    (draw : Draw) : Operational (refundEntry orgId batchId amount note draw) :=
  ⟨nofun, batchId, .inr rfl⟩

/-- An operational row never has the key of a grant. -/
theorem Operational.refKey_ne {e : CreditLedgerEntry} (operational : Operational e)
    (orgId : Uuid) (p : Submission) : refKey e ≠ some (orgId, p.reference sha256Hex) := by
  obtain ⟨operation, has⟩ := operational.reference
  have other := reference_ne sha256Hex p operation
  intro same
  obtain ⟨reference, here, key⟩ := Option.map_eq_some_iff.1 same
  obtain rfl : reference = p.reference sha256Hex := (Prod.mk.inj key).2
  rcases has with has | has
  · exact other.1 (Option.some.inj (here.symm.trans has))
  · exact other.2 (Option.some.inj (here.symm.trans has))

/-- The ledger as it was, or with one more operational row, and the same organisations. -/
def Operates (db db' : Database) : Prop :=
  db'.organizations = db.organizations ∧ (db'.creditLedger = db.creditLedger ∨
    ∃ e, Operational e ∧ db'.creditLedger = db.creditLedger ++ [e])

theorem Operates.refl (db : Database) : Operates db db := ⟨rfl, .inl rfl⟩

theorem Operates.transaction {α : Type} {body : Tx α}
    (commit : ∀ result db', Txn.Commits body db result db' → Operates db db') :
    Operates db (Txn.transaction body db).2 := by
  rcases Txn.transaction_store body db with same | ⟨result, commits⟩
  · rw [same]
    exact .refl db
  · exact commit result _ commits

variable (sha256Hex) in
/-- **No other operation writes a reference of a grant.** -/
theorem after_operational (w : World) (a : Action) (other : ∀ input draw now,
    a ≠ .grant input draw now) : Operates w.db (w.after sha256Hex a).db := by
  cases a with
  | grant input draw now => exact absurd rfl (other input draw now)
  | emailCheck input draw now =>
      apply Operates.transaction
      intro result db' commits
      rcases createEmailCheckWithDebit_commits commits with
        rfl | ⟨org, check, -, -, -, -, -, -, rfl⟩
      · exact .refl _
      · exact ⟨rfl, .inr ⟨_, checkEntry_operational _ _ _, rfl⟩⟩
  | phoneCheck input draw now =>
      apply Operates.transaction
      intro result db' commits
      rcases createPhoneCheckWithDebit_commits commits with
        rfl | ⟨org, check, -, -, -, -, -, -, rfl⟩
      · exact .refl _
      · exact ⟨rfl, .inr ⟨_, checkEntry_operational _ _ _, rfl⟩⟩
  | createBatch input draw now =>
      have operates : Operates w.db
          (Txn.transaction (createBatchWithReservation input draw now) w.db).2 := by
        apply Operates.transaction
        intro result db' commits
        rcases createBatchWithReservation_commits commits with
          ⟨-, rfl⟩ | ⟨org, -, -, -, -, -, -, -, -, rfl⟩
        · exact .refl _
        · exact ⟨rfl, .inr ⟨_, reservationEntry_operational _ _ _ _, rfl⟩⟩
      have same : (w.after sha256Hex (.createBatch input draw now)).db =
          (Txn.transaction (createBatchWithReservation input draw now) w.db).2 := by
        unfold World.after
        dsimp only
        split <;> rename_i eq <;> rw [eq]
      rw [same]
      exact operates
  | claimBatch id =>
      apply Operates.transaction
      intro result db' commits
      obtain ⟨answer, ⟨quiet, -, -⟩ | ⟨row, -, -, -, -, claims⟩⟩ :=
        claimBatchForProcessing_commits id w.db
      · obtain ⟨-, rfl⟩ := commits.unique quiet
        exact .refl _
      · obtain ⟨-, rfl⟩ := commits.unique claims
        exact ⟨rfl, .inl rfl⟩
  | completeBatch input draw now =>
      apply Operates.transaction
      intro result db' commits
      rcases completeBatch_commits.1 commits with ⟨-, rfl⟩ | ⟨-, -, -, rfl⟩
      · exact ⟨rfl, .inl rfl⟩
      · exact ⟨rfl, .inr ⟨_, refundEntry_operational _ _ _ _ _, rfl⟩⟩
  | failBatch input draw =>
      apply Operates.transaction
      intro result db' commits
      rcases failBatch_commits.1 commits with ⟨-, rfl⟩ | ⟨-, -, ⟨-, rfl⟩ | ⟨-, rfl⟩⟩
      · exact ⟨rfl, .inl rfl⟩
      · exact ⟨rfl, .inl rfl⟩
      · exact ⟨rfl, .inr ⟨_, refundEntry_operational _ _ _ _ _, rfl⟩⟩
  | deleteBatch id orgId draw =>
      apply Operates.transaction
      intro result db' commits
      rcases deleteBatchForOrg_commits commits with
        rfl | ⟨row, -, -, -, ⟨-, rfl⟩ | ⟨-, -, ⟨-, rfl⟩ | ⟨-, rfl⟩⟩⟩
      · exact .refl _
      · exact ⟨rfl, .inl rfl⟩
      · exact ⟨rfl, .inl rfl⟩
      · exact ⟨rfl, .inr ⟨_, refundEntry_operational _ _ _ _ _, rfl⟩⟩

/-! ## Grants over a run -/

/-- What an action asks to grant to an organisation, if the validation lets it through. -/
def Action.submission (orgId : Uuid) : Action → Option Submission
  | .grant input _ _ =>
      if input.orgId = orgId ∧ GrantInput.Passes input then
        some (input.credits, Js.trim input.note)
      else none
  | _ => none

/-- What a run asks to grant, repetitions included. -/
def submissions (orgId : Uuid) (tr : List (Transition World Action)) : List Submission :=
  tr.filterMap fun e => e.action.submission orgId

/-- `SUM(delta)` of the grants of an organisation. -/
def granted (orgId : Uuid) (rows : List CreditLedgerEntry) : Int :=
  total (fun e => e.orgId = orgId ∧ e.reason = .grant) (·.delta) rows

variable (sha256Hex) in
/-- The organisation has the grant on its ledger. -/
def HasGrant (orgId : Uuid) (p : Submission) (db : Database) : Prop :=
  Taken refKey (orgId, p.reference sha256Hex) db.creditLedger

instance (orgId : Uuid) (p : Submission) (db : Database) :
    Decidable (HasGrant sha256Hex orgId p db) :=
  inferInstanceAs (Decidable (Taken refKey _ _))

theorem mem_submissions {orgId : Uuid} {tr : List (Transition World Action)} {p : Submission}
    (member : p ∈ submissions orgId tr) : 0 < p.1 := by
  obtain ⟨e, -, asks⟩ := List.mem_filterMap.1 member
  cases action : e.action with
  | grant input draw now =>
      rw [action, Action.submission] at asks
      split at asks
      · rename_i passes
        obtain rfl := Option.some.inj asks
        exact passes.2.1.1
      · cases asks
  | _ =>
      rw [action] at asks
      cases asks

variable (sha256Hex) in
/-- What grants have done so far: `done` are those that were asked for, out of `all` that
ever will be. -/
structure Replayed (orgId : Uuid) (start : Database) (all done : List Submission)
    (db : Database) : Prop where
  active : ActiveOrganization orgId db
  sum : granted orgId db.creditLedger = granted orgId start.creditLedger +
    ∑ p ∈ (done.filter fun p =>
      Storable p.2 ∧ ¬ HasGrant sha256Hex orgId p start).toFinset, p.1
  has : ∀ p ∈ all, HasGrant sha256Hex orgId p db ↔
    HasGrant sha256Hex orgId p start ∨ p ∈ done ∧ Storable p.2

namespace Replayed

variable {orgId : Uuid} {start db' : Database} {all done : List Submission}

/-- An operation that is no grant to the organisation. -/
theorem aside (replayed : Replayed sha256Hex orgId start all done db)
    (organizations : db'.organizations = db.organizations) {e : CreditLedgerEntry}
    (ledger : db'.creditLedger = db.creditLedger ∨ db'.creditLedger = db.creditLedger ++ [e])
    (foreign : ¬ (e.orgId = orgId ∧ e.reason = .grant))
    (other : ∀ p : Submission, refKey e ≠ some (orgId, p.reference sha256Hex)) :
    Replayed sha256Hex orgId start all done db' := by
  refine ⟨?_, ?_, ?_⟩
  · rw [ActiveOrganization, organizations]
    exact replayed.active
  · rcases ledger with same | more
    · rw [same]
      exact replayed.sum
    · rw [more, granted, total_append, total_singleton, if_neg foreign, add_zero]
      exact replayed.sum
  · intro p member
    rw [← replayed.has p member, HasGrant, HasGrant]
    rcases ledger with same | more
    · rw [same]
    · rw [more, taken_append, taken_singleton]
      constructor
      · rintro (before | mine)
        · exact before
        · exact absurd mine (other p)
      · exact .inl

/-- A replay, or a note that PostgreSQL refuses, changes nothing. -/
theorem again (replayed : Replayed sha256Hex orgId start all done db) {p : Submission}
    (member : p ∈ all) (known : Storable p.2 → HasGrant sha256Hex orgId p db) :
    Replayed sha256Hex orgId start all (done ++ [p]) db := by
  have before : Storable p.2 → HasGrant sha256Hex orgId p start ∨ p ∈ done := by
    intro storable
    rcases (replayed.has p member).1 (known storable) with old | ⟨asked, -⟩
    · exact .inl old
    · exact .inr asked
  refine ⟨replayed.active, ?_, ?_⟩
  · rw [replayed.sum]
    congr 2
    ext q
    simp only [List.mem_toFinset, List.mem_filter, List.mem_append, List.mem_singleton,
      decide_eq_true_eq]
    constructor
    · rintro ⟨asked, counted⟩
      exact ⟨.inl asked, counted⟩
    · rintro ⟨asked | rfl, storable, new⟩
      · exact ⟨asked, storable, new⟩
      · exact ⟨(before storable).resolve_left new, storable, new⟩
  · intro q inside
    rw [replayed.has q inside, List.mem_append, List.mem_singleton]
    constructor
    · rintro (old | ⟨asked, storable⟩)
      · exact .inl old
      · exact .inr ⟨.inl asked, storable⟩
    · rintro (old | ⟨asked | rfl, storable⟩)
      · exact .inl old
      · exact .inr ⟨asked, storable⟩
      · rcases before storable with old | asked
        · exact .inl old
        · exact .inr ⟨asked, storable⟩

/-- A grant that is applied adds its amount. -/
theorem applied (replayed : Replayed sha256Hex orgId start all done db)
    (noCollision : NoCollision sha256Hex all) (positive : ∀ p ∈ all, 0 < p.1) {p : Submission}
    (member : p ∈ all) (storable : Storable p.2) (new : ¬ HasGrant sha256Hex orgId p db)
    {e : CreditLedgerEntry} (key : refKey e = some (orgId, p.reference sha256Hex))
    (mine : e.orgId = orgId ∧ e.reason = .grant) (delta : e.delta = p.1)
    (organizations : db'.organizations = db.organizations)
    (ledger : db'.creditLedger = db.creditLedger ++ [e]) :
    Replayed sha256Hex orgId start all (done ++ [p]) db' := by
  have unknown : ¬ HasGrant sha256Hex orgId p start ∧ p ∉ done := by
    rw [replayed.has p member] at new
    exact ⟨fun old => new (.inl old), fun asked => new (.inr ⟨asked, storable⟩)⟩
  refine ⟨?_, ?_, ?_⟩
  · rw [ActiveOrganization, organizations]
    exact replayed.active
  · have fresh : p ∉ (done.filter fun p =>
        Storable p.2 ∧ ¬ HasGrant sha256Hex orgId p start).toFinset := by
      rw [List.mem_toFinset, List.mem_filter]
      exact fun asked => unknown.2 asked.1
    have counted : ((done ++ [p]).filter fun p =>
        Storable p.2 ∧ ¬ HasGrant sha256Hex orgId p start).toFinset =
          insert p (done.filter fun p =>
            Storable p.2 ∧ ¬ HasGrant sha256Hex orgId p start).toFinset := by
      ext q
      simp only [List.mem_toFinset, List.mem_filter, List.mem_append, List.mem_singleton,
        decide_eq_true_eq, Finset.mem_insert]
      constructor
      · rintro ⟨asked | rfl, rest⟩
        · exact .inr ⟨asked, rest⟩
        · exact .inl rfl
      · rintro (rfl | ⟨asked, rest⟩)
        · exact ⟨.inr rfl, storable, unknown.1⟩
        · exact ⟨.inl asked, rest⟩
    have sum := replayed.sum
    rw [granted] at sum
    rw [ledger, granted, total_append, total_singleton, if_pos mine, counted,
      Finset.sum_insert fresh, sum, delta]
    omega
  · intro q inside
    rw [HasGrant, ledger, taken_append, taken_singleton, key, ← HasGrant, replayed.has q inside,
      List.mem_append, List.mem_singleton]
    constructor
    · rintro ((old | ⟨asked, kept⟩) | same)
      · exact .inl old
      · exact .inr ⟨.inl asked, kept⟩
      · have reference := (Prod.mk.inj (Option.some.inj same)).2
        obtain rfl := grantReference_injective sha256Hex noCollision member inside positive reference
        exact .inr ⟨.inr rfl, storable⟩
    · rintro (old | ⟨asked | rfl, kept⟩)
      · exact .inl (.inl old)
      · exact .inl (.inr ⟨asked, kept⟩)
      · exact .inr rfl

end Replayed

/-- The row of a grant fits when its amount and its note do. -/
theorem grantRow_fits (passes : GrantInput.Passes input) (range : input.credits ≤ 2147483647) :
    (grantRow sha256Hex input draw).Fits ↔ Storable (Js.trim input.note) := by
  have small : Int4 input.credits := ⟨by have := passes.1.1; omega, range⟩
  constructor
  · intro fits
    exact fits.2 _ rfl
  · intro storable
    refine ⟨small, ?_⟩
    intro note has
    obtain rfl := Option.mem_some_iff.1 has
    exact storable

theorem conflicts_grantRow :
    Conflicts (grantRow sha256Hex input draw) db.creditLedger ↔
      HasGrant sha256Hex input.orgId (input.credits, Js.trim input.note) db := by
  rw [Conflicts, HasGrant]
  constructor
  · rintro ⟨k, has, taken⟩
    obtain rfl := Option.some.inj has
    exact taken
  · exact fun taken => ⟨_, rfl, taken⟩

theorem submission_of_grant {orgId : Uuid} (own : input.orgId = orgId)
    (passes : GrantInput.Passes input) :
    (Action.grant input draw now).submission orgId =
      some (input.credits, Js.trim input.note) := by
  rw [Action.submission, if_pos ⟨own, passes⟩]

/-- **One operation of a run.** -/
theorem Replayed.step {orgId : Uuid} {start : Database} {all done : List Submission} {w : World}
    (replayed : Replayed sha256Hex orgId start all done w.db)
    (noCollision : NoCollision sha256Hex all)
    (positive : ∀ p ∈ all, 0 < p.1) (range : ∀ p ∈ all, p.1 ≤ 2147483647) (a : Action)
    (member : ∀ p ∈ a.submission orgId, p ∈ all) :
    Replayed sha256Hex orgId start all (done ++ (a.submission orgId).toList)
      (w.after sha256Hex a).db := by
  by_cases grant : ∃ input draw now, a = .grant input draw now
  swap
  · have operates := after_operational sha256Hex w a
      fun input draw now same => grant ⟨input, draw, now, same⟩
    have none_ : a.submission orgId = none := by
      cases a with
      | grant input draw now => exact absurd ⟨input, draw, now, rfl⟩ grant
      | _ => rfl
    rw [none_, Option.toList_none, List.append_nil]
    rcases operates with ⟨organizations, same | ⟨e, operational, more⟩⟩
    · exact ⟨by rw [ActiveOrganization, organizations]; exact replayed.active,
        by rw [same]; exact replayed.sum,
        fun p inside => by rw [HasGrant, same]; exact replayed.has p inside⟩
    · exact replayed.aside organizations (.inr more) (fun mine => operational.reason mine.2)
        fun p => operational.refKey_ne orgId p
  obtain ⟨input, draw, now, rfl⟩ := grant
  show Replayed sha256Hex orgId start all _ (grantCreditsWithAudit sha256Hex input draw now w.db).2
  by_cases own : input.orgId = orgId
  swap
  · -- a grant to somebody else
    rw [Action.submission, if_neg fun both => own both.1, Option.toList_none, List.append_nil]
    rcases grantCreditsWithAudit_cases sha256Hex input draw now w.db with same | ⟨-, -, after⟩
    · rw [same]
      exact replayed
    · rw [after]
      refine replayed.aside rfl (.inr rfl) (fun mine => own mine.1) fun p same => own ?_
      exact congrArg Prod.fst (Option.some.inj same)
  by_cases passes : GrantInput.Passes input
  swap
  · rw [grant_invalid passes, Action.submission, if_neg fun both => passes both.2,
      Option.toList_none, List.append_nil]
    exact replayed
  have asks : (Action.grant input draw now).submission orgId =
      some (input.credits, Js.trim input.note) := submission_of_grant own passes
  have inside : (input.credits, Js.trim input.note) ∈ all := member _ (by rw [asks]; rfl)
  rw [asks, Option.toList_some, grant_passed (own ▸ replayed.active) passes]
  have fits : (grantRow sha256Hex input draw).Fits ↔ Storable (Js.trim input.note) :=
    grantRow_fits passes (range _ inside)
  by_cases storable : Storable (Js.trim input.note)
  swap
  · rw [if_pos fun written => storable (fits.1 written)]
    exact replayed.again inside fun kept => absurd kept storable
  rw [if_neg (not_not.2 (fits.2 storable))]
  by_cases known : Conflicts (grantRow sha256Hex input draw) w.db.creditLedger
  · rw [if_pos known]
    exact replayed.again inside fun _ => own ▸ conflicts_grantRow.1 known
  · rw [if_neg known]
    refine replayed.applied noCollision positive inside storable ?_ ?_ ⟨own, rfl⟩ rfl rfl rfl
    · exact fun has => known (conflicts_grantRow.2 (own.symm ▸ has))
    · rw [← own]
      rfl

theorem replayed_of_run {orgId : Uuid} {start w : World} {tr : List (Transition World Action)}
    {all : List Submission} (run : Run (step sha256Hex) start tr w)
    (active : ActiveOrganization orgId start.db) (noCollision : NoCollision sha256Hex all)
    (positive : ∀ p ∈ all, 0 < p.1) (range : ∀ p ∈ all, p.1 ≤ 2147483647)
    (member : ∀ p ∈ submissions orgId tr, p ∈ all) :
    Replayed sha256Hex orgId start.db all (submissions orgId tr) w.db := by
  induction run with
  | refl => exact ⟨active, by simp [submissions], fun p _ => by simp [submissions]⟩
  | next _ last ih =>
      obtain ⟨-, rfl⟩ := last
      rw [submissions, List.filterMap_append] at member
      have earlier := ih fun p inside => member p (List.mem_append_left _ inside)
      rename_i s _ a _
      have mine : ∀ p ∈ a.submission orgId, p ∈ all := by
        intro p asks
        refine member p (List.mem_append_right _ ?_)
        exact List.mem_filterMap.2 ⟨_, List.mem_singleton.2 rfl, asks⟩
      have after := earlier.step noCollision positive range a mine
      rw [submissions, List.filterMap_append]
      have new : List.filterMap (fun e : Transition World Action => e.action.submission orgId)
          [⟨s, a, s.after sha256Hex a⟩] = (a.submission orgId).toList := by
        cases asks : a.submission orgId <;> simp [asks]
      rw [new]
      exact after

variable (sha256Hex) (input draw now) in
/-- What a call answers, and what it leaves; `earlier` says that the same was granted before. -/
structure GrantCall (earlier : Prop) (before after : Database) : Prop where
  /-- an invalid call changes nothing -/
  invalid : ¬ GrantInput.Passes input →
    (grantCreditsWithAudit sha256Hex input draw now before).1 = .ok .invalidInput ∧
      after = before
  /-- nor does a replay -/
  replay : GrantInput.Passes input → Storable (Js.trim input.note) → earlier →
    (grantCreditsWithAudit sha256Hex input draw now before).1 = .ok .duplicateReference ∧
      after = before
  /-- a grant adds its row and its event -/
  applies : GrantInput.Passes input → Storable (Js.trim input.note) → ¬ earlier →
    (grantCreditsWithAudit sha256Hex input draw now before).1 =
        .ok (.ok draw.ledgerId (grantReference sha256Hex input.credits (Js.trim input.note))) ∧
      after = withGrant sha256Hex input draw now before
  /-- a note that PostgreSQL refuses changes nothing -/
  refused : GrantInput.Passes input → ¬ Storable (Js.trim input.note) →
    (∃ err, (grantCreditsWithAudit sha256Hex input draw now before).1 = .error err) ∧
      after = before

theorem GrantCall.of_active {earlier : Prop} (active : ActiveOrganization input.orgId db)
    (range : GrantInput.Passes input → input.credits ≤ 2147483647)
    (known : GrantInput.Passes input → Storable (Js.trim input.note) →
      (HasGrant sha256Hex input.orgId (input.credits, Js.trim input.note) db ↔ earlier)) :
    GrantCall sha256Hex input draw now earlier db
      (grantCreditsWithAudit sha256Hex input draw now db).2 := by
  have fits : GrantInput.Passes input →
      ((grantRow sha256Hex input draw).Fits ↔ Storable (Js.trim input.note)) :=
    fun passes => grantRow_fits passes (range passes)
  refine ⟨?_, ?_, ?_, ?_⟩
  · intro refused
    rw [grant_invalid refused]
    exact ⟨rfl, rfl⟩
  · intro passes storable was
    rw [grant_passed active passes, if_neg (not_not.2 ((fits passes).2 storable)),
      if_pos (conflicts_grantRow.2 ((known passes storable).2 was))]
    exact ⟨rfl, rfl⟩
  · intro passes storable new
    rw [grant_passed active passes, if_neg (not_not.2 ((fits passes).2 storable)),
      if_neg fun taken => new ((known passes storable).1 (conflicts_grantRow.1 taken))]
    exact ⟨rfl, rfl⟩
  · intro passes unstorable
    rw [grant_passed active passes, if_pos fun written => unstorable ((fits passes).1 written)]
    exact ⟨⟨_, rfl⟩, rfl⟩

/-- **Replaying grants never adds credits.**  Over any run of operations on credits, what the
calls for an active organisation add is the sum over the different amounts and notes among
them that PostgreSQL can store and that were not granted before; a call adds its row and its
event the first time, and nothing when it is repeated, invalid or refused. -/
theorem grants_replayed (sha256Hex : JsString → String) (orgId : Uuid) (start w : World)
    (tr : List (Transition World Action)) (run : Run (step sha256Hex) start tr w)
    (active : ActiveOrganization orgId start.db)
    (range : ∀ p ∈ submissions orgId tr, p.1 ≤ 2147483647)
    (noCollision : NoCollision sha256Hex (submissions orgId tr)) :
    granted orgId w.db.creditLedger = granted orgId start.db.creditLedger +
        ∑ p ∈ ((submissions orgId tr).filter fun p =>
          Storable p.2 ∧ ¬ HasGrant sha256Hex orgId p start.db).toFinset, p.1 ∧
      (∀ first e rest input draw now, tr = first ++ e :: rest →
        e.action = .grant input draw now → input.orgId = orgId →
          GrantCall sha256Hex input draw now
            (HasGrant sha256Hex orgId (input.credits, Js.trim input.note) start.db ∨
              (input.credits, Js.trim input.note) ∈ submissions orgId first)
            e.source.db e.target.db) ∧
      ∀ (p : Submission) (operation : Uuid), p.reference sha256Hex ≠ operation.text ∧
        p.reference sha256Hex ≠ refundReference operation := by
  have positive : ∀ p ∈ submissions orgId tr, 0 < p.1 := fun p member => mem_submissions member
  refine ⟨(replayed_of_run run active noCollision positive range fun _ member => member).sum, ?_,
    reference_ne sha256Hex⟩
  rintro first e rest input draw now rfl action rfl
  obtain ⟨here, -, target⟩ := run.before rfl
  have sofar := replayed_of_run here active noCollision positive range fun p member => by
    rw [submissions, List.filterMap_append]
    exact List.mem_append_left _ member
  rw [target, action]
  have asked : GrantInput.Passes input →
      (input.credits, Js.trim input.note) ∈ submissions input.orgId (first ++ e :: rest) := by
    intro passes
    refine List.mem_filterMap.2 ⟨e, List.mem_append_right _ List.mem_cons_self, ?_⟩
    rw [action, submission_of_grant rfl passes]
  refine GrantCall.of_active sofar.active (fun passes => range _ (asked passes))
    fun passes storable => ?_
  rw [sofar.has _ (asked passes)]
  exact or_congr_right ⟨fun before => before.1, fun before => ⟨before, storable⟩⟩

/-! ### Two invoices, one of them three times -/

/-- The hashes of the two texts. -/
def invoiceHash (text : JsString) : String :=
  if text = Js.ofString "100:INV-1" then
    "0b5d3318a20bbca475401a17dbcec96b578cf5cf70ecdb8bafc516825659979b"
  else if text = Js.ofString "40:INV-2" then
    "744b33e769436c3e89b7558a44c1ff827c36a84f71d6b9b58b1f6aa43f51be3d"
  else ""

/-- A grant of an organisation by hand. -/
def invoice (credits : Int) (note : String) (k : ℕ) : Action :=
  .grant ⟨.numbered 1, credits, Js.ofString note⟩ (drawn k) 0

/-- The first invoice is submitted again, with a blank more, and a batch comes in between. -/
def invoices : List Action :=
  [invoice 100 "INV-1" 1, invoice 100 "INV-1" 2,
    .createBatch ⟨.numbered 2, .numbered 1, "list.csv", 10, "in", ⟨0, true, 0, 0, 0, 0, 0,
      ⟨0, 0, 0, 0⟩⟩⟩ (drawn 3) 0,
    invoice 40 "INV-2" 4, invoice 0 "INV-3" 5, invoice 100 " INV-1 " 6]

def invoiced : World := invoices.foldl (World.after invoiceHash) oneOrganization

theorem grants_replayed_invoices : granted (.numbered 1) invoiced.db.creditLedger = 140 ∧
    ∃ tr, Run (step invoiceHash) oneOrganization tr invoiced ∧
      granted (.numbered 1) invoiced.db.creditLedger =
        granted (.numbered 1) oneOrganization.db.creditLedger +
          ∑ p ∈ ((submissions (.numbered 1) tr).filter fun p => Storable p.2 ∧
            ¬ HasGrant invoiceHash (.numbered 1) p oneOrganization.db).toFinset, p.1 := by
  have executable : Executable World.Allows (World.after invoiceHash) oneOrganization invoices := by
    decide +kernel
  let tr := transitions (World.after invoiceHash) oneOrganization invoices
  have run : Run (step invoiceHash) oneOrganization tr invoiced := executable.run_transitions
  have actions : tr.map (·.action) = invoices := map_action_transitions _ _
  have asked : submissions (.numbered 1) tr = [(100, Js.ofString "INV-1"),
      (100, Js.ofString "INV-1"), (40, Js.ofString "INV-2"), (100, Js.ofString "INV-1")] := by
    have maps : submissions (.numbered 1) tr =
        (tr.map (·.action)).filterMap (·.submission (.numbered 1)) := by
      rw [List.filterMap_map]
      rfl
    rw [maps, actions]
    decide +kernel
  refine ⟨by decide +kernel, tr, run, (grants_replayed invoiceHash (.numbered 1) oneOrganization
    invoiced tr run ⟨_, rfl, rfl⟩ ?_ ?_).1⟩
  · rw [asked]
    decide
  · rw [asked, NoCollision]
    decide +kernel

/-- A note that passes the validation and that PostgreSQL cannot store. -/
def nulNote : GrantInput := ⟨.numbered 1, 5, Js.ofString "INV-4" ++ [0]⟩

/-- **Not every grant that passes is added.** -/
theorem nul_note_lost : ¬ ∀ (sha256Hex : JsString → String) (orgId : Uuid) (start w : World)
    (tr : List (Transition World Action)), Run (step sha256Hex) start tr w →
      ActiveOrganization orgId start.db → start.db.creditLedger = [] →
      (∀ p ∈ submissions orgId tr, p.1 ≤ 2147483647) →
      NoCollision sha256Hex (submissions orgId tr) →
        granted orgId w.db.creditLedger = ∑ p ∈ (submissions orgId tr).toFinset, p.1 := by
  intro all
  have run : Run (step invoiceHash) oneOrganization
      [⟨oneOrganization, .grant nulNote (drawn 1) 0,
        oneOrganization.after invoiceHash (.grant nulNote (drawn 1) 0)⟩] _ :=
    .single ⟨trivial, rfl⟩
  have sum := all invoiceHash (.numbered 1) oneOrganization _ _ run ⟨_, rfl, rfl⟩ rfl (by decide)
    (by rw [NoCollision]; decide +kernel)
  revert sum
  decide +kernel

end Tozalist.Credits
