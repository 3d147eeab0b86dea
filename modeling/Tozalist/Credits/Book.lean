/-
# Tozalist.Credits.Book -- the ledger is an account book with holds

What the credit ledger is for: organisations have free credits, a batch sets some of
them aside under its id, and its end gives a part of them back, once.  That is
`Theory.Escrow.Book`, with organisations as accounts and batch ids as names.

`Represents rows book` says that a list of ledger rows stands for a book: the sum of
an organisation's deltas is its free credits, a hold is the row with the batch id as
its reference, and what it released is the row with the refund reference.  Each
insert the operations make is one step of the book (`Represents.grant`, `.check`,
`.reservation`, `.refund`), with a free reference as the only reason it needs.
-/
import Tozalist.Credits.Standing
import Tozalist.Theory.Escrow

namespace Tozalist.Credits

set_option autoImplicit false

open Db
open Theory.Table
open Theory.Escrow (Hold Book)

/-- An account book of organisations and batch ids. -/
abbrev CreditBook : Type := Book Uuid Uuid

/-- A hold as it is on the ledger: its reservation, and its refund when there was one. -/
structure OnLedger (rows : List CreditLedgerEntry) (orgId batchId : Uuid) (h : Hold) : Prop where
  reserved : ∃ e ∈ rows, refKey e = some (held orgId batchId) ∧ e.delta = -(h.amount : Int)
  unreleased : h.released = 0 → ¬ Taken refKey (refunded orgId batchId) rows
  released : 0 < h.released →
    ∃ e ∈ rows, refKey e = some (refunded orgId batchId) ∧ e.delta = h.released

/-- The rows stand for the book. -/
structure Represents (rows : List CreditLedgerEntry) (book : CreditBook) : Prop where
  unique : Unique refKey rows
  free : ∀ orgId, balance orgId rows = book.free orgId
  holds : ∀ orgId batchId h, book.holds orgId batchId = some h → OnLedger rows orgId batchId h
  absent : ∀ orgId batchId, book.holds orgId batchId = none →
    ¬ Taken refKey (refunded orgId batchId) rows

/-- A row that is no refund of the batch leaves its hold as it is. -/
theorem OnLedger.append {rows : List CreditLedgerEntry} {orgId batchId : Uuid} {h : Hold}
    (onLedger : OnLedger rows orgId batchId h) {entry : CreditLedgerEntry}
    (other : refKey entry ≠ some (refunded orgId batchId)) :
    OnLedger (rows ++ [entry]) orgId batchId h where
  reserved := by
    obtain ⟨e, member, key, delta⟩ := onLedger.reserved
    exact ⟨e, List.mem_append_left _ member, key, delta⟩
  unreleased := by
    intro zero taken
    rcases (taken_append [entry]).1 taken with before | now
    · exact onLedger.unreleased zero before
    · exact other (taken_singleton.1 now)
  released := by
    intro some_
    obtain ⟨e, member, key, delta⟩ := onLedger.released some_
    exact ⟨e, List.mem_append_left _ member, key, delta⟩

/-- What a batch has paid is its hold's cost. -/
theorem OnLedger.net {rows : List CreditLedgerEntry} {orgId batchId : Uuid} {h : Hold}
    (onLedger : OnLedger rows orgId batchId h) (unique : Unique refKey rows) :
    net orgId batchId rows = -(h.cost : Int) := by
  obtain ⟨e, member, key, delta⟩ := onLedger.reserved
  have le := h.le
  rw [Hold.cost]
  rcases Nat.eq_zero_or_pos h.released with zero | some_
  · rw [net_of_open unique member key (onLedger.unreleased zero), delta]
    omega
  · obtain ⟨back, backMember, backKey, backDelta⟩ := onLedger.released some_
    rw [net_of_settled unique member key backMember backKey, delta, backDelta]
    omega

/-- Changing one account moves the sums of that account alone. -/
theorem update_moved {free : Uuid → ℕ} {orgId : Uuid} {n : ℕ} {delta : Int}
    (here : (n : Int) = free orgId + delta) (orgId' : Uuid) :
    ((Function.update free orgId n orgId' : ℕ) : Int) =
      free orgId' + if orgId = orgId' then delta else 0 := by
  by_cases same : orgId = orgId'
  · subst same
    rw [Function.update_self, if_pos rfl, here]
  · rw [Function.update_of_ne (Ne.symm same), if_neg same, add_zero]

namespace Represents

variable {rows : List CreditLedgerEntry} {book : CreditBook} {entry : CreditLedgerEntry}

theorem empty : Represents [] ⟨fun _ => 0, fun _ _ => none⟩ where
  unique := Unique.nil
  free := fun _ => rfl
  holds := by
    intro _ _ _ present
    cases present
  absent := by
    rintro _ _ - ⟨_, member, -⟩
    cases member

/-- A row that is no refund changes free credits only, by its delta. -/
theorem append_other (represents : Represents rows book) (fresh : ¬ Conflicts entry rows)
    (other : ∀ orgId batchId, refKey entry ≠ some (refunded orgId batchId)) (free : Uuid → ℕ)
    (moved : ∀ orgId, (free orgId : Int) =
      book.free orgId + if entry.orgId = orgId then entry.delta else 0) :
    Represents (rows ++ [entry]) { book with free := free } where
  unique := represents.unique.insert (free_of_not_conflicts fresh)
  free := by
    intro orgId
    rw [balance_append, represents.free, moved]
  holds := fun orgId batchId h present =>
    (represents.holds orgId batchId h present).append (other orgId batchId)
  absent := by
    intro orgId batchId none_ taken
    rcases (taken_append [entry]).1 taken with before | now
    · exact represents.absent orgId batchId none_ before
    · exact other orgId batchId (taken_singleton.1 now)

/-- A grant is a deposit. -/
theorem grant (represents : Represents rows book) {sha256Hex : JsString → String}
    {input : GrantInput} {note : JsString} {draw : Draw} (positive : 0 < input.credits)
    (fresh : ¬ Conflicts (grantEntry sha256Hex input note draw) rows) :
    Represents (rows ++ [grantEntry sha256Hex input note draw])
      (book.deposit input.orgId input.credits.toNat) := by
  apply represents.append_other fresh (refKey_grantEntry_ne _ _ _ _) _
  exact update_moved (by push_cast [grantEntry]; omega)

/-- The debit of a check is a spending. -/
theorem check (represents : Represents rows book) {orgId checkId : Uuid} {draw : Draw}
    (enough : 1 ≤ balance orgId rows) (fresh : ¬ Conflicts (checkEntry orgId checkId draw) rows) :
    1 ≤ book.free orgId ∧
      Represents (rows ++ [checkEntry orgId checkId draw]) (book.spend orgId 1) := by
  have funded : 1 ≤ book.free orgId := by
    rw [represents.free] at enough
    omega
  refine ⟨funded, represents.append_other fresh (refKey_checkEntry_ne _ _ _) _ ?_⟩
  exact update_moved (by push_cast [checkEntry]; omega)

/-- A name whose reservation is not on the ledger holds nothing. -/
theorem holds_eq_none (represents : Represents rows book) {orgId batchId : Uuid}
    (fresh : ¬ Taken refKey (held orgId batchId) rows) : book.holds orgId batchId = none := by
  cases present : book.holds orgId batchId with
  | none => rfl
  | some h =>
      obtain ⟨e, member, key, -⟩ := (represents.holds orgId batchId h present).reserved
      exact absurd ⟨e, member, key⟩ fresh

/-- A reservation sets credits aside. -/
theorem reservation (represents : Represents rows book) {orgId batchId : Uuid} {totalRows : ℕ}
    {draw : Draw} (enough : (totalRows : Int) ≤ balance orgId rows)
    (fresh : ¬ Conflicts (reservationEntry orgId batchId totalRows draw) rows) :
    totalRows ≤ book.free orgId ∧ book.holds orgId batchId = none ∧
      Represents (rows ++ [reservationEntry orgId batchId totalRows draw])
        (book.setAside orgId batchId totalRows) := by
  have funded : totalRows ≤ book.free orgId := by
    rw [represents.free] at enough
    omega
  have free : ¬ Taken refKey (held orgId batchId) rows := free_of_not_conflicts fresh _ rfl
  have none_ := represents.holds_eq_none free
  have spent : Represents (rows ++ [reservationEntry orgId batchId totalRows draw])
      (book.spend orgId totalRows) := by
    apply represents.append_other fresh (fun _ _ => by simp) _
    exact update_moved (by push_cast [reservationEntry]; omega)
  refine ⟨funded, none_, spent.unique, spent.free, ?_, ?_⟩
  · intro orgId' batchId' h present
    rw [Book.setAside, Book.record_holds] at present
    split at present
    · rename_i same
      obtain ⟨rfl, rfl⟩ := same
      obtain rfl := (Option.some.inj present).symm
      exact
        { reserved := ⟨_, List.mem_append_right _ (List.mem_singleton.2 rfl), rfl, rfl⟩
          unreleased := fun _ => spent.absent _ _ none_
          released := fun positive => absurd positive (lt_irrefl 0) }
    · exact spent.holds orgId' batchId' h present
  · intro orgId' batchId' missing
    rw [Book.setAside, Book.record_holds] at missing
    split at missing
    · cases missing
    · exact spent.absent orgId' batchId' missing

/-- A refund gives held credits back: its reference being free, nothing was given back. -/
theorem refund (represents : Represents rows book) {orgId batchId : Uuid} {amount : ℕ}
    {note : String} {draw : Draw} {h : Hold} (present : book.holds orgId batchId = some h)
    (positive : 0 < amount) (le : amount ≤ h.amount)
    (fresh : ¬ Conflicts (refundEntry orgId batchId amount note draw) rows) :
    h.released = 0 ∧ Represents (rows ++ [refundEntry orgId batchId amount note draw])
      (book.release orgId batchId h amount le) := by
  have onLedger := represents.holds orgId batchId h present
  have unreleased : h.released = 0 := by
    rcases Nat.eq_zero_or_pos h.released with zero | some_
    · exact zero
    · obtain ⟨e, member, key, -⟩ := onLedger.released some_
      exact absurd ⟨e, member, key⟩ (free_of_not_conflicts fresh _ rfl)
  refine ⟨unreleased, represents.unique.insert (free_of_not_conflicts fresh), ?_, ?_, ?_⟩
  · intro orgId'
    rw [balance_append, represents.free]
    by_cases here : orgId = orgId'
    · subst here
      simp [Book.release, Book.deposit, Book.record, refundEntry]
    · simp [Book.release, Book.deposit, Book.record, refundEntry, here, Ne.symm here]
  · intro orgId' batchId' h' present'
    rw [Book.release, Book.record_holds] at present'
    split at present'
    · rename_i same
      obtain ⟨rfl, rfl⟩ := same
      obtain rfl := (Option.some.inj present').symm
      obtain ⟨e, member, key, delta⟩ := onLedger.reserved
      exact
        { reserved := ⟨e, List.mem_append_left _ member, key, delta⟩
          unreleased := fun zero => absurd zero (Nat.pos_iff_ne_zero.1 positive)
          released := fun _ =>
            ⟨_, List.mem_append_right _ (List.mem_singleton.2 rfl), rfl, rfl⟩ }
    · rename_i other
      refine (represents.holds orgId' batchId' h' present').append fun same => other ?_
      exact (refunded_inj.1 (Option.some.inj same).symm)
  · intro orgId' batchId' missing taken
    rw [Book.release, Book.record_holds] at missing
    split at missing
    · cases missing
    · rename_i other
      rcases (taken_append _).1 taken with before | now
      · exact represents.absent orgId' batchId' missing before
      · have same : refKey (refundEntry orgId batchId amount note draw) = _ := taken_singleton.1 now
        exact other (refunded_inj.1 (Option.some.inj same).symm)

end Represents

end Tozalist.Credits
