/-
# Tozalist.Db.Export -- the keyset readers of the data export

`packages/db/src/export.ts`: five readers, each of one table and one organisation, which
page by primary key.  A page of fewer than `EXPORT_PAGE_SIZE` rows is the last one, so a
table whose rows fill its pages exactly has an empty page more.

`follow_page_eq`: the pages of a reader are the organisation's rows in the order of
their ids.
-/
import Tozalist.Db.Pages

namespace Tozalist.Db

set_option autoImplicit false

open Theory.Keyset

/-- `EXPORT_PAGE_SIZE`. -/
def exportPageSize : ℕ := 1000

section Readers

variable {ρ : Type} (id : ρ → Uuid)

/-- `orderBy(asc(id))`. -/
def byId (a b : ρ) : Bool := (id a).text ≤ (id b).text

/-- The rows of a query, past an id, at most a page of them. -/
def queryAfter (mine : List ρ) (after : Option Uuid) : List ρ :=
  ((match after with
    | none => mine
    | some a => mine.filter fun r => a.text < (id r).text).mergeSort (byId id)).take exportPageSize

/-- `page`: the rows and the `nextAfterId`. -/
def exportPage (query : Option Uuid → List ρ) (afterId : Option Uuid) : List ρ × Option Uuid :=
  (query afterId,
    if (query afterId).length < exportPageSize then none else (query afterId).getLast?.map id)

end Readers

/-- `pageEmailChecksForExport`. -/
def pageEmailChecksForExport (db : Database) (orgId : Uuid) :
    Option Uuid → List EmailCheck × Option Uuid :=
  exportPage EmailCheck.id
    (queryAfter EmailCheck.id (db.emailChecks.filter fun c => c.orgId = orgId))

/-- `pagePhoneChecksForExport`. -/
def pagePhoneChecksForExport (db : Database) (orgId : Uuid) :
    Option Uuid → List PhoneCheck × Option Uuid :=
  exportPage PhoneCheck.id
    (queryAfter PhoneCheck.id (db.phoneChecks.filter fun c => c.orgId = orgId))

/-- `pageBatchesForExport`. -/
def pageBatchesForExport (db : Database) (orgId : Uuid) :
    Option Uuid → List Batch × Option Uuid :=
  exportPage Batch.id (queryAfter Batch.id (db.batches.filter fun b => b.orgId = orgId))

/-- `pageLedgerForExport`. -/
def pageLedgerForExport (db : Database) (orgId : Uuid) :
    Option Uuid → List CreditLedgerEntry × Option Uuid :=
  exportPage CreditLedgerEntry.id
    (queryAfter CreditLedgerEntry.id (db.creditLedger.filter fun e => e.orgId = orgId))

/-- `pageAuditEventsForExport`. -/
def pageAuditEventsForExport (db : Database) (orgId : Uuid) :
    Option Uuid → List AuditEvent × Option Uuid :=
  exportPage AuditEvent.id
    (queryAfter AuditEvent.id (db.auditEvents.filter fun e => e.orgId = some orgId))

/-! ## The pages of a reader -/

section Pages

variable {ρ : Type} {id : ρ → Uuid}

theorem byId_trans (a b c : ρ) (ab : byId id a b = true) (bc : byId id b c = true) :
    byId id a c = true := by
  simp only [byId, decide_eq_true_eq] at *
  exact String.le_trans ab bc

theorem byId_total (a b : ρ) : (byId id a b || byId id b a) = true := by
  simp only [byId, Bool.or_eq_true, decide_eq_true_eq]
  exact String.le_total _ _

/-- Past an id. -/
def pastId (id : ρ → Uuid) (a : Uuid) (r : ρ) : Bool := a.text < (id r).text

/-- **A reader's page is a full page of the sorted rows.** -/
theorem exportPage_eq (mine : List ρ) (after : Option Uuid) :
    exportPage id (queryAfter id mine) after =
      fullPage (mine.mergeSort (byId id)) (pastId id) id exportPageSize after := by
  have query : queryAfter id mine after =
      (selected (mine.mergeSort (byId id)) (pastId id) after).take exportPageSize := by
    unfold queryAfter selected
    cases after with
    | none => rfl
    | some a =>
        simp only [Theory.Table.filter_mergeSort byId_trans byId_total]
        rfl
  rw [exportPage, fullPage, query]

theorem sorted_byId (mine : List ρ) :
    (mine.mergeSort (byId id)).Pairwise fun a b => byId id a b = true :=
  List.pairwise_mergeSort byId_trans byId_total mine

/-- The sorted rows are ordered by their ids. -/
theorem ordered_byId (mine : List ρ) :
    Ordered (mine.mergeSort (byId id)) (pastId id) id := by
  constructor
  · refine (sorted_byId mine).imp fun le a past => ?_
    simp only [byId, pastId, decide_eq_true_eq] at *
    exact Std.lt_of_lt_of_le past le
  · refine (sorted_byId mine).imp fun le => ?_
    simp only [byId, pastId, decide_eq_true_eq, decide_eq_false_iff_not] at *
    exact String.not_lt.2 le
  · intro row _
    simp [pastId]

/-- Where ids are unique, every row's id selects the rows behind it. -/
theorem strict_byId {mine : List ρ} (unique : (mine.map id).Nodup) :
    (mine.mergeSort (byId id)).Pairwise fun a b => pastId id (id a) b = true := by
  have distinct : (mine.mergeSort (byId id)).Pairwise fun a b => id a ≠ id b :=
    List.pairwise_map.1 (((List.mergeSort_perm mine (byId id)).map id).nodup_iff.2 unique)
  refine ((sorted_byId mine).and distinct).imp fun both => ?_
  simp only [byId, pastId, decide_eq_true_eq] at *
  exact Std.lt_of_le_of_ne both.1 fun same => both.2 (Uuid.ext_text same)

/-- **The pages of a reader are the organisation's rows, by id, and they end.** -/
theorem follow_page_eq {mine : List ρ} (unique : (mine.map id).Nodup) :
    follow (fun after => some (exportPage id (queryAfter id mine) after)) (mine.length + 1) none =
      some (mine.mergeSort (byId id)) := by
  have serves := (ordered_byId mine).fullPage_serves (by decide : 0 < exportPageSize)
    (strict_byId unique)
  have whole := serves.follow_eq (by decide : 0 < exportPageSize)
    (show mine.mergeSort (byId id) = selected _ (pastId id) none from rfl)
  rw [List.length_mergeSort] at whole
  rw [← whole]
  congr 1
  funext after
  rw [exportPage_eq]

end Pages

end Tozalist.Db
