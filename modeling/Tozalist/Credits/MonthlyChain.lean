/-
# Tozalist.Credits.MonthlyChain -- statements that chain, and the balance at their end

The monthly statements of one ledger, the credit balance and the running balances all sum the
same rows, split in different ways: by reason, by month, and by the order of the rows.

* `exact_of_fit` -- each number of a statement is the sum it stands for, as long as
  the running sums fit and no month moves more than JavaScript can add;
* `entriesOf_perm` -- the entries of months in a row are the rows between them, each once;
* `statements_chain_iff` -- so statements chain, and end in the balance and in the newest
  running balance, exactly when every running sum is a 32-bit integer;
* `two_large_grants` -- two grants of the largest amount that fits, and the statement goes on
  while both other readings fail.
-/
import Tozalist.Db.Statements

namespace Tozalist.Credits

set_option autoImplicit false

open Db
open Theory.Table

/-! ## Sums by reason and by time -/

/-- The deltas of some reasons, summed exactly. -/
def sumOf (entries : List CreditLedgerEntry) (reasons : List CreditReason) : Int :=
  ((entries.filter fun e => e.reason ∈ reasons).map (·.delta)).sum

theorem sumOf_cons (e : CreditLedgerEntry) (entries : List CreditLedgerEntry)
    (reasons : List CreditReason) : sumOf (e :: entries) reasons =
      (if e.reason ∈ reasons then e.delta else 0) + sumOf entries reasons := by
  rw [sumOf, List.filter_cons]
  by_cases has : e.reason ∈ reasons
  · rw [if_pos (decide_eq_true has), if_pos has]
    rfl
  · rw [if_neg (by simpa using has), if_neg has, zero_add]
    rfl

/-- Every row has one of the reasons a statement tells apart. -/
theorem sumOf_reasons (entries : List CreditLedgerEntry) :
    sumOf entries [.grant] + sumOf entries consumptionReasons + sumOf entries [.refund] +
      sumOf entries [.adjustment] = (entries.map (·.delta)).sum := by
  induction entries with
  | nil => rfl
  | cons e entries ih =>
      simp only [sumOf_cons, List.map_cons, List.sum_cons]
      cases e.reason <;> simp [consumptionReasons] at ih ⊢ <;> omega

/-- No month of an organisation moves more credits than JavaScript adds exactly. -/
def MonthsSafe (db : Database) (orgId : Uuid) : Prop :=
  ∀ month bounds, parseStatementMonth month = some bounds →
    Js.volume ((entriesBetween db orgId bounds.start bounds.end_).map (·.delta)) ≤
      Js.maxSafeInteger

/-- So it is if the whole ledger moves no more. -/
theorem monthsSafe_of_volume {db : Database} {orgId : Uuid}
    (safe : Js.volume (db.creditLedger.map (·.delta)) ≤ Js.maxSafeInteger) :
    MonthsSafe db orgId := by
  intro month bounds _
  exact (Js.volume_filter_le _ _ _).trans safe

section Statement

variable {db : Database} {orgId : Uuid} {month : JsString} {s : MonthlyStatement}
  {bounds : MonthBounds}

theorem entriesBetween_sum (db : Database) (orgId : Uuid) (start end_ : Date) :
    ((entriesBetween db orgId start end_).map (·.delta)).sum =
      total (fun e => e.orgId = orgId ∧ start.timestamp ≤ e.createdAt ∧
        e.createdAt < end_.timestamp) (·.delta) db.creditLedger := rfl

theorem timestamp_le {a b : Date} (le : a ≤ b) : a.timestamp ≤ b.timestamp := by
  show a * 1000 ≤ b * 1000
  exact Int.mul_le_mul_of_nonneg_right le (by decide)

/-- What was before the month and what is in it is what was before its end. -/
theorem deltaBefore_end {start end_ : Date} (le : start ≤ end_) :
    deltaBefore db orgId start + ((entriesBetween db orgId start end_).map (·.delta)).sum =
      deltaBefore db orgId end_ := by
  have later := timestamp_le le
  have split : deltaBefore db orgId end_ = _ :=
    total_split (fun e : CreditLedgerEntry => e.orgId = orgId ∧ e.createdAt < end_.timestamp)
      (fun e => e.createdAt < start.timestamp) (·.delta) db.creditLedger
  rw [split, entriesBetween_sum, deltaBefore]
  congr 1
  · refine total_congr fun e _ => ⟨fun ⟨own, before⟩ => ⟨⟨own, ?_⟩, before⟩,
      fun ⟨⟨own, _⟩, before⟩ => ⟨own, before⟩⟩
    exact lt_of_lt_of_le before later
  · refine total_congr fun e _ => ⟨fun ⟨own, from_, before⟩ => ⟨⟨own, before⟩, not_lt.2 from_⟩,
      fun ⟨⟨own, before⟩, from_⟩ => ⟨own, not_lt.1 from_, before⟩⟩

theorem deltaBefore_fits (fit : RunningSumsFit orgId db.creditLedger) (at_ : Date) :
    Int4 (deltaBefore db orgId at_) := by
  apply fit.initial (fun e => e.createdAt < at_.timestamp)
  intro e r before earlier
  exact lt_of_le_of_lt (CreditLedgerEntry.createdAt_le_of_upTo earlier) before

theorem toNumber_int4 {n : Int} (fits : Int4 n) : Js.toNumber n = n := by
  apply Js.toNumber_safe
  unfold Int4 at fits
  unfold Js.maxSafeInteger
  omega

/-- Sorted entries sum up to the same. -/
theorem byReason_eq {entries sorted : List CreditLedgerEntry} (perm : sorted.Perm entries)
    (safe : Js.volume (entries.map (·.delta)) ≤ Js.maxSafeInteger) (reasons : List CreditReason) :
    byReason sorted reasons = sumOf entries reasons := by
  have same : Js.volume (sorted.map (·.delta)) = Js.volume (entries.map (·.delta)) :=
    ((perm.map _).map _).sum_eq
  rw [byReason, Js.sumNumbers_eq ((Js.volume_filter_le _ _ _).trans (same ▸ safe)), sumOf]
  exact ((perm.filter _).map _).sum_eq

/-- **The numbers of a statement** are the sums they stand for. -/
structure Exact (db : Database) (orgId : Uuid) (bounds : MonthBounds) (s : MonthlyStatement) :
    Prop where
  entries : s.entries.Perm (entriesBetween db orgId bounds.start bounds.end_)
  opening : s.openingBalance = deltaBefore db orgId bounds.start
  granted : s.creditsGranted = sumOf (entriesBetween db orgId bounds.start bounds.end_) [.grant]
  consumed : s.creditsConsumed =
    -sumOf (entriesBetween db orgId bounds.start bounds.end_) consumptionReasons
  refunded : s.creditsRefunded =
    sumOf (entriesBetween db orgId bounds.start bounds.end_) [.refund]
  adjustments : s.adjustments =
    sumOf (entriesBetween db orgId bounds.start bounds.end_) [.adjustment]
  closing : s.closingBalance = deltaBefore db orgId bounds.end_

theorem entries_perm (parses : parseStatementMonth month = some bounds)
    (is : getMonthlyStatement db orgId month = some s) :
    s.entries.Perm (entriesBetween db orgId bounds.start bounds.end_) := by
  rw [getMonthlyStatement, parses] at is
  obtain rfl := Option.some.inj is
  exact List.mergeSort_perm _ _

theorem exact_of_fit (fit : RunningSumsFit orgId db.creditLedger) (safe : MonthsSafe db orgId)
    (parses : parseStatementMonth month = some bounds)
    (is : getMonthlyStatement db orgId month = some s) : Exact db orgId bounds s := by
  have perm := entries_perm parses is
  have volume := safe month bounds parses
  rw [getMonthlyStatement, parses] at is
  obtain rfl := Option.some.inj is
  have opening := toNumber_int4 (deltaBefore_fits fit bounds.start)
  refine ⟨perm, opening, byReason_eq perm volume _, ?_, byReason_eq perm volume _,
    byReason_eq perm volume _, ?_⟩
  · exact congrArg Neg.neg (byReason_eq perm volume _)
  · have same : Js.volume (((entriesBetween db orgId bounds.start bounds.end_).mergeSort
        CreditLedgerEntry.upTo).map (·.delta)) =
          Js.volume ((entriesBetween db orgId bounds.start bounds.end_).map (·.delta)) :=
      ((perm.map _).map _).sum_eq
    have month_ : Js.sumNumbers (((entriesBetween db orgId bounds.start bounds.end_).mergeSort
        CreditLedgerEntry.upTo).map (·.delta)) =
          ((entriesBetween db orgId bounds.start bounds.end_).map (·.delta)).sum := by
      rw [Js.sumNumbers_eq (same ▸ volume)]
      exact (perm.map _).sum_eq
    show Js.toNumber (Js.toNumber _ + Js.sumNumbers _) = _
    rw [opening, month_, deltaBefore_end (le_of_lt (start_lt_end parses)),
      toNumber_int4 (deltaBefore_fits fit bounds.end_)]

end Statement

/-! ## Months in a row -/

/-- The entries of the statements of some months. -/
def entriesOf (db : Database) (orgId : Uuid) (months : List JsString) : List CreditLedgerEntry :=
  months.flatMap fun month => ((getMonthlyStatement db orgId month).map (·.entries)).getD []

section Months

variable {db : Database} {orgId : Uuid}

variable (db orgId) in
theorem statement_isSome {month : JsString} {bounds : MonthBounds}
    (parses : parseStatementMonth month = some bounds) :
    ∃ s, getMonthlyStatement db orgId month = some s := by
  rw [getMonthlyStatement, parses]
  exact ⟨_, rfl⟩

variable (db orgId) in
theorem entriesOf_cons {month : JsString} {bounds : MonthBounds} (months : List JsString)
    (parses : parseStatementMonth month = some bounds) :
    (entriesOf db orgId (month :: months)).Perm
      (entriesBetween db orgId bounds.start bounds.end_ ++ entriesOf db orgId months) := by
  obtain ⟨s, is⟩ := statement_isSome db orgId parses
  rw [entriesOf, List.flatMap_cons, is]
  exact (entries_perm parses is).append_right _

/-- What lies between two instants lies before or after a third one between them. -/
theorem entriesBetween_perm {a b c : Date} (ab : a ≤ b) (bc : b ≤ c) :
    (entriesBetween db orgId a b ++ entriesBetween db orgId b c).Perm
      (entriesBetween db orgId a c) := by
  have ab' := timestamp_le ab
  have bc' := timestamp_le bc
  unfold entriesBetween
  induction db.creditLedger with
  | nil => exact .refl _
  | cons e rows ih =>
      by_cases before : e.createdAt < b.timestamp
      · have second : ¬ (e.orgId = orgId ∧ b.timestamp ≤ e.createdAt ∧
            e.createdAt < c.timestamp) := fun ⟨_, from_, _⟩ => absurd before (not_lt.2 from_)
        have same : (e.orgId = orgId ∧ a.timestamp ≤ e.createdAt ∧ e.createdAt < c.timestamp) ↔
            (e.orgId = orgId ∧ a.timestamp ≤ e.createdAt ∧ e.createdAt < b.timestamp) := by
          constructor
          · exact fun ⟨own, from_, _⟩ => ⟨own, from_, before⟩
          · exact fun ⟨own, from_, _⟩ => ⟨own, from_, lt_of_lt_of_le before bc'⟩
        simp only [List.filter_cons, second, same, decide_false, Bool.false_eq_true, if_false]
        split
        · exact ih.cons e
        · exact ih
      · have first : ¬ (e.orgId = orgId ∧ a.timestamp ≤ e.createdAt ∧
            e.createdAt < b.timestamp) := fun ⟨_, _, inside⟩ => before inside
        have same : (e.orgId = orgId ∧ a.timestamp ≤ e.createdAt ∧ e.createdAt < c.timestamp) ↔
            (e.orgId = orgId ∧ b.timestamp ≤ e.createdAt ∧ e.createdAt < c.timestamp) := by
          constructor
          · exact fun ⟨own, _, until_⟩ => ⟨own, not_lt.1 before, until_⟩
          · exact fun ⟨own, _, until_⟩ => ⟨own, le_trans ab' (not_lt.1 before), until_⟩
        simp only [List.filter_cons, first, same, decide_false, Bool.false_eq_true, if_false]
        split
        · exact List.perm_middle.trans (ih.cons e)
        · exact ih

/-- **The entries of months in a row** are the rows between the start of the first and the end
of the last. -/
theorem entriesOf_perm {month : JsString} {months : List JsString} {bounds last : MonthBounds}
    (row : List.IsChain Follows (month :: months))
    (valid : ∀ m ∈ month :: months, parseStatementMonth m ≠ none)
    (parses : parseStatementMonth month = some bounds)
    (ends : parseStatementMonth ((month :: months).getLast (List.cons_ne_nil _ _)) = some last) :
    bounds.start ≤ last.end_ ∧ (entriesOf db orgId (month :: months)).Perm
      (entriesBetween db orgId bounds.start last.end_) := by
  induction months generalizing month bounds with
  | nil =>
      obtain rfl : bounds = last := Option.some.inj (parses.symm.trans ends)
      refine ⟨le_of_lt (start_lt_end parses), ?_⟩
      have perm := entriesOf_cons db orgId [] parses
      rwa [show entriesOf db orgId [] = [] from rfl, List.append_nil] at perm
  | cons next months ih =>
      obtain ⟨follows, rest⟩ := List.isChain_cons_cons.1 row
      obtain ⟨bounds', parses'⟩ := Option.ne_none_iff_exists'.1
        (valid next (List.mem_cons_of_mem _ List.mem_cons_self))
      have here := le_of_lt (start_lt_end parses)
      obtain ⟨later, perm⟩ := ih rest (fun m member => valid m (List.mem_cons_of_mem _ member))
        parses' ends
      rw [readMonth_follows follows parses parses'] at later perm
      refine ⟨le_trans here later, ?_⟩
      exact ((entriesOf_cons db orgId (next :: months) parses).trans (perm.append_left _)).trans
        (entriesBetween_perm here later)

end Months

/-! ## The newest running balance -/

namespace RunningPage

variable (timeText : Timestamp → String)

theorem before_trans (a b c : RunningEntry) (ab : RunningEntry.before timeText a b = true)
    (bc : RunningEntry.before timeText b c = true) : RunningEntry.before timeText a c = true := by
  simp only [RunningEntry.before, Bool.or_eq_true, Bool.and_eq_true, decide_eq_true_eq] at ab bc ⊢
  rcases ab with ab | ⟨ab, ab'⟩ <;> rcases bc with bc | ⟨bc, bc'⟩
  · exact .inl (String.lt_trans bc ab)
  · exact .inl (bc ▸ ab)
  · exact .inl (ab ▸ bc)
  · exact .inr ⟨ab.trans bc, String.le_trans bc' ab'⟩

theorem before_total (a b : RunningEntry) :
    (RunningEntry.before timeText a b || RunningEntry.before timeText b a) = true := by
  simp only [RunningEntry.before, Bool.or_eq_true, Bool.and_eq_true, decide_eq_true_eq]
  by_cases lt : timeText a.entry.createdAt < timeText b.entry.createdAt
  · exact .inr (.inl lt)
  by_cases gt : timeText b.entry.createdAt < timeText a.entry.createdAt
  · exact .inl (.inl gt)
  have same := String.le_antisymm (String.not_lt.1 gt) (String.not_lt.1 lt)
  rcases String.le_total a.entry.id.text b.entry.id.text with le | le
  · exact .inr (.inr ⟨same.symm, le⟩)
  · exact .inl (.inr ⟨same, le⟩)

end RunningPage

/-- The session writes instants so that their texts are in the order of the instants. -/
def Chronological (timeText : Timestamp → String) (rows : List CreditLedgerEntry) : Prop :=
  ∀ a ∈ rows, ∀ b ∈ rows, timeText a.createdAt < timeText b.createdAt ↔ a.createdAt < b.createdAt

section Newest

variable {timeText : Timestamp → String} {db : Database} {orgId : Uuid}

/-- The rows of an organisation. -/
def ownRows (db : Database) (orgId : Uuid) : List CreditLedgerEntry :=
  db.creditLedger.filter fun e => e.orgId = orgId

theorem mem_history {r : RunningEntry} (member : r ∈ ledgerHistory db orgId) :
    r.entry ∈ ownRows db orgId ∧ r.runningBalance = runningSum orgId db.creditLedger r.entry := by
  obtain ⟨e, inside, rfl⟩ := List.mem_map.1 member
  exact ⟨inside, rfl⟩

/-- In chronological order of the texts, what is before nothing is the newest. -/
theorem upTo_of_before (chronological : Chronological timeText (ownRows db orgId))
    {a b : RunningEntry} (ha : a.entry ∈ ownRows db orgId) (hb : b.entry ∈ ownRows db orgId)
    (before : RunningEntry.before timeText a b = true) : b.entry.upTo a.entry = true := by
  simp only [RunningEntry.before, Bool.or_eq_true, Bool.and_eq_true, decide_eq_true_eq] at before
  simp only [CreditLedgerEntry.upTo, newestFirst, Bool.or_eq_true, Bool.and_eq_true,
    decide_eq_true_eq]
  rcases before with later | ⟨same, ids⟩
  · exact .inl ((chronological _ hb _ ha).1 later)
  · refine .inr ⟨?_, ids⟩
    have notBefore : ¬ a.entry.createdAt < b.entry.createdAt := fun lt =>
      absurd ((chronological _ ha _ hb).2 lt) (by rw [same]; exact String.lt_irrefl _)
    have notAfter : ¬ b.entry.createdAt < a.entry.createdAt := fun lt =>
      absurd ((chronological _ hb _ ha).2 lt) (by rw [same]; exact String.lt_irrefl _)
    exact le_antisymm (not_lt.1 notAfter) (not_lt.1 notBefore)

theorem runningBalance_newest {r : RunningEntry} (member : r ∈ ledgerHistory db orgId)
    (newest : ∀ e ∈ ownRows db orgId, e.upTo r.entry = true) :
    r.runningBalance = balance orgId db.creditLedger := by
  rw [(mem_history member).2]
  exact runningSum_newest fun e inside own =>
    newest e (List.mem_filter.2 ⟨inside, decide_eq_true own⟩)

variable (timeText) in
theorem page_eq (fit : RunningSumsFit orgId db.creditLedger) (from_ to_ : Option Date)
    (limit : ℕ) : getLedgerWithRunningBalance timeText db orgId from_ to_ limit =
      .ok ((((ledgerHistory db orgId).filter (RunningEntry.Within from_ to_)).mergeSort
        (RunningEntry.before timeText)).take limit) :=
  if_pos (history_fits.2 fit)

/-- Without a filter, the whole history is within. -/
theorem filter_within_none (rows : List RunningEntry) :
    rows.filter (RunningEntry.Within none none) = rows := by
  refine List.filter_eq_self.2 fun r _ => decide_eq_true ⟨fun d has => ?_, fun d has => ?_⟩
  · cases has
  · cases has

theorem mem_history_of_own {e : CreditLedgerEntry} (own : e ∈ ownRows db orgId) :
    RunningEntry.mk e (runningSum orgId db.creditLedger e) ∈ ledgerHistory db orgId :=
  List.mem_map.2 ⟨e, own, rfl⟩

/-- **The first row of an unfiltered page** has the balance. -/
theorem head_page (fit : RunningSumsFit orgId db.creditLedger)
    (chronological : Chronological timeText (ownRows db orgId)) (some_ : ownRows db orgId ≠ [])
    {limit : ℕ} (positive : 1 ≤ limit) :
    ∃ r rest, getLedgerWithRunningBalance timeText db orgId none none limit = .ok (r :: rest) ∧
      r.runningBalance = balance orgId db.creditLedger := by
  rw [page_eq timeText fit, filter_within_none]
  have sorted : ((ledgerHistory db orgId).mergeSort (RunningEntry.before timeText)).Pairwise
      (fun a b => RunningEntry.before timeText a b = true) :=
    List.pairwise_mergeSort (RunningPage.before_trans timeText)
      (RunningPage.before_total timeText) (ledgerHistory db orgId)
  have listed : ∀ e ∈ ownRows db orgId, RunningEntry.mk e (runningSum orgId db.creditLedger e) ∈
      (ledgerHistory db orgId).mergeSort (RunningEntry.before timeText) :=
    fun e own => List.mem_mergeSort.2 (mem_history_of_own own)
  have history : ∀ r ∈ (ledgerHistory db orgId).mergeSort (RunningEntry.before timeText),
      r ∈ ledgerHistory db orgId := fun r member => List.mem_mergeSort.1 member
  generalize (ledgerHistory db orgId).mergeSort (RunningEntry.before timeText) = rows at *
  cases rows with
  | nil =>
      obtain ⟨e, own⟩ := List.exists_mem_of_ne_nil _ some_
      exact absurd (listed e own) List.not_mem_nil
  | cons r rest =>
      obtain ⟨limit, rfl⟩ : ∃ n, limit = n + 1 := ⟨limit - 1, by omega⟩
      have inside := history r List.mem_cons_self
      refine ⟨r, rest.take limit, rfl, runningBalance_newest inside fun e own => ?_⟩
      rcases List.mem_cons.1 (listed e own) with same | later
      · rw [← same]
        exact CreditLedgerEntry.upTo_refl e
      · exact upTo_of_before chronological (mem_history inside).1 own
          ((List.pairwise_cons.1 sorted).1 _ later)

end Newest

/-! ## Statements and balances -/

/-- The page shows the newest row, with this balance, and first if the texts of its instants
are in their order. -/
structure ShowsNewest (timeText : Timestamp → String) (db : Database) (orgId : Uuid) (limit : ℕ)
    (sum : Int) (page : List RunningEntry) : Prop where
  newest : ∀ r ∈ page, (∀ e ∈ ownRows db orgId, e.upTo r.entry = true) → r.runningBalance = sum
  shown : (ownRows db orgId).length ≤ limit →
    ∃ r ∈ page, ∀ e ∈ ownRows db orgId, e.upTo r.entry = true
  first : Chronological timeText (ownRows db orgId) →
    ∃ r rest, page = r :: rest ∧ r.runningBalance = sum

/-- **Statements chain**, and end in the balance. -/
structure StatementsChain (timeText : Timestamp → String) (db : Database) (orgId : Uuid) :
    Prop where
  /-- what a month opens with and moves is what it closes with -/
  equation : ∀ month s, getMonthlyStatement db orgId month = some s →
    s.openingBalance + s.creditsGranted - s.creditsConsumed + s.creditsRefunded +
      s.adjustments = s.closingBalance
  /-- a month opens with what the one before it closed with -/
  next : ∀ month month' s s', Follows month month' → getMonthlyStatement db orgId month = some s →
    getMonthlyStatement db orgId month' = some s' → s'.openingBalance = s.closingBalance
  /-- the entries of months in a row are the rows between them, each once -/
  partition : ∀ month months bounds last, List.IsChain Follows (month :: months) →
    (∀ m ∈ month :: months, parseStatementMonth m ≠ none) →
      parseStatementMonth month = some bounds →
        parseStatementMonth ((month :: months).getLast (List.cons_ne_nil _ _)) = some last →
          (entriesOf db orgId (month :: months)).Perm
            (entriesBetween db orgId bounds.start last.end_)
  /-- after the last entry, the closing is the balance and the newest running balance -/
  final : ∀ month bounds s, parseStatementMonth month = some bounds →
    getMonthlyStatement db orgId month = some s →
      (∀ e ∈ ownRows db orgId, e.createdAt < bounds.end_.timestamp) →
        getCreditBalance db orgId = .ok s.closingBalance ∧
          ∀ limit, 1 ≤ limit → ownRows db orgId ≠ [] →
            ∃ page, getLedgerWithRunningBalance timeText db orgId none none limit = .ok page ∧
              ShowsNewest timeText db orgId limit s.closingBalance page
  /-- a row has the same running balance behind a filter -/
  filter : ∀ from_ to_ limit page,
    getLedgerWithRunningBalance timeText db orgId from_ to_ limit = .ok page →
      ∀ r ∈ page, ∃ all, getLedgerWithRunningBalance timeText db orgId none none
        (ownRows db orgId).length = .ok all ∧ r ∈ all

section Chain

variable {timeText : Timestamp → String} {db : Database} {orgId : Uuid}

variable (timeText) in
/-- A page without a filter that is long enough has the whole history. -/
theorem whole_page (fit : RunningSumsFit orgId db.creditLedger) {limit : ℕ}
    (long : (ownRows db orgId).length ≤ limit) :
    ∃ all, getLedgerWithRunningBalance timeText db orgId none none limit = .ok all ∧
      ∀ r, r ∈ ledgerHistory db orgId ↔ r ∈ all := by
  have length : ((ledgerHistory db orgId).mergeSort (RunningEntry.before timeText)).length ≤
      limit := by
    rw [List.length_mergeSort, ledgerHistory, List.length_map]
    exact long
  refine ⟨_, page_eq timeText fit none none limit, ?_⟩
  intro r
  rw [filter_within_none, List.take_of_length_le length, List.mem_mergeSort]

theorem showsNewest (fit : RunningSumsFit orgId db.creditLedger) (some_ : ownRows db orgId ≠ [])
    {limit : ℕ} (positive : 1 ≤ limit) :
    ∃ page, getLedgerWithRunningBalance timeText db orgId none none limit = .ok page ∧
      ShowsNewest timeText db orgId limit (balance orgId db.creditLedger) page := by
  have answers := page_eq timeText fit none none limit
  refine ⟨_, answers, ?_, ?_, ?_⟩
  · intro r member newest
    exact runningBalance_newest (mem_page answers member).1 newest
  · intro long
    obtain ⟨e, own, newest⟩ := CreditLedgerEntry.exists_newest some_
    obtain ⟨all, eq, whole⟩ := whole_page timeText fit long
    obtain rfl := Except.ok.inj (eq.symm.trans answers)
    exact ⟨_, (whole _).1 (mem_history_of_own own), newest⟩
  · intro chronological
    obtain ⟨r, rest, eq, sum⟩ := head_page fit chronological some_ positive
    exact ⟨r, rest, Except.ok.inj (answers.symm.trans eq), sum⟩

/-- **With running sums that fit**, statements chain. -/
theorem statementsChain_of_fit (fit : RunningSumsFit orgId db.creditLedger)
    (safe : MonthsSafe db orgId) : StatementsChain timeText db orgId where
  equation := by
    intro month s is
    obtain ⟨bounds, parses⟩ : ∃ bounds, parseStatementMonth month = some bounds := by
      cases parses : parseStatementMonth month with
      | none =>
          rw [getMonthlyStatement, parses] at is
          cases is
      | some bounds => exact ⟨bounds, rfl⟩
    have exact_ := exact_of_fit fit safe parses is
    have reasons := sumOf_reasons (entriesBetween db orgId bounds.start bounds.end_)
    rw [exact_.opening, exact_.granted, exact_.consumed, exact_.refunded, exact_.adjustments,
      exact_.closing, ← deltaBefore_end (le_of_lt (start_lt_end parses))]
    omega
  next := by
    rintro month month' s s' follows is is'
    have parsed : ∀ {m : JsString} {t : MonthlyStatement},
        getMonthlyStatement db orgId m = some t → ∃ b, parseStatementMonth m = some b := by
      intro m t has
      cases parses : parseStatementMonth m with
      | none =>
          rw [getMonthlyStatement, parses] at has
          cases has
      | some b => exact ⟨b, rfl⟩
    obtain ⟨bounds, parses⟩ := parsed is
    obtain ⟨bounds', parses'⟩ := parsed is'
    rw [(exact_of_fit fit safe parses' is').opening, (exact_of_fit fit safe parses is).closing,
      readMonth_follows follows parses parses']
  partition := fun _ _ _ _ row valid parses ends => (entriesOf_perm row valid parses ends).2
  final := by
    intro month bounds s parses is early
    have closing : s.closingBalance = balance orgId db.creditLedger := by
      rw [(exact_of_fit fit safe parses is).closing]
      exact total_congr fun e member => ⟨And.left, fun own =>
        ⟨own, early e (List.mem_filter.2 ⟨member, decide_eq_true own⟩)⟩⟩
    rw [closing]
    exact ⟨getCreditBalance_ok fit.balance, fun limit positive some_ =>
      showsNewest fit some_ positive⟩
  filter := by
    intro from_ to_ limit page answers r member
    have fit := getLedgerWithRunningBalance_ok_iff.1 ⟨page, answers⟩
    obtain ⟨all, eq, whole⟩ := whole_page timeText fit le_rfl
    exact ⟨all, eq, (whole r).1 (mem_page answers member).1⟩

/-- The last month that has a statement. -/
def lastMonth : JsString := Js.ofString "2100-12"

theorem parse_lastMonth :
    parseStatementMonth lastMonth = some ⟨dateUTC 2100 11 1, dateUTC 2100 12 1⟩ := by
  decide +kernel

/-- No entry is later than all statements. -/
def WithinStatements (db : Database) (orgId : Uuid) : Prop :=
  ∀ e ∈ ownRows db orgId, e.createdAt < (dateUTC 2100 12 1).timestamp

instance (db : Database) (orgId : Uuid) : Decidable (WithinStatements db orgId) :=
  inferInstanceAs (Decidable (∀ e ∈ ownRows db orgId, _))

/-- **Only with running sums that fit**, if a statement comes after the last entry. -/
theorem StatementsChain.fits (chain : StatementsChain timeText db orgId)
    (within : WithinStatements db orgId) : RunningSumsFit orgId db.creditLedger := by
  by_cases none_ : ownRows db orgId = []
  · intro e member own
    exact absurd (none_ ▸ List.mem_filter.2 ⟨member, decide_eq_true own⟩ : e ∈ [])
      List.not_mem_nil
  obtain ⟨s, is⟩ := statement_isSome db orgId parse_lastMonth
  obtain ⟨-, pages⟩ := chain.final lastMonth _ s parse_lastMonth is within
  obtain ⟨page, answers, -⟩ := pages 1 le_rfl none_
  exact getLedgerWithRunningBalance_ok_iff.1 ⟨page, answers⟩

end Chain

/-- **When monthly statements chain.**  For a ledger in which no month moves more credits than
JavaScript adds exactly: where every running sum of the organisation is a 32-bit integer the
statements chain and end in the balance and in the newest running balance, and unless there
are entries later than all statements, nowhere else. -/
theorem statements_chain_iff (timeText : Timestamp → String) (db : Database) (orgId : Uuid)
    (safe : MonthsSafe db orgId) :
    (RunningSumsFit orgId db.creditLedger → StatementsChain timeText db orgId) ∧
      (WithinStatements db orgId →
        (StatementsChain timeText db orgId ↔ RunningSumsFit orgId db.creditLedger)) :=
  ⟨fun fit => statementsChain_of_fit fit safe, fun within =>
    ⟨fun chain => chain.fits within, fun fit => statementsChain_of_fit fit safe⟩⟩

/-! ### Two grants of the largest amount that fits -/

/-- A grant on a ledger. -/
def grantOn (k : ℕ) (delta : Int) (at_ : Date) : CreditLedgerEntry :=
  ⟨.numbered k, .numbered 1, delta, .grant, some "grant:", none, at_.timestamp⟩

/-- One organisation, and the rows of its ledger. -/
def ledgerOnly (rows : List CreditLedgerEntry) : Database where
  organizations := [⟨.numbered 1, none, 30, false⟩]
  creditLedger := rows
  emailChecks := []
  phoneChecks := []
  batches := []
  auditEvents := []

/-- A grant at the very end of a year, and one at the very start of the next. -/
def newYear : Database :=
  ledgerOnly [grantOn 1 100 (dateUTC 2026 12 1 - 1), grantOn 2 40 (dateUTC 2026 12 1)]

theorem statements_chain_newYear : StatementsChain (fun t => toString t) newYear (.numbered 1) :=
  (statements_chain_iff _ newYear (.numbered 1) (monthsSafe_of_volume (by decide +kernel))).1
    (by decide +kernel)

/-- Two grants that the ledger takes. -/
def largeGrants : Database :=
  ledgerOnly [grantOn 1 2147483647 (dateUTC 2026 0 1), grantOn 2 2147483647 (dateUTC 2026 0 2)]

/-- **The last statement closes, and nothing else can be read.** -/
theorem two_large_grants :
    ((getMonthlyStatement largeGrants (.numbered 1) lastMonth).map (·.closingBalance)) =
        some 4294967294 ∧
      getCreditBalance largeGrants (.numbered 1) = .error .integerOutOfRange ∧
      ∀ timeText, ¬ StatementsChain timeText largeGrants (.numbered 1) := by
  refine ⟨by decide +kernel, by decide +kernel, ?_⟩
  intro timeText chain
  have fits := chain.fits (by decide +kernel)
  revert fits
  decide +kernel

end Tozalist.Credits
