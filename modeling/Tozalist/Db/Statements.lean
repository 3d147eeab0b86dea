/-
# Tozalist.Db.Statements -- balances, running balances and monthly statements

`getCreditBalance` of `credits.ts`, `getLedgerWithRunningBalance` of `checks.ts`, and
`parseStatementMonth` and `getMonthlyStatement` of `billing.ts`.  The first two cast their
sums to `int`, and PostgreSQL refuses a sum that does not fit; the statement takes `sum(delta)`
as a text and adds in JavaScript.

The page of the ledger is ordered by `created_at`, which in its query is the name of the text
it selects: the texts depend on the session, and come in as `timeText`.

* `RunningSumsFit` is what the window sum of an organisation needs; with it every balance up
  to an instant fits too (`RunningSumsFit.until`);
* `readMonth_follows`: a month ends where the next one starts.
-/
import Tozalist.Db.Pages
import Tozalist.Js.Number

namespace Tozalist.Db

set_option autoImplicit false

open Theory.Calendar (dayOf)
open Theory.Table

/-! ## Balances -/

/-- `getCreditBalance`. -/
def getCreditBalance (db : Database) (orgId : Uuid) : Except DbError Int :=
  if Int4 (balance orgId db.creditLedger) then .ok (balance orgId db.creditLedger)
  else .error .integerOutOfRange

/-- `created_at asc, id asc`: not after. -/
def CreditLedgerEntry.upTo (earlier later : CreditLedgerEntry) : Bool :=
  newestFirst CreditLedgerEntry.createdAt CreditLedgerEntry.id later earlier

/-- `sum(delta) over (order by created_at asc, id asc)` in the history of an organisation. -/
def runningSum (orgId : Uuid) (rows : List CreditLedgerEntry) (e : CreditLedgerEntry) : Int :=
  total (fun r => r.orgId = orgId ∧ r.upTo e) (·.delta) rows

/-- A row of the page. -/
structure RunningEntry where
  entry : CreditLedgerEntry
  runningBalance : Int
  deriving DecidableEq, Repr

/-- The `history` of the query. -/
def ledgerHistory (db : Database) (orgId : Uuid) : List RunningEntry :=
  (db.creditLedger.filter fun e => e.orgId = orgId).map fun e =>
    ⟨e, runningSum orgId db.creditLedger e⟩

/-- `from` and `to` keep the row. -/
def RunningEntry.Within (from_ to_ : Option Date) (r : RunningEntry) : Prop :=
  (∀ d ∈ from_, d.timestamp ≤ r.entry.createdAt) ∧ ∀ d ∈ to_, r.entry.createdAt ≤ d.timestamp

instance (from_ to_ : Option Date) (r : RunningEntry) : Decidable (r.Within from_ to_) :=
  inferInstanceAs (Decidable ((∀ d ∈ from_, _) ∧ ∀ d ∈ to_, _))

/-- `order by created_at desc, id desc`, where `created_at` is the text that is selected. -/
def RunningEntry.before (timeText : Timestamp → String) (a b : RunningEntry) : Bool :=
  timeText b.entry.createdAt < timeText a.entry.createdAt ||
    (timeText a.entry.createdAt = timeText b.entry.createdAt &&
      b.entry.id.text ≤ a.entry.id.text)

/-- `getLedgerWithRunningBalance`: one sum of the history out of range fails the query. -/
def getLedgerWithRunningBalance (timeText : Timestamp → String) (db : Database) (orgId : Uuid)
    (from_ to_ : Option Date) (limit : ℕ) : Except DbError (List RunningEntry) :=
  if ∀ r ∈ ledgerHistory db orgId, Int4 r.runningBalance then
    .ok ((((ledgerHistory db orgId).filter (RunningEntry.Within from_ to_)).mergeSort
      (RunningEntry.before timeText)).take limit)
  else .error .integerOutOfRange

/-! ## Months -/

/-- `Date.UTC(year, monthIndex, day)`, for a year that has four digits. -/
def dateUTC (year monthIndex day : Int) : Date :=
  dayOf ⟨year + monthIndex / 12, monthIndex % 12 + 1, day⟩ * Js.dayMs

/-- `/^(\d{4})-(\d{2})$/` and the two numbers of a match. -/
def readMonth (month : JsString) : Option (ℕ × ℕ) :=
  match month with
  | [y₀, y₁, y₂, y₃, dash, m₀, m₁] =>
      if dash = 45 then do
        let year ← Js.toNat? [y₀, y₁, y₂, y₃]
        let number ← Js.toNat? [m₀, m₁]
        return (year, number)
      else none
  | _ => none

/-- The instants between which a month lies. -/
structure MonthBounds where
  start : Date
  end_ : Date
  deriving DecidableEq, Repr

/-- The years and months of statements. -/
def StatementMonth (year : ℕ) (monthIndex : Int) : Prop :=
  ¬ (monthIndex < 0 ∨ 11 < monthIndex ∨ year < 2020 ∨ 2100 < year)

instance (year : ℕ) (monthIndex : Int) : Decidable (StatementMonth year monthIndex) :=
  inferInstanceAs (Decidable (¬ _))

/-- `parseStatementMonth`. -/
def parseStatementMonth (month : JsString) : Option MonthBounds := do
  let (year, number) ← readMonth month
  let monthIndex : Int := (number : Int) - 1
  if StatementMonth year monthIndex then
    some ⟨dateUTC year monthIndex 1, dateUTC year (monthIndex + 1) 1⟩
  else none

/-! ## Statements -/

/-- `MonthlyStatement`. -/
structure MonthlyStatement where
  month : JsString
  openingBalance : Int
  creditsGranted : Int
  creditsConsumed : Int
  creditsRefunded : Int
  adjustments : Int
  closingBalance : Int
  checksCharged : Int
  batchesRun : ℕ
  entries : List CreditLedgerEntry

/-- `CONSUMPTION_REASONS`. -/
def consumptionReasons : List CreditReason := [.singleCheck, .batchCheck]

/-- `byReason`. -/
def byReason (entries : List CreditLedgerEntry) (reasons : List CreditReason) : Int :=
  Js.sumNumbers ((entries.filter fun e => e.reason ∈ reasons).map (·.delta))

/-- The deltas before an instant, summed by PostgreSQL. -/
def deltaBefore (db : Database) (orgId : Uuid) (at_ : Date) : Int :=
  total (fun e => e.orgId = orgId ∧ e.createdAt < at_.timestamp) (·.delta) db.creditLedger

/-- The rows of an organisation in `[start, end)`. -/
def entriesBetween (db : Database) (orgId : Uuid) (start end_ : Date) : List CreditLedgerEntry :=
  db.creditLedger.filter fun e =>
    e.orgId = orgId ∧ start.timestamp ≤ e.createdAt ∧ e.createdAt < end_.timestamp

/-- `getMonthlyStatement`; `none` is its `null`. -/
def getMonthlyStatement (db : Database) (orgId : Uuid) (month : JsString) :
    Option MonthlyStatement := do
  let bounds ← parseStatementMonth month
  let entries := (entriesBetween db orgId bounds.start bounds.end_).mergeSort
    CreditLedgerEntry.upTo
  let openingBalance := Js.toNumber (deltaBefore db orgId bounds.start)
  let consumedDelta := byReason entries consumptionReasons
  let monthDelta := Js.sumNumbers (entries.map (·.delta))
  return {
    month
    openingBalance
    creditsGranted := byReason entries [.grant]
    creditsConsumed := -consumedDelta
    creditsRefunded := byReason entries [.refund]
    adjustments := byReason entries [.adjustment]
    closingBalance := Js.toNumber (openingBalance + monthDelta)
    checksCharged := -consumedDelta
    batchesRun := (entries.filter fun e => e.reason = .batchCheck).length
    entries }

/-! ## The order of the ledger -/

namespace CreditLedgerEntry

variable {a b c : CreditLedgerEntry}

theorem upTo_refl (a : CreditLedgerEntry) : a.upTo a = true := by
  simp [upTo, newestFirst]

theorem upTo_trans (ab : a.upTo b = true) (bc : b.upTo c = true) : a.upTo c = true :=
  newestFirst_trans _ _ _ bc ab

theorem upTo_total (a b : CreditLedgerEntry) : a.upTo b = true ∨ b.upTo a = true := by
  have either : (newestFirst createdAt id b a || newestFirst createdAt id a b) = true :=
    newestFirst_total b a
  rwa [Bool.or_eq_true] at either

/-- An earlier row is not created later. -/
theorem createdAt_le_of_upTo (ab : a.upTo b = true) : a.createdAt ≤ b.createdAt := by
  simp only [upTo, newestFirst, Bool.or_eq_true, Bool.and_eq_true, decide_eq_true_eq] at ab
  rcases ab with lt | ⟨same, -⟩
  · exact le_of_lt lt
  · exact le_of_eq same.symm

/-- Some row of a ledger is its newest. -/
theorem exists_newest {rows : List CreditLedgerEntry} (some_ : rows ≠ []) :
    ∃ e ∈ rows, ∀ r ∈ rows, r.upTo e = true := by
  induction rows with
  | nil => exact absurd rfl some_
  | cons x rows ih =>
      by_cases last : rows = []
      · subst last
        refine ⟨x, List.mem_singleton.2 rfl, ?_⟩
        intro r member
        obtain rfl := List.mem_singleton.1 member
        exact upTo_refl r
      obtain ⟨e, member, newest⟩ := ih last
      rcases upTo_total x e with before | after
      · refine ⟨e, List.mem_cons_of_mem x member, ?_⟩
        intro r inside
        rcases List.mem_cons.1 inside with rfl | later
        · exact before
        · exact newest r later
      · refine ⟨x, List.mem_cons_self, ?_⟩
        intro r inside
        rcases List.mem_cons.1 inside with rfl | later
        · exact upTo_refl r
        · exact upTo_trans (newest r later) after

end CreditLedgerEntry

/-! ## Running sums -/

/-- Every running sum of an organisation is an integer of PostgreSQL. -/
def RunningSumsFit (orgId : Uuid) (rows : List CreditLedgerEntry) : Prop :=
  ∀ e ∈ rows, e.orgId = orgId → Int4 (runningSum orgId rows e)

instance (orgId : Uuid) (rows : List CreditLedgerEntry) : Decidable (RunningSumsFit orgId rows) :=
  inferInstanceAs (Decidable (∀ e ∈ rows, _))

section Sums

variable {orgId : Uuid} {rows : List CreditLedgerEntry}

theorem total_congr {p q : CreditLedgerEntry → Prop} [DecidablePred p] [DecidablePred q]
    (same : ∀ r ∈ rows, p r ↔ q r) :
    total p (·.delta) rows = total q (·.delta) rows := by
  unfold total
  rw [List.filter_congr fun r member => decide_eq_decide.2 (same r member)]

/-- What the first rows of the history sum up to is a running sum, or nothing. -/
theorem RunningSumsFit.initial (fit : RunningSumsFit orgId rows) (p : CreditLedgerEntry → Prop)
    [DecidablePred p] (closed : ∀ e r : CreditLedgerEntry, p e → r.upTo e = true → p r) :
    Int4 (total (fun r => r.orgId = orgId ∧ p r) (·.delta) rows) := by
  by_cases none_ : (rows.filter fun r => r.orgId = orgId ∧ p r) = []
  · rw [total, none_]
    decide
  obtain ⟨e, member, newest⟩ := CreditLedgerEntry.exists_newest none_
  obtain ⟨inside, own⟩ := List.mem_filter.1 member
  rw [decide_eq_true_eq] at own
  have same : total (fun r => r.orgId = orgId ∧ p r) (·.delta) rows = runningSum orgId rows e := by
    refine total_congr fun r here => and_congr_right fun mine => ⟨fun has => ?_, closed e r own.2⟩
    exact newest r (List.mem_filter.2 ⟨here, decide_eq_true ⟨mine, has⟩⟩)
  rw [same]
  exact fit e inside own.1

/-- The running sum of the newest row is the balance. -/
theorem runningSum_newest {e : CreditLedgerEntry}
    (newest : ∀ r ∈ rows, r.orgId = orgId → r.upTo e = true) :
    runningSum orgId rows e = balance orgId rows :=
  total_congr fun r member => ⟨And.left, fun own => ⟨own, newest r member own⟩⟩

theorem RunningSumsFit.balance (fit : RunningSumsFit orgId rows) : Int4 (balance orgId rows) := by
  have all := fit.initial (fun _ => True) fun _ _ _ _ => trivial
  simp only [and_true] at all
  exact all

theorem getCreditBalance_ok {db : Database} (fit : Int4 (Db.balance orgId db.creditLedger)) :
    getCreditBalance db orgId = .ok (Db.balance orgId db.creditLedger) :=
  if_pos fit

theorem history_fits {db : Database} : (∀ r ∈ ledgerHistory db orgId, Int4 r.runningBalance) ↔
    RunningSumsFit orgId db.creditLedger := by
  constructor
  · intro fits e member own
    exact fits ⟨e, _⟩ (List.mem_map.2 ⟨e, List.mem_filter.2 ⟨member, decide_eq_true own⟩, rfl⟩)
  · intro fits r member
    obtain ⟨e, inside, rfl⟩ := List.mem_map.1 member
    obtain ⟨here, own⟩ := List.mem_filter.1 inside
    exact fits e here (of_decide_eq_true own)

/-- **The page is there exactly when every running sum fits.** -/
theorem getLedgerWithRunningBalance_ok_iff {timeText : Timestamp → String} {db : Database}
    {from_ to_ : Option Date} {limit : ℕ} :
    (∃ page, getLedgerWithRunningBalance timeText db orgId from_ to_ limit = .ok page) ↔
      RunningSumsFit orgId db.creditLedger := by
  rw [← history_fits, getLedgerWithRunningBalance]
  split
  · exact ⟨fun _ => ‹_›, fun _ => ⟨_, rfl⟩⟩
  · exact ⟨fun ⟨_, no⟩ => (by cases no), fun fits => absurd fits ‹_›⟩

/-- A row of a page is of the history, with its own running sum. -/
theorem mem_page {timeText : Timestamp → String} {db : Database} {from_ to_ : Option Date}
    {limit : ℕ} {page : List RunningEntry}
    (answers : getLedgerWithRunningBalance timeText db orgId from_ to_ limit = .ok page)
    {r : RunningEntry} (member : r ∈ page) :
    r ∈ ledgerHistory db orgId ∧
      r.runningBalance = runningSum orgId db.creditLedger r.entry := by
  rw [getLedgerWithRunningBalance] at answers
  split at answers
  · obtain rfl := Except.ok.inj answers
    have inside := List.mem_of_mem_filter (List.mem_mergeSort.1 (List.mem_of_mem_take member))
    refine ⟨inside, ?_⟩
    obtain ⟨e, -, rfl⟩ := List.mem_map.1 inside
    rfl
  · cases answers

end Sums

/-! ## Months in a row -/

/-- The second month is the one after the first. -/
def Follows (month next : JsString) : Prop :=
  ∃ year number year' number', readMonth month = some (year, number) ∧
    readMonth next = some (year', number') ∧ 12 * year' + number' = 12 * year + number + 1

/-- A month runs over into the next year. -/
theorem dateUTC_carry (year monthIndex day : Int) :
    dateUTC (year + 1) monthIndex day = dateUTC year (monthIndex + 12) day := by
  have year' : year + 1 + monthIndex / 12 = year + (monthIndex + 12) / 12 := by omega
  have month' : monthIndex % 12 = (monthIndex + 12) % 12 := by omega
  rw [dateUTC, dateUTC, year', month']

theorem parseStatementMonth_eq {month : JsString} {bounds : MonthBounds}
    (parses : parseStatementMonth month = some bounds) :
    ∃ year number, readMonth month = some (year, number) ∧ 1 ≤ number ∧ number ≤ 12 ∧
      2020 ≤ year ∧ year ≤ 2100 ∧ bounds.start = dateUTC year ((number : Int) - 1) 1 ∧
      bounds.end_ = dateUTC year number 1 := by
  rw [parseStatementMonth] at parses
  cases read : readMonth month with
  | none =>
      rw [read] at parses
      cases parses
  | some parts =>
      obtain ⟨year, number⟩ := parts
      rw [read] at parses
      simp only [Option.bind_eq_bind, Option.bind_some] at parses
      split at parses
      · rename_i valid
        obtain rfl := Option.some.inj parses
        unfold StatementMonth at valid
        exact ⟨year, number, rfl, by omega, by omega, by omega, by omega, rfl,
          by rw [show (number : Int) - 1 + 1 = number by omega]⟩
      · cases parses

/-- **A month ends where the next one starts**, across years too. -/
theorem readMonth_follows {month next : JsString} {bounds bounds' : MonthBounds}
    (follows : Follows month next) (parses : parseStatementMonth month = some bounds)
    (parses' : parseStatementMonth next = some bounds') : bounds'.start = bounds.end_ := by
  obtain ⟨year, number, year', number', read, read', succ⟩ := follows
  obtain ⟨y, n, is, low, high, -, -, -, ends⟩ := parseStatementMonth_eq parses
  obtain ⟨y', n', is', low', high', -, -, starts, -⟩ := parseStatementMonth_eq parses'
  obtain ⟨rfl, rfl⟩ := Prod.mk.inj (Option.some.inj (is.symm.trans read))
  obtain ⟨rfl, rfl⟩ := Prod.mk.inj (Option.some.inj (is'.symm.trans read'))
  rw [ends, starts]
  rcases Nat.lt_or_ge n 12 with inside | last
  · obtain ⟨rfl, rfl⟩ : y' = y ∧ n' = n + 1 := by omega
    rw [show ((n + 1 : ℕ) : Int) - 1 = n by omega]
  · obtain ⟨rfl, rfl, rfl⟩ : n = 12 ∧ y' = y + 1 ∧ n' = 1 := by omega
    rw [show ((y + 1 : ℕ) : Int) = (y : Int) + 1 by omega, dateUTC_carry]
    rfl

/-- A month has some days. -/
theorem start_lt_end {month : JsString} {bounds : MonthBounds}
    (parses : parseStatementMonth month = some bounds) : bounds.start < bounds.end_ := by
  obtain ⟨year, number, -, low, high, early, late, starts, ends⟩ := parseStatementMonth_eq parses
  have days : ∀ y : Fin 81, ∀ n : Fin 12,
      dateUTC (2020 + y.val : ℕ) n.val 1 < dateUTC (2020 + y.val : ℕ) (n.val + 1 : ℕ) 1 := by
    decide +kernel
  have here := days ⟨year - 2020, by omega⟩ ⟨number - 1, by omega⟩
  rw [starts, ends]
  have year_ : 2020 + (year - 2020) = year := by omega
  have number_ : number - 1 + 1 = number := by omega
  simp only [year_, number_] at here
  rwa [show ((number - 1 : ℕ) : Int) = (number : Int) - 1 by omega] at here

end Tozalist.Db
