/-
# Tozalist.Credits.Cutoff -- the sweep's ledger cutoff against the trigger's test

`purgeExpiredLedgerEntries` selects by `ledgerRetentionCutoff(now)`, where JavaScript
turns a 29 February three years back into 1 March; the append-only trigger lets a row go
by `now() - interval '3 years'`, where PostgreSQL turns it into 28 February, and one row
it keeps aborts the whole purge.

* `cutoff_le_minusYears_iff` orders the two for every pair of clocks: the cutoff is past
  the trigger's test exactly when one of them shows a 29 February and they are less than
  a day apart (`AcrossLeapDay`);
* `purge_goes_through_iff` says the same of the purge, over every ledger.
-/
import Tozalist.Db.Lifecycle
import Mathlib.Tactic.Ring

namespace Tozalist.Credits

set_option autoImplicit false

open Db
open Theory (Txn)
open Theory.Calendar

/-! ## The two cutoffs -/

/-- Microseconds of a day. -/
def usPerDay : Int := msPerDay * 1000

/-- The worker's clock or the database's shows a 29 February, and the database's is less
than a day ahead. -/
def AcrossLeapDay (dbNow : Timestamp) (now : Date) : Prop :=
  (LeapDay (now / msPerDay) ∨ LeapDay (dbNow / usPerDay)) ∧ dbNow < now.timestamp + usPerDay

instance (dbNow : Timestamp) (now : Date) : Decidable (AcrossLeapDay dbNow now) :=
  inferInstanceAs (Decidable (_ ∧ _))

/-- The cutoff keeps the day of the year and the time of day. -/
theorem ledgerRetentionCutoff_eq (now : Date) :
    ledgerRetentionCutoff now =
      (daysBefore (marchYear (now / msPerDay) - 3) + dayOfYear (now / msPerDay) - 719468) *
        msPerDay + now % msPerDay := by
  have kept := dayOf_dateOf_minus (now / msPerDay) 3
  unfold ledgerRetentionCutoff ledgerRetentionYears
  simp only []
  rw [kept]

/-- Three years before a leap day there is none. -/
theorem threeYears_short {year : Int} (long : daysBefore (year + 1) ≠ daysBefore year + 365) :
    daysBefore (year - 3 + 1) = daysBefore (year - 3) + 365 := by
  have fourth := (year_long long).2
  exact year_short (by omega)

/-- The trigger's date stays within its year: a leap day falls on the day before. -/
theorem minusYears_eq (t : Timestamp) :
    minusYears t ledgerRetentionYears =
      (daysBefore (marchYear (t / usPerDay) - 3) + min (dayOfYear (t / usPerDay)) 364 - 719468) *
        usPerDay + t % usPerDay := by
  have clamped := dayOf_clampDay_minus (t / usPerDay) 3
  have range := dayOfYear_range (t / usPerDay)
  have length := daysBefore_lt (show marchYear (t / usPerDay) - 3 <
    marchYear (t / usPerDay) - 3 + 1 by omega)
  have same : min (dayOfYear (t / usPerDay))
      (daysBefore (marchYear (t / usPerDay) - 3 + 1) -
        daysBefore (marchYear (t / usPerDay) - 3) - 1) = min (dayOfYear (t / usPerDay)) 364 := by
    by_cases leap : dayOfYear (t / usPerDay) = 365
    · rw [threeYears_short (range.2.2 leap)]
      omega
    · omega
  rw [same] at clamped
  unfold minusYears ledgerRetentionYears
  simp only []
  rw [show msPerDay * 1000 = usPerDay from rfl, clamped]

/-- Three years earlier, an earlier day run over is at most a later day clamped, and they
meet only where one is a leap day and the other its neighbour. -/
theorem threeYearsEarlier_le {a b : Int} (lt : a < b) :
    daysBefore (marchYear a - 3) + dayOfYear a ≤
        daysBefore (marchYear b - 3) + min (dayOfYear b) 364 ∧
      (daysBefore (marchYear a - 3) + dayOfYear a =
          daysBefore (marchYear b - 3) + min (dayOfYear b) 364 ↔
        b = a + 1 ∧ (dayOfYear a = 365 ∨ dayOfYear b = 365)) := by
  have early := day_eq a
  have late := day_eq b
  have rangeA := dayOfYear_range a
  have rangeB := dayOfYear_range b
  rcases Int.lt_or_eq_of_le (marchYear_mono (Int.le_of_lt lt)) with earlier | same
  · have years := daysBefore_lt (show marchYear a - 3 < marchYear b - 3 by omega)
    have apart := daysBefore_lt earlier
    by_cases leap : dayOfYear a = 365
    · have short := threeYears_short (rangeA.2.2 leap)
      have long := (year_long (rangeA.2.2 leap)).1
      by_cases next : marchYear b = marchYear a + 1
      · rw [show marchYear b - 3 = marchYear a - 3 + 1 by omega] at years ⊢
        rw [next] at late
        omega
      · have further := daysBefore_lt (show marchYear a - 3 + 1 < marchYear b - 3 by omega)
        have further' := daysBefore_lt (show marchYear a + 1 < marchYear b by omega)
        omega
    · omega
  · rw [← same] at late ⊢
    omega

/-- Instants are ordered by their days, and within a day by the time. -/
theorem instant_le_iff {a b s t : Int} (early : 0 ≤ s ∧ s < usPerDay)
    (late : 0 ≤ t ∧ t < usPerDay) :
    a * usPerDay + s ≤ b * usPerDay + t ↔ a < b ∨ a = b ∧ s ≤ t := by
  unfold usPerDay msPerDay at *
  omega

/-- The day and the time of the worker's clock, in microseconds. -/
theorem microseconds_eq (ms : Int) :
    ms * 1000 = ms / msPerDay * usPerDay + ms % msPerDay * 1000 ∧
      0 ≤ ms % msPerDay * 1000 ∧ ms % msPerDay * 1000 < usPerDay := by
  unfold usPerDay msPerDay
  omega

/-- **The cutoff is within the trigger's test except across a leap day.** -/
theorem cutoff_le_minusYears_iff {dbNow : Timestamp} {now : Date}
    (later : now.timestamp ≤ dbNow) :
    (ledgerRetentionCutoff now).timestamp ≤ minusYears dbNow ledgerRetentionYears ↔
      ¬ AcrossLeapDay dbNow now := by
  obtain ⟨split, early⟩ := microseconds_eq now
  rw [show now * 1000 = now.timestamp from rfl] at split
  obtain ⟨a, day⟩ : ∃ a : Int, now / msPerDay = a := ⟨_, rfl⟩
  obtain ⟨s, time⟩ : ∃ s : Int, now % msPerDay * 1000 = s := ⟨_, rfl⟩
  obtain ⟨b, dbDay⟩ : ∃ b : Int, dbNow / usPerDay = b := ⟨_, rfl⟩
  obtain ⟨t, dbTime⟩ : ∃ t : Int, dbNow % usPerDay = t := ⟨_, rfl⟩
  have dbSplit : dbNow = b * usPerDay + t := by
    rw [← dbDay, ← dbTime, Int.mul_comm]
    exact (Int.mul_ediv_add_emod dbNow usPerDay).symm
  have late : 0 ≤ t ∧ t < usPerDay := by
    rw [← dbTime]
    exact ⟨Int.emod_nonneg dbNow (by decide), Int.emod_lt_of_pos dbNow (by decide)⟩
  have cutoff : (ledgerRetentionCutoff now).timestamp =
      (daysBefore (marchYear a - 3) + dayOfYear a - 719468) * usPerDay + s := by
    rw [ledgerRetentionCutoff_eq, ← time, ← day]
    unfold Date.timestamp usPerDay
    ring
  rw [day, time] at split
  rw [time] at early
  rw [split, dbSplit, instant_le_iff early late] at later
  unfold AcrossLeapDay
  rw [cutoff, minusYears_eq, instant_le_iff early (dbTime ▸ late), leapDay_iff, leapDay_iff, day,
    dbDay, dbTime, split]
  rw [show a * usPerDay + s + usPerDay = (a + 1) * usPerDay + s by ring]
  conv_rhs => rw [dbSplit, ← not_le, instant_le_iff early late]
  have range := dayOfYear_range a
  rcases later with lt | ⟨rfl, le⟩
  · have cases_ := threeYearsEarlier_le lt
    omega
  · omega

/-! ## The purge -/

/-- A purge that commits is one whose selected rows all pass the trigger's test. -/
theorem purge_answers_iff (dbNow : Timestamp) (now : Date) (db : Database) :
    (∃ count db', Txn.Commits (purgeExpiredLedgerEntries dbNow now) db count db') ↔
      ∀ e ∈ db.creditLedger, e.Expired now →
        e.createdAt ≤ minusYears dbNow ledgerRetentionYears := by
  simp only [purgeExpiredLedgerEntries, Txn.commits_bind, Txn.commits_get, Txn.commits_ite,
    Txn.commits_throw, and_false, false_or, Txn.commits_modify, Txn.commits_pure]
  constructor
  · rintro ⟨_, _, _, _, ⟨rfl, rfl⟩, passes, -⟩ e member expired
    by_contra young
    exact passes ⟨e, member, expired, young⟩
  · intro passes
    refine ⟨_, _, db, db, ⟨rfl, rfl⟩, ?_, (), _, rfl, rfl, rfl⟩
    rintro ⟨e, member, expired, young⟩
    exact young (passes e member expired)

/-- A ledger row of a given moment. -/
def ledgerRowAt (createdAt : Timestamp) : CreditLedgerEntry :=
  ⟨.numbered 1, .numbered 2, 5, .grant, none, none, createdAt⟩

/-- **Every row the sweep selects passes the trigger's test, and no purge is aborted,
exactly when the two clocks are not across a leap day.** -/
theorem purge_goes_through_iff (dbNow : Timestamp) (now : Date)
    (later : now.timestamp ≤ dbNow) :
    ((∀ e : CreditLedgerEntry, e.Expired now →
        e.createdAt ≤ minusYears dbNow ledgerRetentionYears) ∧
      ∀ db : Database, ∃ count db',
        Txn.Commits (purgeExpiredLedgerEntries dbNow now) db count db') ↔
      ¬ AcrossLeapDay dbNow now := by
  rw [← cutoff_le_minusYears_iff later]
  constructor
  · rintro ⟨passes, -⟩
    exact passes (ledgerRowAt (ledgerRetentionCutoff now).timestamp) le_rfl
  · intro within
    have passes : ∀ e : CreditLedgerEntry, e.Expired now →
        e.createdAt ≤ minusYears dbNow ledgerRetentionYears :=
      fun e expired => le_trans expired within
    exact ⟨passes, fun db => (purge_answers_iff dbNow now db).2 fun e _ => passes e⟩

/-- Noon of 29 February 2024. -/
def leapNoon : Date := 19782 * 86400000 + 43200000

/-- A minute later the two clocks are across a leap day, and a purge at that moment can be
aborted. -/
theorem purge_goes_through_iff_leapNoon :
    ((∀ e : CreditLedgerEntry, e.Expired leapNoon →
        e.createdAt ≤ minusYears (leapNoon.timestamp + 60000000) ledgerRetentionYears) ∧
      ∀ db : Database, ∃ count db',
        Txn.Commits (purgeExpiredLedgerEntries (leapNoon.timestamp + 60000000) leapNoon)
          db count db') ↔
      ¬ AcrossLeapDay (leapNoon.timestamp + 60000000) leapNoon :=
  purge_goes_through_iff (leapNoon.timestamp + 60000000) leapNoon (by decide)

/-- On 29 February 2024 a row of midnight, 1 March 2021, is selected and not three years
old: the trigger aborts the purge. -/
theorem purge_aborted_on_leap_day :
    ¬ ∀ (dbNow : Timestamp) (now : Date), now.timestamp ≤ dbNow →
      (∀ e : CreditLedgerEntry, e.Expired now →
        e.createdAt ≤ minusYears dbNow ledgerRetentionYears) ∧
      ∀ db : Database, ∃ count db',
        Txn.Commits (purgeExpiredLedgerEntries dbNow now) db count db' := by
  intro goes
  obtain ⟨-, commits⟩ := goes leapNoon.timestamp leapNoon le_rfl
  have aborted := (purge_answers_iff leapNoon.timestamp leapNoon _).1
    (commits ⟨[], [ledgerRowAt (18687 * 86400000000)], [], [], [], []⟩)
  exact absurd (aborted (ledgerRowAt (18687 * 86400000000)) (by decide) (by decide)) (by decide)

end Tozalist.Credits
